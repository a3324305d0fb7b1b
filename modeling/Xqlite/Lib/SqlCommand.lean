import Xqlite.Lib.QueryText
import Xqlite.Lib.SqlText
set_option autoImplicit false

namespace SqlText

def lparen : UInt8 := 40
def rparen : UInt8 := 41

def visible (s : Bytes) : Bytes := s.takeWhile (· != 0)

theorem visible_of_not_mem {s : Bytes} (h : 0 ∉ s) : visible s = s := by
  refine List.takeWhile_eq_self_iff.mpr ?_
  intro b hb
  have hne : b ≠ 0 := fun heq => h (heq ▸ hb)
  simpa using hne

theorem visible_append {s : Bytes} (h : 0 ∉ s) (rest : Bytes) :
    visible (s ++ rest) = s ++ visible rest := by
  refine List.takeWhile_append_of_pos ?_
  intro b hb
  have hne : b ≠ 0 := fun heq => h (heq ▸ hb)
  simpa using hne

theorem escape_append (q : UInt8) (s s' : Bytes) :
    escape q (s ++ s') = escape q s ++ escape q s' := List.flatMap_append

theorem zero_mem_escape {q : UInt8} (hq : q ≠ 0) {s : Bytes} : 0 ∈ escape q s ↔ 0 ∈ s :=
  QueryText.mem_escape (Ne.symm hq) s

/-- A NUL inside quotes leaves them open, whatever follows it. -/
theorem visible_escape {q : UInt8} (hq : q ≠ 0) {s : Bytes} (h : 0 ∈ s) (rest : Bytes) :
    visible (escape q s ++ rest) = escape q (visible s) :=
  QueryText.takeWhile_escape (Ne.symm hq) h rest

def readMark (b : UInt8) (s : Bytes) : Option Bytes :=
  match skipBlank .code s with
  | [] => none
  | c :: rest => if c = b then some rest else none

/-- Keywords are read without regard to ASCII case. -/
def isWord (keyword : String) (text : Bytes) : Bool :=
  text.map (fun b => if 97 ≤ b && b ≤ 122 then b - 32 else b) == utf8 keyword

def expectWord (keyword : String) (s : Bytes) : Option Bytes :=
  match nextToken s with
  | some (.word text,rest) => if isWord keyword text then some rest else none
  | _ => none

def skipWord (keyword : String) (s : Bytes) : Bytes := (expectWord keyword s).getD s

inductive Command where
  | savepoint (name : Bytes)
  | rollbackTo (name : Bytes)
  | release (name : Bytes)
  | pragma (pragma argument : Bytes)
  deriving DecidableEq, Repr

section Grammar
variable (reserved : Bytes → Bool)

def readPragmaCall (s : Bytes) : Option (Command × Bytes) := do
  let (pragma,s) ← readName reserved s
  let s ← readMark lparen s
  let (argument,s) ← readName reserved s
  let s ← readMark rparen s
  some (.pragma pragma argument,s)

def readCommand (s : Bytes) : Option (Command × Bytes) :=
  match nextToken s with
  | some (.word text,s) =>
    if isWord "SAVEPOINT" text then
      (readName reserved s).map fun r => (.savepoint r.1,r.2)
    else if isWord "RELEASE" text then
      (readName reserved (skipWord "SAVEPOINT" s)).map fun r => (.release r.1,r.2)
    else if isWord "ROLLBACK" text then
      (expectWord "TO" s).bind fun s =>
        (readName reserved (skipWord "SAVEPOINT" s)).map fun r => (.rollbackTo r.1,r.2)
    else if isWord "PRAGMA" text then readPragmaCall reserved s
    else none
  | _ => none

def parseCommand (s : Bytes) : Option Command := do
  let (command,s) ← readCommand reserved (visible s)
  let s ← expect .semicolon s
  if skipBlank .code s = [] then some command else none

end Grammar

section Reading
variable {reserved : Bytes → Bool}

theorem readName_quote (s : Bytes) :
    readName reserved (dquote :: s) = readQuoted dquote s := by
  rw [readName,nextToken_quote (.inl rfl)]
  cases readQuoted dquote s <;> rfl

theorem readName_space (s : Bytes) : readName reserved (space :: s) = readName reserved s := by
  rw [readName,readName,nextToken_space]

theorem readName_word {w : Bytes} (hw : isName reserved w = true) {b : UInt8}
    (hb : isIdChar b = false) (hquote : b ≠ squote) (s : Bytes) :
    readName reserved (w ++ b :: s) = some (w,b :: s) := by
  simp only [isName,Bool.and_eq_true,Bool.not_eq_true'] at hw
  simp only [readName,nextToken_word hw.1 hb hquote,hw.2,Bool.false_eq_true,if_false]

theorem nextToken_word_space {w : Bytes} (hw : isBare w = true) (s : Bytes) :
    nextToken (w ++ space :: s) = some (.word w,space :: s) :=
  nextToken_word hw (by decide) (by decide) s

theorem expectWord_space {keyword : String} {w : Bytes} (hw : isBare w = true)
    (hkeyword : isWord keyword w = true) (s : Bytes) :
    expectWord keyword (space :: (w ++ space :: s)) = some (space :: s) := by
  simp only [expectWord,nextToken_space,nextToken_word_space hw,hkeyword,if_true]

end Reading

/-- What stands around the name in a command, and what is read behind it. -/
structure Frames (reserved : Bytes → Bool) (head tail : Bytes) (command : Bytes → Command)
    (finish : Bytes → Option Bytes) : Prop where
  clean : 0 ∉ head
  whole : 0 ∉ tail
  apart : tail.head? ≠ some dquote
  reads : ∀ s, readCommand reserved (head ++ dquote :: s) =
    (readQuoted dquote s).bind fun r => (finish r.2).map fun s => (command r.1,s)
  closes : finish tail = some [semicolon]

theorem parseCommand_quoted {reserved : Bytes → Bool} {head tail : Bytes}
    {command : Bytes → Command} {finish : Bytes → Option Bytes}
    (h : Frames reserved head tail command finish) (name : Bytes) :
    parseCommand reserved (head ++ dquote :: (escape dquote name ++ dquote :: tail)) =
      if 0 ∈ name then none else some (command name) := by
  have hquote : dquote ≠ 0 := by decide
  have hseen : visible (head ++ dquote :: (escape dquote name ++ dquote :: tail)) =
      head ++ dquote :: visible (escape dquote name ++ dquote :: tail) := by
    rw [visible_append h.clean]
    rfl
  unfold parseCommand
  rw [hseen,h.reads]
  by_cases hnul : 0 ∈ name
  · rw [if_pos hnul,visible_escape hquote hnul,readQuoted_unclosed]
    rfl
  · have hfree : 0 ∉ escape dquote name ++ dquote :: tail := by
      simp only [List.mem_append,List.mem_cons,zero_mem_escape hquote,not_or]
      exact ⟨hnul,Ne.symm hquote,h.whole⟩
    rw [if_neg hnul,visible_of_not_mem hfree,readQuoted_escape h.apart]
    simp only [Option.bind_eq_bind,Option.bind_some,h.closes,Option.map_some]
    rfl

end SqlText

import Xqlite.Lib.QueryText
import Xqlite.Lib.SqlCommand
import Xqlite.PragmaText
import Xqlite.Utf8
set_option autoImplicit false

namespace Xqlite.Quoting
open SqlText
open Pragma (quoteName)

def quoteIdentifier (name : String) : String :=
  String.ofList ('"' :: (QueryText.escape '"' name.toList ++ ['"']))

def savepoint (name : String) : String := "SAVEPOINT " ++ quoteIdentifier name ++ ";"

def rollbackToSavepoint (name : String) : String :=
  "ROLLBACK TO SAVEPOINT " ++ quoteIdentifier name ++ ";"

def releaseSavepoint (name : String) : String :=
  "RELEASE SAVEPOINT " ++ quoteIdentifier name ++ ";"

/-- The schema functions differ in the pragma they ask. -/
inductive SchemaPragma where
  | columns | foreignKeys | indexes | indexColumns
  deriving DecidableEq, Repr

def SchemaPragma.name : SchemaPragma → String
  | .columns => "table_xinfo"
  | .foreignKeys => "foreign_key_list"
  | .indexes => "index_list"
  | .indexColumns => "index_xinfo"

def SchemaPragma.sql (p : SchemaPragma) (name : String) : String :=
  "PRAGMA " ++ p.name ++ "(" ++ quoteIdentifier name ++ ");"

theorem utf8_append (s s' : String) : utf8 (s ++ s') = utf8 s ++ utf8 s' := by
  rw [utf8,String.toList_append,List.flatMap_append]
  rfl

theorem utf8_escape {q : Char} {b : UInt8} (hb : b.toNat < 0x80) (hq : q.toNat = b.toNat)
    (name : List Char) :
    (QueryText.escape q name).flatMap String.utf8EncodeChar =
      escape b (name.flatMap String.utf8EncodeChar) := by
  have hbyte : String.utf8EncodeChar q = [b] := by
    rw [utf8EncodeChar_ascii (by omega),hq,UInt8.ofNat_toNat]
  induction name with
  | nil => rfl
  | cons c name ih =>
    rw [List.flatMap_cons,escape_append]
    by_cases hc : c = q
    · subst hc
      rw [QueryText.escape_cons_self,List.flatMap_cons,List.flatMap_cons,ih,hbyte]
      simp [escape]
    · have hfree : b ∉ String.utf8EncodeChar c := by
        intro hmem
        exact hc (Char.toNat_inj.mp (((mem_utf8EncodeChar hb).mp hmem).trans hq.symm))
      rw [QueryText.escape_cons_ne hc,List.flatMap_cons,ih,escape_of_not_mem hfree]

/-- The Elixir side replaces bytes where the native side replaces characters. -/
theorem utf8_quoteIdentifier (name : String) :
    utf8 (quoteIdentifier name) = quoteName (utf8 name) := by
  have hescape : (QueryText.escape '"' name.toList).flatMap String.utf8EncodeChar =
      escape dquote (utf8 name) := utf8_escape (by decide) (by decide) name.toList
  have hquote : String.utf8EncodeChar '"' = [dquote] := by decide
  rw [utf8,quoteIdentifier,String.toList_ofList,List.flatMap_cons,List.flatMap_append,hescape,
    List.flatMap_singleton,hquote]
  rfl

theorem zero_mem_utf8 (s : String) : 0 ∈ utf8 s ↔ '\x00' ∈ s.toList :=
  mem_flatMap_utf8EncodeChar (by decide) (by decide) s.toList

theorem quoteIdentifier_injective {name name' : String}
    (h : quoteIdentifier name = quoteIdentifier name') : name = name' := by
  have hchars := String.ofList_injective h
  have hescaped := List.append_cancel_right (List.cons.inj hchars).2
  exact String.toList_inj.mp (QueryText.escape_injective hescaped)

/-- The scanner stops behind the closing quote, at whatever SQLite sees there. -/
theorem scan_quoteIdentifier {name : String} (hnul : '\x00' ∉ name.toList) {more : Bytes}
    (hmore : more.head? ≠ some dquote) :
    nextToken (visible (utf8 (quoteIdentifier name) ++ more)) =
      some (.quoted (utf8 name),visible more) := by
  have hfree : 0 ∉ utf8 name := fun hmem => hnul ((zero_mem_utf8 name).mp hmem)
  have hquoted : 0 ∉ quoteName (utf8 name) := by
    simpa [quoteName,dquote,zero_mem_escape (q := 34) (by decide)] using hfree
  have hhead : (visible more).head? ≠ some dquote := by
    cases more with
    | nil => exact hmore
    | cons b more =>
      by_cases hb : b = 0
      · simp [visible,hb]
      · simpa [visible,hb] using hmore
  rw [utf8_quoteIdentifier,visible_append hquoted]
  simpa [quoteName] using nextToken_quoted (.inl rfl) hhead (utf8 name)

section Frames
variable {reserved : Bytes → Bool}

theorem savepoint_frames :
    Frames reserved (utf8 "SAVEPOINT ") (utf8 ";") .savepoint some := by
  refine ⟨by decide,by decide,by decide,?_,rfl⟩
  intro s
  have htext : utf8 "SAVEPOINT " ++ dquote :: s = utf8 "SAVEPOINT" ++ space :: dquote :: s := rfl
  have hbare : isBare (utf8 "SAVEPOINT") = true := by decide
  have hword : isWord "SAVEPOINT" (utf8 "SAVEPOINT") = true := by decide
  simp only [readCommand,htext,nextToken_word_space hbare,hword,if_true,readName_space,
    readName_quote]
  cases readQuoted dquote s <;> rfl

theorem releaseSavepoint_frames :
    Frames reserved (utf8 "RELEASE SAVEPOINT ") (utf8 ";") .release some := by
  refine ⟨by decide,by decide,by decide,?_,rfl⟩
  intro s
  have htext : utf8 "RELEASE SAVEPOINT " ++ dquote :: s =
      utf8 "RELEASE" ++ space :: (utf8 "SAVEPOINT" ++ space :: dquote :: s) := rfl
  have hbare : isBare (utf8 "RELEASE") = true := by decide
  have hother : isWord "SAVEPOINT" (utf8 "RELEASE") = false := by decide
  have hword : isWord "RELEASE" (utf8 "RELEASE") = true := by decide
  have hskip : skipWord "SAVEPOINT" (space :: (utf8 "SAVEPOINT" ++ space :: dquote :: s)) =
      space :: dquote :: s := by
    rw [skipWord,expectWord_space (by decide) (by decide)]
    rfl
  simp only [readCommand,htext,nextToken_word_space hbare,hother,hword,Bool.false_eq_true,if_false,
    if_true,hskip,readName_space,readName_quote]
  cases readQuoted dquote s <;> rfl

theorem rollbackToSavepoint_frames :
    Frames reserved (utf8 "ROLLBACK TO SAVEPOINT ") (utf8 ";") .rollbackTo some := by
  refine ⟨by decide,by decide,by decide,?_,rfl⟩
  intro s
  have htext : utf8 "ROLLBACK TO SAVEPOINT " ++ dquote :: s = utf8 "ROLLBACK" ++ space ::
      (utf8 "TO" ++ space :: (utf8 "SAVEPOINT" ++ space :: dquote :: s)) := rfl
  have hbare : isBare (utf8 "ROLLBACK") = true := by decide
  have hother : isWord "SAVEPOINT" (utf8 "ROLLBACK") = false := by decide
  have hother' : isWord "RELEASE" (utf8 "ROLLBACK") = false := by decide
  have hword : isWord "ROLLBACK" (utf8 "ROLLBACK") = true := by decide
  have hto : ∀ t, expectWord "TO" (space :: (utf8 "TO" ++ space :: t)) = some (space :: t) :=
    expectWord_space (by decide) (by decide)
  have hskip : skipWord "SAVEPOINT" (space :: (utf8 "SAVEPOINT" ++ space :: dquote :: s)) =
      space :: dquote :: s := by
    rw [skipWord,expectWord_space (by decide) (by decide)]
    rfl
  simp only [readCommand,htext,nextToken_word_space hbare,hother,hother',hword,Bool.false_eq_true,
    if_false,if_true,hto,Option.bind_some,hskip,readName_space,readName_quote]
  cases readQuoted dquote s <;> rfl

theorem schemaPragma_frames (p : SchemaPragma) (h : reserved (utf8 p.name) = false) :
    Frames reserved (utf8 ("PRAGMA " ++ p.name ++ "(")) (utf8 ");") (.pragma (utf8 p.name))
      (readMark rparen) := by
  have hbare : isBare (utf8 p.name) = true := by cases p <;> decide
  have hname : isName reserved (utf8 p.name) = true := by rw [isName,hbare,h]; rfl
  refine ⟨by cases p <;> decide,by decide,by decide,?_,rfl⟩
  intro s
  have htext : utf8 ("PRAGMA " ++ p.name ++ "(") ++ dquote :: s =
      utf8 "PRAGMA" ++ space :: (utf8 p.name ++ lparen :: dquote :: s) := by
    cases p <;> rfl
  have hpragma : isBare (utf8 "PRAGMA") = true := by decide
  have hothers : isWord "SAVEPOINT" (utf8 "PRAGMA") = false ∧
      isWord "RELEASE" (utf8 "PRAGMA") = false ∧ isWord "ROLLBACK" (utf8 "PRAGMA") = false := by
    decide
  have hword : isWord "PRAGMA" (utf8 "PRAGMA") = true := by decide
  have hparen : readMark lparen (lparen :: dquote :: s) = some (dquote :: s) := rfl
  simp only [readCommand,htext,nextToken_word_space hpragma,hothers,hword,Bool.false_eq_true,
    if_false,if_true,readPragmaCall,readName_space,
    readName_word hname (show isIdChar lparen = false by decide) (show lparen ≠ squote by decide),
    Option.bind_eq_bind,Option.bind_some,hparen,readName_quote]
  cases readQuoted dquote s with
  | none => rfl
  | some r => cases hclose : readMark rparen r.2 <;> simp [hclose]

theorem parseCommand_quoteIdentifier {head tail : String} {command : Bytes → Command}
    {finish : Bytes → Option Bytes}
    (h : Frames reserved (utf8 head) (utf8 tail) command finish) (name : String) :
    parseCommand reserved (utf8 (head ++ quoteIdentifier name ++ tail)) =
      if '\x00' ∈ name.toList then none else some (command (utf8 name)) := by
  have htext : utf8 (head ++ quoteIdentifier name ++ tail) =
      utf8 head ++ dquote :: (escape dquote (utf8 name) ++ dquote :: utf8 tail) := by
    rw [utf8_append,utf8_append,utf8_quoteIdentifier,quoteName]
    simp
  rw [htext,parseCommand_quoted h]
  simp only [zero_mem_utf8]

end Frames

/-- Every name without a NUL comes back whole out of its quotes, whatever follows them but
another quote. So different names have different quotations, each statement built around
one is that one statement about that name, and both sides of the library quote alike. -/
theorem quoting_round_trip (reserved : Bytes → Bool)
    (hpragmas : ∀ p : SchemaPragma, reserved (utf8 p.name) = false) :
    (∀ name name', quoteIdentifier name = quoteIdentifier name' → name = name') ∧
    (∀ name, utf8 (quoteIdentifier name) = quoteName (utf8 name)) ∧
    ∀ name : String, '\x00' ∉ name.toList →
      (∀ more : Bytes, more.head? ≠ some dquote →
        nextToken (visible (utf8 (quoteIdentifier name) ++ more)) =
          some (.quoted (utf8 name),visible more)) ∧
      parseCommand reserved (utf8 (savepoint name)) = some (.savepoint (utf8 name)) ∧
      parseCommand reserved (utf8 (rollbackToSavepoint name)) = some (.rollbackTo (utf8 name)) ∧
      parseCommand reserved (utf8 (releaseSavepoint name)) = some (.release (utf8 name)) ∧
      ∀ p : SchemaPragma,
        parseCommand reserved (utf8 (p.sql name)) = some (.pragma (utf8 p.name) (utf8 name)) := by
  refine ⟨fun _ _ h => quoteIdentifier_injective h,utf8_quoteIdentifier,?_⟩
  intro name hnul
  refine ⟨fun more hmore => scan_quoteIdentifier hnul hmore,?_,?_,?_,?_⟩
  · exact (parseCommand_quoteIdentifier savepoint_frames name).trans (if_neg hnul)
  · exact (parseCommand_quoteIdentifier rollbackToSavepoint_frames name).trans (if_neg hnul)
  · exact (parseCommand_quoteIdentifier releaseSavepoint_frames name).trans (if_neg hnul)
  · intro p
    exact (parseCommand_quoteIdentifier (schemaPragma_frames p (hpragmas p)) name).trans
      (if_neg hnul)

/-- Quotes at both ends of the name, and a keyword in it. -/
theorem quoting_round_trip_table :
    savepoint "\"; DROP TABLE t; --\"" = "SAVEPOINT \"\"\"; DROP TABLE t; --\"\"\";" ∧
      parseCommand (isWord "TABLE") (utf8 (savepoint "\"; DROP TABLE t; --\"")) =
        some (.savepoint (utf8 "\"; DROP TABLE t; --\"")) := by
  refine ⟨by decide,?_⟩
  have hpragmas : ∀ p : SchemaPragma, isWord "TABLE" (utf8 p.name) = false := by
    intro p
    cases p <;> decide
  exact ((quoting_round_trip (isWord "TABLE") hpragmas).2.2 "\"; DROP TABLE t; --\""
    (by decide)).2.1

end Xqlite.Quoting

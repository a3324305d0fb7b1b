import Mathlib.Data.List.TakeWhile
set_option autoImplicit false

/-! SQL text as SQLite tokenizes it, byte by byte, for the tokens that names, literals
and `name = literal` statements are made of. Any other token is refused. -/

namespace SqlText

abbrev Bytes := List UInt8

def utf8 (s : String) : Bytes := s.toList.flatMap String.utf8EncodeChar

theorem toListLoop_eq (bs : ByteArray) (i : Nat) (r : Bytes) :
    ByteArray.toList.loop bs i r = r.reverse ++ bs.data.toList.drop i := by
  fun_induction ByteArray.toList.loop bs i r with
  | case1 i r h ih =>
    have hi : i < bs.data.toList.length := by simpa using h
    rw [ih,List.drop_eq_getElem_cons hi]
    simp [ByteArray.get!,getElem!_pos,h]
  | case2 i r h =>
    have hi : bs.data.toList.length ≤ i := by simpa using h
    simp [List.drop_eq_nil_of_le hi]

theorem toUTF8_toList (s : String) : s.toUTF8.toList = utf8 s := by
  rw [ByteArray.toList,toListLoop_eq,String.toUTF8,← String.utf8Encode_toList]
  simp [List.utf8Encode,utf8]

def newline : UInt8 := 10
def space : UInt8 := 32
def dquote : UInt8 := 34
def squote : UInt8 := 39
def star : UInt8 := 42
def dash : UInt8 := 45
def dot : UInt8 := 46
def slash : UInt8 := 47
def semicolon : UInt8 := 59
def equals : UInt8 := 61
def greater : UInt8 := 62
def lbracket : UInt8 := 91
def rbracket : UInt8 := 93
def backtick : UInt8 := 96

def isSpace (b : UInt8) : Bool := b == space || b == 9 || b == newline || b == 12 || b == 13

def isLetter (b : UInt8) : Bool := (65 ≤ b && b ≤ 90) || (97 ≤ b && b ≤ 122)

def isDigit (b : UInt8) : Bool := 48 ≤ b && b ≤ 57

def isIdStart (b : UInt8) : Bool := isLetter b || b == 95 || 128 ≤ b

def isIdChar (b : UInt8) : Bool := isIdStart b || isDigit b || b == 36

/-- Where a run of blanks and comments stands; `opened`, `closed` and `mark` have
recognized a sequence of bytes and are about to drop its second one. -/
inductive Mode where
  | code | line | opened | block | closed | mark
  deriving DecidableEq, Repr

/-- The blank or comment that begins with `c`, if one does. A byte order mark is a blank. -/
def blankAt (c : UInt8) (rest : Bytes) : Option Mode :=
  if isSpace c then some .code
  else if c == dash && rest.head? == some dash then some .line
  else if c == slash && rest.head? == some star && 2 ≤ rest.length then some .opened
  else if c == 0xEF && rest.take 2 == [0xBB,0xBF] then some .mark
  else none

/-- Drop blanks and comments. A block comment that is not closed reaches to the end. -/
def skipBlank : Mode → Bytes → Bytes
  | _, [] => []
  | .code, c :: rest =>
      match blankAt c rest with
      | some m => skipBlank m rest
      | none => c :: rest
  | .line, c :: rest => if c == newline then skipBlank .code rest else skipBlank .line rest
  | .opened, _ :: rest => skipBlank .block rest
  | .block, c :: rest =>
      if c == star && rest.head? == some slash then skipBlank .closed rest
      else skipBlank .block rest
  | .closed, _ :: rest => skipBlank .code rest
  | .mark, _ :: rest => skipBlank .closed rest

/-- The rest of a quoted token after its opening quote; a doubled quote stands for one. -/
def readQuoted (q : UInt8) : Bytes → Option (Bytes × Bytes)
  | [] => none
  | [c] => if c = q then some ([],[]) else none
  | c :: c' :: rest =>
      if c = q then
        if c' = q then (readQuoted q rest).map fun r => (q :: r.1,r.2) else some ([],c' :: rest)
      else (readQuoted q (c' :: rest)).map fun r => (c :: r.1,r.2)

def readBracket : Bytes → Option (Bytes × Bytes)
  | [] => none
  | c :: rest =>
      if c = rbracket then some ([],rest) else (readBracket rest).map fun r => (c :: r.1,r.2)

inductive Token where
  | word (text : Bytes)
  | quoted (content : Bytes)
  | number (digits : Bytes)
  | dot | equals | semicolon | minus
  deriving DecidableEq, Repr

/-- `x'…'` is a blob, digits that run into a name are illegal, and a number with a point
is not an integer. -/
def nextToken (s : Bytes) : Option (Token × Bytes) :=
  match skipBlank .code s with
  | [] => none
  | c :: rest =>
    if c == dquote || c == squote || c == backtick then
      (readQuoted c rest).map fun r => (.quoted r.1,r.2)
    else if c == lbracket then (readBracket rest).map fun r => (.quoted r.1,r.2)
    else if isIdStart c then
      if (c == 120 || c == 88) && rest.head? == some squote then none
      else some (.word (c :: rest.takeWhile isIdChar),rest.dropWhile isIdChar)
    else if isDigit c then
      if (rest.dropWhile isDigit).head?.any fun b => isIdChar b || b == dot then none
      else some (.number (c :: rest.takeWhile isDigit),rest.dropWhile isDigit)
    else if c == dot then if rest.head?.any isDigit then none else some (.dot,rest)
    else if c == equals then
      some (.equals,if rest.head? == some equals then rest.tail else rest)
    else if c == semicolon then some (.semicolon,rest)
    else if c == dash && rest.head? != some greater then some (.minus,rest)
    else none

def expect (t : Token) (s : Bytes) : Option Bytes :=
  match nextToken s with
  | some (t',rest) => if t' = t then some rest else none
  | none => none

section Grammar

-- The keywords that SQLite does not take for a name.
variable (reserved : Bytes → Bool)

def readName (s : Bytes) : Option (Bytes × Bytes) :=
  match nextToken s with
  | some (.quoted content,rest) => some (content,rest)
  | some (.word text,rest) => if reserved text then none else some (text,rest)
  | _ => none

def isValueKeyword (text : Bytes) : Bool :=
  [utf8 "ON",utf8 "DELETE",utf8 "DEFAULT"].contains
    (text.map fun b => if 97 ≤ b && b ≤ 122 then b - 32 else b)

inductive Operand where
  | text (content : Bytes)
  | word (text : Bytes)
  | number (negative : Bool) (digits : Bytes)
  deriving DecidableEq, Repr

def readValue (s : Bytes) : Option (Operand × Bytes) :=
  match nextToken s with
  | some (.quoted content,rest) => some (.text content,rest)
  | some (.word text,rest) =>
      if reserved text && !isValueKeyword text then none else some (.word text,rest)
  | some (.number digits,rest) => some (.number false digits,rest)
  | some (.minus,rest) =>
      match nextToken rest with
      | some (.number digits,rest) => some (.number true digits,rest)
      | _ => none
  | _ => none

structure Assignment where
  schema : Bytes
  name : Bytes
  value : Operand
  deriving DecidableEq, Repr

/-- `name = value;` and nothing more. -/
def readSetting (s : Bytes) : Option (Bytes × Operand) := do
  let (name,s) ← readName reserved s
  let s ← expect .equals s
  let (value,s) ← readValue reserved s
  let s ← expect .semicolon s
  if skipBlank .code s = [] then some (name,value) else none

/-- The text is one statement `PRAGMA schema.name = value;`. -/
def parsePragma (s : Bytes) : Option Assignment := do
  let s ← expect (.word (utf8 "PRAGMA")) s
  let (schema,s) ← readName reserved s
  let s ← expect .dot s
  let (name,value) ← readSetting reserved s
  some ⟨schema,name,value⟩

end Grammar

theorem skipBlank_blank {c : UInt8} {rest : Bytes} {m : Mode} (h : blankAt c rest = some m) :
    skipBlank .code (c :: rest) = skipBlank m rest := by
  simp only [skipBlank,h]

theorem skipBlank_stop {c : UInt8} {rest : Bytes} (h : blankAt c rest = none) :
    skipBlank .code (c :: rest) = c :: rest := by
  simp only [skipBlank,h]

theorem skipBlank_cons (m : Mode) (c : UInt8) (rest : Bytes) :
    (∃ m', skipBlank m (c :: rest) = skipBlank m' rest) ∨
      (skipBlank m (c :: rest) = c :: rest ∧ blankAt c rest = none) := by
  cases m with
  | code =>
    cases h : blankAt c rest with
    | none => exact .inr ⟨skipBlank_stop h,rfl⟩
    | some m' => exact .inl ⟨m',skipBlank_blank h⟩
  | line =>
    by_cases h : (c == newline) = true
    · exact .inl ⟨.code,by simp only [skipBlank,h,if_true]⟩
    · exact .inl ⟨.line,if_neg h⟩
  | block =>
    by_cases h : (c == star && rest.head? == some slash) = true
    · exact .inl ⟨.closed,by simp only [skipBlank,h,if_true]⟩
    · exact .inl ⟨.block,if_neg h⟩
  | opened => exact .inl ⟨.block,rfl⟩
  | closed => exact .inl ⟨.code,rfl⟩
  | mark => exact .inl ⟨.closed,rfl⟩

theorem skipBlank_suffix (m : Mode) (s : Bytes) : skipBlank m s <:+ s := by
  induction s generalizing m with
  | nil => cases m <;> exact List.suffix_refl _
  | cons c rest ih =>
    rcases skipBlank_cons m c rest with ⟨m',h⟩ | ⟨h,_⟩
    · rw [h]
      exact (ih m').trans (List.suffix_cons c rest)
    · exact ⟨[],by rw [List.nil_append,h]⟩

theorem blankAt_of_skipBlank {m : Mode} {s rest : Bytes} {c : UInt8}
    (h : skipBlank m s = c :: rest) : blankAt c rest = none := by
  induction s generalizing m with
  | nil => cases m <;> cases h
  | cons c' s ih =>
    rcases skipBlank_cons m c' s with ⟨m',hskip⟩ | ⟨hskip,hnone⟩
    · rw [hskip] at h
      exact ih h
    · rw [hskip] at h
      obtain ⟨rfl,rfl⟩ := List.cons.inj h
      exact hnone

@[simp] theorem skipBlank_space (s : Bytes) :
    skipBlank .code (space :: s) = skipBlank .code s :=
  skipBlank_blank rfl

@[simp] theorem nextToken_space (s : Bytes) : nextToken (space :: s) = nextToken s := by
  simp only [nextToken,skipBlank_space]

theorem readQuoted_length {q : UInt8} {s content rest : Bytes}
    (h : readQuoted q s = some (content,rest)) :
    rest <:+ s ∧ s.length = content.length + content.count q + 1 + rest.length := by
  induction s using readQuoted.induct q generalizing content rest with
  | case1 => cases h
  | case2 =>
    simp only [readQuoted,if_true,Option.some.injEq,Prod.mk.injEq] at h
    obtain ⟨rfl,rfl⟩ := h
    exact ⟨List.nil_suffix,rfl⟩
  | case3 c hc => simp [readQuoted,hc] at h
  | case4 more ih =>
    simp only [readQuoted,if_true,Option.map_eq_some_iff] at h
    obtain ⟨⟨content',rest'⟩,hr,heq⟩ := h
    obtain ⟨rfl,rfl⟩ := Prod.mk.inj heq
    obtain ⟨hsuf,hlen⟩ := ih hr
    refine ⟨(hsuf.trans (List.suffix_cons _ _)).trans (List.suffix_cons _ _),?_⟩
    simp only [List.length_cons,List.count_cons_self]
    omega
  | case5 c' more hc' =>
    simp only [readQuoted,if_true,hc',if_false,Option.some.injEq,Prod.mk.injEq] at h
    obtain ⟨rfl,rfl⟩ := h
    refine ⟨List.suffix_cons _ _,?_⟩
    simp only [List.length_cons,List.length_nil,List.count_nil]
    omega
  | case6 c c' more hc ih =>
    simp only [readQuoted,hc,if_false,Option.map_eq_some_iff] at h
    obtain ⟨⟨content',rest'⟩,hr,heq⟩ := h
    obtain ⟨rfl,rfl⟩ := Prod.mk.inj heq
    obtain ⟨hsuf,hlen⟩ := ih hr
    refine ⟨hsuf.trans (List.suffix_cons _ _),?_⟩
    rw [List.count_cons_of_ne hc]
    simp only [List.length_cons] at hlen ⊢
    omega

theorem readBracket_length {s content rest : Bytes} (h : readBracket s = some (content,rest)) :
    rest <:+ s ∧ s.length = content.length + 1 + rest.length := by
  induction s generalizing content rest with
  | nil => cases h
  | cons c s ih =>
    by_cases hc : c = rbracket
    · simp only [readBracket,hc,if_true,Option.some.injEq,Prod.mk.injEq] at h
      obtain ⟨rfl,rfl⟩ := h
      exact ⟨List.suffix_cons _ _,by simp only [List.length_cons,List.length_nil]; omega⟩
    · simp only [readBracket,hc,if_false,Option.map_eq_some_iff] at h
      obtain ⟨⟨content',rest'⟩,hr,heq⟩ := h
      obtain ⟨rfl,rfl⟩ := Prod.mk.inj heq
      obtain ⟨hsuf,hlen⟩ := ih hr
      exact ⟨hsuf.trans (List.suffix_cons _ _),by simp only [List.length_cons]; omega⟩

def Token.cost : Token → Nat
  | .word text => text.length
  | .quoted content => content.length + 2
  | .number digits => digits.length
  | _ => 1

def isBare : Bytes → Bool
  | [] => false
  | c :: rest => isIdStart c && rest.all isIdChar && (blankAt c rest).isNone

def Token.Formed : Token → Prop
  | .word text => isBare text = true
  | .number digits => digits ≠ [] ∧ ∀ b ∈ digits, isDigit b = true
  | _ => True

theorem blankAt_idStart {c : UInt8} (h : isIdStart c = true) (rest : Bytes) :
    blankAt c rest = if c == 0xEF && rest.take 2 == [0xBB,0xBF] then some .mark else none := by
  have hspace : isSpace c = false := by
    simp only [isIdStart,isLetter,isSpace,space,newline] at h ⊢
    grind
  have hdash : (c == dash) = false := by
    simp only [isIdStart,isLetter,dash] at h ⊢
    grind
  have hslash : (c == slash) = false := by
    simp only [isIdStart,isLetter,slash] at h ⊢
    grind
  simp [blankAt,hspace,hdash,hslash]

theorem take_two_of_prefix {l s : Bytes} {a b : UInt8} (h : l <+: s) (hl : l.take 2 = [a,b]) :
    s.take 2 = [a,b] := by
  obtain ⟨tail,rfl⟩ := h
  have hlen : 2 ≤ l.length := by
    have hlen := congrArg List.length hl
    simp only [List.length_take,List.length_cons,List.length_nil] at hlen
    omega
  rw [List.take_append_of_le_length hlen,hl]

theorem isBare_word {c : UInt8} {rest : Bytes} (hc : isIdStart c = true)
    (hblank : blankAt c rest = none) : isBare (c :: rest.takeWhile isIdChar) = true := by
  have hall : (rest.takeWhile isIdChar).all isIdChar = true :=
    List.all_eq_true.mpr fun b hb => List.mem_takeWhile_imp hb
  have hmark : blankAt c (rest.takeWhile isIdChar) = none := by
    rw [blankAt_idStart hc] at hblank ⊢
    split_ifs with h
    · simp only [Bool.and_eq_true,beq_iff_eq] at h
      have htake := take_two_of_prefix (List.takeWhile_prefix isIdChar) h.2
      simp [h.1,htake] at hblank
    · rfl
  simp [isBare,hc,hall,hmark]

theorem length_dropWhile (p : UInt8 → Bool) (s : Bytes) :
    (s.takeWhile p).length + (s.dropWhile p).length = s.length := by
  rw [← List.length_append,List.takeWhile_append_dropWhile]

theorem nextToken_spec {s rest : Bytes} {t : Token} (h : nextToken s = some (t,rest)) :
    rest <:+ s ∧ t.cost + rest.length ≤ s.length ∧ t.Formed := by
  have hskip := skipBlank_suffix .code s
  unfold nextToken at h
  cases hs : skipBlank .code s with
  | nil => simp [hs] at h
  | cons c more =>
    rw [hs] at h hskip
    have hlen : more.length + 1 ≤ s.length := hskip.length_le
    have hmore : more <:+ s := (List.suffix_cons c more).trans hskip
    have hdrop : ∀ p : UInt8 → Bool, more.dropWhile p <:+ s := fun p =>
      (List.dropWhile_suffix p).trans hmore
    have hmark : ∀ {t' : Token}, some (t',more) = some (t,rest) → t'.cost ≤ 1 → t'.Formed →
        rest <:+ s ∧ t.cost + rest.length ≤ s.length ∧ t.Formed := by
      intro t' heq hcost hformed
      obtain ⟨rfl,rfl⟩ := Prod.mk.inj (Option.some.inj heq)
      exact ⟨hmore,by omega,hformed⟩
    simp only at h
    by_cases hquote : (c == dquote || c == squote || c == backtick) = true
    · rw [if_pos hquote] at h
      obtain ⟨⟨content,rest'⟩,hr,heq⟩ := Option.map_eq_some_iff.mp h
      obtain ⟨rfl,rfl⟩ := Prod.mk.inj heq
      obtain ⟨hsuf,hread⟩ := readQuoted_length hr
      exact ⟨hsuf.trans hmore,by simp only [Token.cost]; omega,trivial⟩
    rw [if_neg hquote] at h
    by_cases hbracket : (c == lbracket) = true
    · rw [if_pos hbracket] at h
      obtain ⟨⟨content,rest'⟩,hr,heq⟩ := Option.map_eq_some_iff.mp h
      obtain ⟨rfl,rfl⟩ := Prod.mk.inj heq
      obtain ⟨hsuf,hread⟩ := readBracket_length hr
      exact ⟨hsuf.trans hmore,by simp only [Token.cost]; omega,trivial⟩
    rw [if_neg hbracket] at h
    by_cases hid : isIdStart c = true
    · rw [if_pos hid] at h
      split at h
      · cases h
      · obtain ⟨rfl,rfl⟩ := Prod.mk.inj (Option.some.inj h)
        have hsplit := length_dropWhile isIdChar more
        refine ⟨hdrop _,?_,isBare_word hid (blankAt_of_skipBlank hs)⟩
        simp only [Token.cost,List.length_cons]
        omega
    rw [if_neg hid] at h
    by_cases hdigit : isDigit c = true
    · rw [if_pos hdigit] at h
      split at h
      · cases h
      · obtain ⟨rfl,rfl⟩ := Prod.mk.inj (Option.some.inj h)
        have hsplit := length_dropWhile isDigit more
        refine ⟨hdrop _,?_,List.cons_ne_nil _ _,?_⟩
        · simp only [Token.cost,List.length_cons]
          omega
        · intro b hb
          rcases List.mem_cons.mp hb with rfl | hb
          · exact hdigit
          · exact List.mem_takeWhile_imp hb
    rw [if_neg hdigit] at h
    by_cases hdot : (c == dot) = true
    · rw [if_pos hdot] at h
      split at h
      · cases h
      · exact hmark h (Nat.le_refl 1) trivial
    rw [if_neg hdot] at h
    by_cases hequals : (c == equals) = true
    · rw [if_pos hequals] at h
      split at h
      · obtain ⟨rfl,rfl⟩ := Prod.mk.inj (Option.some.inj h)
        refine ⟨(List.tail_suffix more).trans hmore,?_,trivial⟩
        simp only [Token.cost,List.length_tail]
        omega
      · exact hmark h (Nat.le_refl 1) trivial
    rw [if_neg hequals] at h
    by_cases hsemi : (c == semicolon) = true
    · rw [if_pos hsemi] at h
      exact hmark h (Nat.le_refl 1) trivial
    rw [if_neg hsemi] at h
    split at h
    · exact hmark h (Nat.le_refl 1) trivial
    · cases h

def escape (q : UInt8) (s : Bytes) : Bytes := s.flatMap fun c => if c = q then [q,q] else [c]

theorem escape_of_not_mem {q : UInt8} {s : Bytes} (h : q ∉ s) : escape q s = s := by
  induction s with
  | nil => rfl
  | cons c s ih =>
    simp only [List.mem_cons,not_or] at h
    have hc : c ≠ q := Ne.symm h.1
    have hs := ih h.2
    simp only [escape] at hs ⊢
    simp [hc,hs]

/-- A quote behind the closing one would be read as doubled. -/
theorem readQuoted_escape {q : UInt8} {rest : Bytes} (h : rest.head? ≠ some q) (s : Bytes) :
    readQuoted q (escape q s ++ q :: rest) = some (s,rest) := by
  induction s with
  | nil =>
    cases rest with
    | nil => simp [escape,readQuoted]
    | cons b rest =>
      have hb : b ≠ q := by simpa using h
      simp [escape,readQuoted,hb]
  | cons c s ih =>
    have hcons : escape q (c :: s) = (if c = q then [q,q] else [c]) ++ escape q s := rfl
    rw [hcons]
    by_cases hc : c = q
    · simp [hc,readQuoted,ih]
    · cases hs : escape q s ++ q :: rest with
      | nil => simp at hs
      | cons c' more =>
        rw [hs] at ih
        simp [hc,hs,readQuoted,ih]

theorem readQuoted_unclosed (q : UInt8) (s : Bytes) : readQuoted q (escape q s) = none := by
  induction s with
  | nil => rfl
  | cons c s ih =>
    have hcons : escape q (c :: s) = (if c = q then [q,q] else [c]) ++ escape q s := rfl
    rw [hcons]
    by_cases hc : c = q
    · simp [hc,readQuoted,ih]
    · cases hs : escape q s with
      | nil => simp [hc,readQuoted]
      | cons c' more =>
        rw [hs] at ih
        simp [hc,readQuoted,ih]

theorem nextToken_quote {q : UInt8} (hq : q = dquote ∨ q = squote) (s : Bytes) :
    nextToken (q :: s) = (readQuoted q s).map fun r => (.quoted r.1,r.2) := by
  have hblank : ∀ more, blankAt q more = none := by
    intro more
    rcases hq with rfl | rfl <;> rfl
  have hquote : (q == dquote || q == squote || q == backtick) = true := by
    rcases hq with rfl | rfl <;> rfl
  simp only [nextToken,skipBlank_stop (hblank _),hquote,if_true]

theorem nextToken_quoted {q : UInt8} (hq : q = dquote ∨ q = squote) {rest : Bytes}
    (h : rest.head? ≠ some q) (s : Bytes) :
    nextToken (q :: (escape q s ++ q :: rest)) = some (.quoted s,rest) := by
  rw [nextToken_quote hq,readQuoted_escape h]
  rfl

theorem blankAt_append {c b : UInt8} {w : Bytes} (hc : isIdStart c = true)
    (h : blankAt c w = none) (hb : isIdChar b = false) (rest : Bytes) :
    blankAt c (w ++ b :: rest) = none := by
  rw [blankAt_idStart hc] at h ⊢
  split_ifs with hmark
  · simp only [Bool.and_eq_true,beq_iff_eq] at hmark
    obtain ⟨hef,htake⟩ := hmark
    match w, h, htake with
    | [], _, htake =>
      obtain ⟨rfl,_⟩ := List.cons.inj htake
      exact absurd hb (by decide)
    | [x], _, htake =>
      obtain ⟨_,htail⟩ := List.cons.inj htake
      obtain ⟨rfl,_⟩ := List.cons.inj htail
      exact absurd hb (by decide)
    | x :: y :: w, h, htake =>
      have hsame : (x :: y :: w).take 2 = [0xBB,0xBF] := htake
      simp [hef,hsame] at h
  · rfl

theorem nextToken_word {w : Bytes} (hw : isBare w = true) {b : UInt8} (hb : isIdChar b = false)
    (hquote : b ≠ squote) (rest : Bytes) :
    nextToken (w ++ b :: rest) = some (.word w,b :: rest) := by
  cases w with
  | nil => cases hw
  | cons c w =>
    simp only [isBare,Bool.and_eq_true,Option.isNone_iff_eq_none] at hw
    obtain ⟨⟨hc,hall⟩,hblank⟩ := hw
    have hall' : ∀ a ∈ w, isIdChar a = true := List.all_eq_true.mp hall
    have hq : (c == dquote || c == squote || c == backtick) = false := by
      simp only [isIdStart,isLetter,dquote,squote,backtick] at hc ⊢
      grind
    have hbr : (c == lbracket) = false := by
      simp only [isIdStart,isLetter,lbracket] at hc ⊢
      grind
    have hhead : ((w ++ b :: rest).head? == some squote) = false := by
      cases w with
      | nil => simpa using hquote
      | cons a w =>
        have ha : a ≠ squote := by
          rintro rfl
          exact absurd (hall' squote (by simp)) (by decide)
        simpa using ha
    have htake : (w ++ b :: rest).takeWhile isIdChar = w := by
      rw [List.takeWhile_append_of_pos hall']
      simp [hb]
    have hdrop : (w ++ b :: rest).dropWhile isIdChar = b :: rest := by
      rw [List.dropWhile_append_of_pos hall']
      simp [hb]
    rw [List.cons_append]
    simp only [nextToken,skipBlank_stop (blankAt_append hc hblank hb rest),hq,hbr,hc,htake,hdrop,
      hhead,Bool.and_false,Bool.false_eq_true,if_false,if_true]

theorem blankAt_digit {c : UInt8} (h : isDigit c = true) (rest : Bytes) : blankAt c rest = none := by
  have hspace : isSpace c = false := by
    simp only [isDigit,isSpace,space,newline] at h ⊢
    grind
  have hother : (c == dash) = false ∧ (c == slash) = false ∧ (c == 0xEF) = false := by
    simp only [isDigit,dash,slash] at h ⊢
    grind
  simp [blankAt,hspace,hother]

theorem nextToken_number {ds : Bytes} (hne : ds ≠ []) (hds : ∀ d ∈ ds, isDigit d = true) {b : UInt8}
    (hb : isIdChar b = false) (hdot : b ≠ dot) (rest : Bytes) :
    nextToken (ds ++ b :: rest) = some (.number ds,b :: rest) := by
  cases ds with
  | nil => exact absurd rfl hne
  | cons c ds =>
    have hc : isDigit c = true := hds c (by simp)
    have hall : ∀ a ∈ ds, isDigit a = true := fun a ha => hds a (by simp [ha])
    have hbd : isDigit b = false := by
      simp only [isIdChar,Bool.or_eq_false_iff] at hb
      exact hb.1.2
    have hq : (c == dquote || c == squote || c == backtick) = false ∧ (c == lbracket) = false ∧
        isIdStart c = false := by
      simp only [isDigit,isIdStart,isLetter,dquote,squote,backtick,lbracket] at hc ⊢
      grind
    have htake : (ds ++ b :: rest).takeWhile isDigit = ds := by
      rw [List.takeWhile_append_of_pos hall]
      simp [hbd]
    have hdrop : (ds ++ b :: rest).dropWhile isDigit = b :: rest := by
      rw [List.dropWhile_append_of_pos hall]
      simp [hbd]
    rw [List.cons_append]
    simp only [nextToken,skipBlank_stop (blankAt_digit hc _),hq,hc,htake,hdrop]
    simp [hb,hdot]

theorem nextToken_minus {d : UInt8} (hd : isDigit d = true) (rest : Bytes) :
    nextToken (dash :: d :: rest) = some (.minus,d :: rest) := by
  have hne : d ≠ dash ∧ d ≠ greater := by
    simp only [isDigit,dash,greater] at hd ⊢
    grind
  have hblank : blankAt dash (d :: rest) = none := by
    have hmark : (dash == 0xEF) = false := rfl
    have hslash : (dash == slash) = false := rfl
    have hspace : isSpace dash = false := rfl
    simp [blankAt,hmark,hslash,hspace,hne.1]
  simp only [nextToken,skipBlank_stop hblank]
  simp [dash,dquote,squote,backtick,lbracket,isIdStart,isLetter,isDigit,dot,equals,semicolon,hne.2]

section Setting

variable (reserved : Bytes → Bool)

def Operand.render : Operand → Bytes
  | .text content => squote :: content ++ [squote]
  | .word w => w
  | .number negative digits => if negative then dash :: digits else digits

/-- The value reads back from what `render` writes. -/
def Operand.fits : Operand → Bool
  | .text content => !content.contains squote
  | .word w => isBare w && (!reserved w || isValueKeyword w)
  | .number _ digits => !digits.isEmpty && digits.all isDigit

def isName (text : Bytes) : Bool := isBare text && !reserved text

variable {reserved}

theorem readName_cost {s name rest : Bytes} (h : readName reserved s = some (name,rest)) :
    rest <:+ s ∧ (isName reserved name = true ∧ name.length + rest.length ≤ s.length ∨
      name.length + 2 + rest.length ≤ s.length) := by
  unfold readName at h
  cases ht : nextToken s with
  | none => simp [ht] at h
  | some r =>
    obtain ⟨t,more⟩ := r
    obtain ⟨hsuf,hcost,hformed⟩ := nextToken_spec ht
    rw [ht] at h
    cases t with
    | quoted content =>
      obtain ⟨rfl,rfl⟩ := Prod.mk.inj (Option.some.inj h)
      exact ⟨hsuf,.inr hcost⟩
    | word text =>
      simp only at h
      split_ifs at h with hres
      obtain ⟨rfl,rfl⟩ := Prod.mk.inj (Option.some.inj h)
      have hbare : isBare text = true := hformed
      exact ⟨hsuf,.inl ⟨by simp [isName,hbare,hres],hcost⟩⟩
    | _ => cases h

/-- A value is read from no fewer bytes than it is written with, and only text may fail to
be written as it was read. -/
theorem readValue_cost {s rest : Bytes} {v : Operand} (h : readValue reserved s = some (v,rest)) :
    rest <:+ s ∧ v.render.length + rest.length ≤ s.length ∧
      ((∃ content, v = .text content) ∨ v.fits reserved = true) := by
  unfold readValue at h
  cases ht : nextToken s with
  | none => simp [ht] at h
  | some r =>
    obtain ⟨t,more⟩ := r
    obtain ⟨hsuf,hcost,hformed⟩ := nextToken_spec ht
    rw [ht] at h
    cases t with
    | quoted content =>
      obtain ⟨rfl,rfl⟩ := Prod.mk.inj (Option.some.inj h)
      refine ⟨hsuf,?_,.inl ⟨content,rfl⟩⟩
      simp only [Token.cost,Operand.render,List.length_append,List.length_cons,
        List.length_nil] at hcost ⊢
      omega
    | word text =>
      simp only at h
      split_ifs at h with hres
      obtain ⟨rfl,rfl⟩ := Prod.mk.inj (Option.some.inj h)
      have hbare : isBare text = true := hformed
      refine ⟨hsuf,hcost,.inr ?_⟩
      cases hr : reserved text <;> simp_all [Operand.fits]
    | number digits =>
      obtain ⟨rfl,rfl⟩ := Prod.mk.inj (Option.some.inj h)
      exact ⟨hsuf,hcost,.inr (by simpa [Operand.fits,Token.Formed] using hformed)⟩
    | minus =>
      simp only at h
      cases ht' : nextToken more with
      | none => simp [ht'] at h
      | some r' =>
        obtain ⟨t',more'⟩ := r'
        obtain ⟨hsuf',hcost',hformed'⟩ := nextToken_spec ht'
        rw [ht'] at h
        cases t' with
        | number digits =>
          obtain ⟨rfl,rfl⟩ := Prod.mk.inj (Option.some.inj h)
          refine ⟨hsuf'.trans hsuf,?_,.inr (by simpa [Operand.fits,Token.Formed] using hformed')⟩
          simp only [Token.cost,Operand.render,if_true,List.length_cons] at hcost hcost' ⊢
          omega
        | _ => cases h
    | _ => cases h

theorem expect_cost {t : Token} {s rest : Bytes} (h : expect t s = some rest) :
    rest <:+ s ∧ t.cost + rest.length ≤ s.length := by
  unfold expect at h
  cases ht : nextToken s with
  | none => simp [ht] at h
  | some r =>
    obtain ⟨t',more⟩ := r
    obtain ⟨hsuf,hcost,_⟩ := nextToken_spec ht
    simp only [ht] at h
    split_ifs at h with hsame
    obtain rfl := Option.some.inj h
    exact ⟨hsuf,hsame ▸ hcost⟩

theorem readValue_render {v : Operand} (hv : v.fits reserved = true) :
    readValue reserved (space :: (v.render ++ [semicolon])) = some (v,[semicolon]) := by
  have hsemi : isIdChar semicolon = false ∧ semicolon ≠ squote ∧ semicolon ≠ dot := by decide
  unfold readValue
  rw [nextToken_space]
  cases v with
  | text content =>
    have hmem : squote ∉ content := by simpa [Operand.fits] using hv
    have hrest : [semicolon].head? ≠ some squote := by decide
    have htoken := nextToken_quoted (.inr rfl) hrest content
    rw [escape_of_not_mem hmem] at htoken
    simp only [Operand.render,List.cons_append,List.append_assoc,List.nil_append] at htoken ⊢
    rw [htoken]
  | word w =>
    simp only [Operand.fits,Bool.and_eq_true] at hv
    rw [Operand.render,nextToken_word hv.1 hsemi.1 hsemi.2.1]
    have hallowed : (reserved w && !isValueKeyword w) = false := by
      cases hr : reserved w <;> simp_all
    simp only [hallowed,Bool.false_eq_true,if_false]
  | number negative digits =>
    simp only [Operand.fits,Bool.and_eq_true,Bool.not_eq_true',List.isEmpty_eq_false_iff,
      List.all_eq_true] at hv
    have htoken := nextToken_number hv.1 hv.2 hsemi.1 hsemi.2.2 []
    cases negative with
    | false =>
      simp only [Operand.render,Bool.false_eq_true,if_false]
      rw [htoken]
    | true =>
      cases digits with
      | nil => exact absurd rfl hv.1
      | cons d digits =>
        simp only [Operand.render,if_true,List.cons_append] at htoken ⊢
        rw [nextToken_minus (hv.2 d (by simp))]
        simp only [htoken]

/-- Text that was read back has no quote in it: each one would have cost a byte more. -/
theorem not_mem_of_readValue {content rest : Bytes}
    (h : readValue reserved (space :: ((Operand.text content).render ++ [semicolon])) =
      some (.text content,rest)) (hrest : 1 ≤ rest.length) : squote ∉ content := by
  have htoken : nextToken ((Operand.text content).render ++ [semicolon]) =
      (readQuoted squote (content ++ [squote] ++ [semicolon])).map fun r => (.quoted r.1,r.2) := by
    have hblank : blankAt squote (content ++ [squote] ++ [semicolon]) = none := rfl
    simp only [nextToken,Operand.render,List.cons_append,skipBlank_stop hblank]
    rfl
  unfold readValue at h
  rw [nextToken_space,htoken] at h
  cases hr : readQuoted squote (content ++ [squote] ++ [semicolon]) with
  | none =>
    rw [hr] at h
    cases h
  | some r =>
    obtain ⟨content',rest'⟩ := r
    obtain ⟨_,hlen⟩ := readQuoted_length hr
    simp only [hr,Option.map_some,Option.some.injEq,Prod.mk.injEq,Operand.text.injEq] at h
    obtain ⟨rfl,rfl⟩ := h
    simp only [List.length_append,List.length_cons,List.length_nil] at hlen
    exact List.count_eq_zero.mp (by omega)

/-- A name that had to be quoted leaves too few bytes for the rest of the setting. -/
theorem no_room_for_quotes {name s₁ s₂ : Bytes} {n : Nat} {more : Bytes}
    (hsuf : s₁ <:+ name ++ space :: equals :: space :: more) (hmore : more.length = n + 1)
    (hcost : name.length + 2 + s₁.length ≤ (name ++ space :: equals :: space :: more).length)
    (hequals : expect .equals s₁ = some s₂) (hrest : n + 1 ≤ s₂.length) : False := by
  have hlen := (expect_cost hequals).2
  simp only [Token.cost,List.length_append,List.length_cons] at hcost hlen
  have hsame : s₁ = space :: more := by
    have hsuf' : space :: more <:+ name ++ space :: equals :: space :: more := by
      refine List.IsSuffix.trans ?_ (List.suffix_append name _)
      exact (List.suffix_cons _ _).trans (List.suffix_cons _ _)
    have hlen' : s₁.length = (space :: more).length := by
      simp only [List.length_cons]
      omega
    exact (List.suffix_of_suffix_length_le hsuf hsuf' (by omega)).eq_of_length hlen'
  have hskip : expect .equals more = some s₂ := by
    rw [hsame,expect,nextToken_space] at hequals
    exact hequals
  have hlen' := (expect_cost hskip).2
  simp only [Token.cost] at hlen'
  omega

/-- Written out with single blanks, a setting reads back exactly when its name is a bare
name and its value fits. -/
theorem readSetting_iff (name : Bytes) (v : Operand) :
    readSetting reserved (name ++ space :: equals :: space :: (v.render ++ [semicolon])) =
        some (name,v) ↔
      isName reserved name = true ∧ v.fits reserved = true := by
  have hequals : ∀ s, expect .equals (space :: equals :: space :: s) = some (space :: s) := by
    intro s
    rw [expect,nextToken_space]
    rfl
  have hsemi : expect .semicolon [semicolon] = some [] := rfl
  constructor
  · intro h
    simp only [readSetting,Option.bind_eq_bind,Option.bind_eq_some_iff] at h
    obtain ⟨⟨name',s₁⟩,hname,s₂,hequals',⟨v',s₃⟩,hvalue,s₄,hsemi',hend⟩ := h
    simp only at hequals' hsemi' hend
    split_ifs at hend with hblank
    obtain ⟨hn,hv⟩ := Prod.mk.inj (Option.some.inj hend)
    rw [hn] at hname
    rw [hv] at hvalue
    obtain ⟨hsuf₁,hcost₁⟩ := readName_cost hname
    obtain ⟨hsuf₂,hcost₂⟩ := expect_cost hequals'
    obtain ⟨hsuf₃,hcost₃,hfits⟩ := readValue_cost hvalue
    obtain ⟨hsuf₄,hcost₄⟩ := expect_cost hsemi'
    simp only [Token.cost] at hcost₄
    rcases hcost₁ with ⟨hbare,_⟩ | hquoted
    · refine ⟨hbare,?_⟩
      have hparts := hbare
      simp only [isName,Bool.and_eq_true,Bool.not_eq_true'] at hparts
      have htoken := nextToken_word hparts.1 (b := space) (by decide) (by decide)
        (equals :: space :: (v.render ++ [semicolon]))
      simp only [readName,htoken,hparts.2,Bool.false_eq_true,if_false,Option.some.injEq,
        Prod.mk.injEq,true_and] at hname
      subst hname
      rw [hequals,Option.some.injEq] at hequals'
      subst hequals'
      rcases hfits with ⟨content,rfl⟩ | hfits
      · simpa [Operand.fits] using not_mem_of_readValue hvalue (by omega)
      · exact hfits
    · exact (no_room_for_quotes hsuf₁ (n := v.render.length) (by simp) hquoted hequals'
        (by omega)).elim
  · rintro ⟨hname,hv⟩
    simp only [isName,Bool.and_eq_true,Bool.not_eq_true'] at hname
    have htoken := nextToken_word hname.1 (b := space) (by decide) (by decide)
      (equals :: space :: (v.render ++ [semicolon]))
    simp [readSetting,readName,htoken,hname.2,hequals,readValue_render hv,hsemi,skipBlank]

/-- The statement up to the dot reads as it was meant, whatever the schema's name is. A
digit after the dot would make a number of both. -/
theorem parsePragma_schema (schema s : Bytes) :
    parsePragma reserved (utf8 "PRAGMA" ++ space :: dquote ::
        (escape dquote schema ++ dquote :: dot :: s)) =
      if s.head?.any isDigit then none
      else (readSetting reserved s).map fun r => ⟨schema,r.1,r.2⟩ := by
  have hword : expect (.word (utf8 "PRAGMA")) (utf8 "PRAGMA" ++ space :: dquote ::
      (escape dquote schema ++ dquote :: dot :: s)) =
        some (space :: dquote :: (escape dquote schema ++ dquote :: dot :: s)) := by
    rw [expect,nextToken_word (by decide) (by decide) (by decide)]
    exact if_pos rfl
  have hschema : readName reserved (space :: dquote ::
      (escape dquote schema ++ dquote :: dot :: s)) = some (schema,dot :: s) := by
    rw [readName,nextToken_space,nextToken_quoted (.inl rfl) (by simp [dot,dquote])]
  have hdot : expect .dot (dot :: s) = if s.head?.any isDigit then none else some s := by
    have htoken : nextToken (dot :: s) = if s.head?.any isDigit then none else some (.dot,s) := by
      simp only [nextToken,skipBlank_stop (show blankAt dot s = none from rfl)]
      rfl
    rw [expect,htoken]
    split_ifs <;> rfl
  simp only [parsePragma,hword,hschema,hdot,Option.bind_eq_bind,Option.bind_some]
  split_ifs with hdigit
  · rfl
  · rw [Option.bind_some]
    cases readSetting reserved s <;> rfl

theorem parsePragma_iff (schema name : Bytes) (v : Operand) :
    parsePragma reserved (utf8 "PRAGMA" ++ space :: dquote :: (escape dquote schema ++ dquote ::
        dot :: (name ++ space :: equals :: space :: (v.render ++ [semicolon])))) =
        some ⟨schema,name,v⟩ ↔
      isName reserved name = true ∧ v.fits reserved = true := by
  rw [parsePragma_schema,← readSetting_iff]
  split_ifs with hdigit
  · simp only [false_iff]
    intro hread
    have hname := ((readSetting_iff name v).mp hread).1
    cases name with
    | nil => cases hname
    | cons c name =>
      simp only [isName,isBare,Bool.and_eq_true] at hname
      have hstart := hname.1.1.1
      have hdigit' : isDigit c = true := by simpa using hdigit
      simp only [isIdStart,isLetter,isDigit] at hstart hdigit'
      grind
  · constructor
    · intro h
      obtain ⟨⟨name',v'⟩,hread,heq⟩ := Option.map_eq_some_iff.mp h
      simp only [Assignment.mk.injEq,true_and] at heq
      obtain ⟨rfl,rfl⟩ := heq
      exact hread
    · intro hread
      rw [hread]
      rfl

end Setting

end SqlText

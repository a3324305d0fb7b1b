import Xqlite.StrictTable
set_option autoImplicit false

namespace Xqlite.Strict

def createTable : List Char := "CREATE TABLE".toList

def rebuildSuffix : List Char := "_xqlite_strict_rebuild".toList

def isIdChar (c : Char) : Bool := c.isAlphanum || c == '_' || c == '$' || 128 ≤ c.toNat

structure LegalBare (name : List Char) : Prop where
  chars : ∀ c ∈ name, isIdChar c = true
  nonempty : name ≠ []

def escapeName (q : Char) (name : List Char) : List Char :=
  name.flatMap fun c => if c = q then [q,q] else [c]

def quoteName (q : Char) (name : List Char) : List Char := q :: (escapeName q name ++ [q])

/-- The two marks that the comment of the source promises. -/
def IsMark (q : Char) : Prop := q = '"' ∨ q = '\x60'

inductive Spelling (name : List Char) where
  | bare (h : LegalBare name)
  | quoted (q : Char) (h : IsMark q)

def Spelling.chars {name : List Char} : Spelling name → List Char
  | .bare _ => name
  | .quoted q _ => quoteName q name

def OneStrict (tail : List Char) : Prop :=
  ∃ blanks word, blanks.all isBlank = true ∧ word.map Char.toLower = "strict".toList ∧
    tail = blanks ++ word

/-- A text as SQLite stores it: the name, perhaps a space, a body in parentheses, and
perhaps the option. -/
structure Stored (name : List Char) where
  spelling : Spelling name
  space : Bool
  body : List Char
  ending : List Char
  ending_ok : ending = [] ∨ OneStrict ending

namespace Stored
variable {name : List Char}

def rest (s : Stored name) : List Char := (if s.space then [' '] else []) ++ '(' :: s.body

def text (s : Stored name) : List Char :=
  createTable ++ ' ' :: (s.spelling.chars ++ (s.rest ++ ')' :: s.ending))

def strictEnding (s : Stored name) : List Char :=
  if isStrictTail s.ending then " STRICT".toList else s.ending

end Stored

/-- The name is replaced by a quoted spelling of the temporary one, the body is kept, and
the text ends in one STRICT. -/
def Rewritten (table : String) (s : Stored table.toList) (result : Option String) : Prop :=
  ∃ q tail, IsMark q ∧ OneStrict tail ∧
    result = some (String.ofList (createTable ++ ' ' ::
      (quoteName q (tmpTable table).toList ++ (s.rest ++ ')' :: tail))))

def Mentions (name : List Char) (before : Option Char) (text : List Char) : Prop :=
  ∃ pre post, text = pre ++ post ∧ (afterCreate name (pre.getLast?.or before) post).isSome

/-- A pattern that is literal but for `$`, which holds at the end of the subject and
before its last newline; then `\b`. -/
def afterAnchored : List Char → Option Char → List Char → Option (Option Char × List Char)
  | [],before,text => if boundary before text.head? then some (before,text) else none
  | p :: pattern,before,text =>
    if p = '$' then
      if text = [] ∨ text = ['\n'] then afterAnchored pattern before text else none
    else
      match text with
      | [] => none
      | c :: text => if c = p then afterAnchored pattern (some c) text else none

def anchoredName (name : List Char) (before : Option Char) (text : List Char) :
    Option (Option Char × List Char) :=
  (afterAnchored ('"' :: name ++ ['"']) before text).or <|
    (afterAnchored ('\x60' :: name ++ ['\x60']) before text).or (afterAnchored name before text)

def anchoredBlanks (name text : List Char) : Nat → Option (Option Char × List Char)
  | 0 => none
  | blanks+1 =>
    (anchoredName name (text.take (blanks+1)).getLast? (text.drop (blanks+1))).or
      (anchoredBlanks name text blanks)

def anchoredCreate (name : List Char) (before : Option Char) (text : List Char) :
    Option (Option Char × List Char) :=
  if boundary before text.head? && createTable.isPrefixOf text then
    let rest := text.drop 12
    anchoredBlanks name rest (rest.takeWhile isBlank).length
  else none

def replaceAnchored (name new : List Char) : Nat → Option Char → List Char → List Char
  | 0, _, text => text
  | _, _, [] => []
  | n+1, before, c :: text =>
    match anchoredCreate name before (c :: text) with
    | some (last,rest) => new ++ replaceAnchored name new n last rest
    | none => c :: replaceAnchored name new n (some c) text

/-- `$` is the only character of the name that means something in a pattern. -/
def isPlain (name : String) : Bool :=
  name.toList.all fun c => c == '$' || !("\\^$.[]|()?*+\x7b\x7d".toList.contains c)

/-- What is assumed of PCRE: it takes `$` for the anchor it is. -/
def Pcre.Anchors (R : Pcre) : Prop :=
  ∀ table new text, isPlain table = true → isLiteral table = false →
    R.replaceCreate table new text =
      some (String.ofList (replaceAnchored table.toList new.toList text.toList.length none
        text.toList))

section Match
variable {name text rest : List Char} {before last : Option Char}

/-- What the pattern took: the words, blanks, and one of the three spellings, with a word
boundary behind it. -/
structure Taken (name text rest : List Char) (last : Option Char) : Prop where
  split : ∃ blanks spelled, text = createTable ++ (blanks ++ (spelled ++ rest)) ∧
    blanks ≠ [] ∧ blanks.all isBlank = true ∧
    (spelled = '"' :: name ++ ['"'] ∨ spelled = '\x60' :: name ++ ['\x60'] ∨ spelled = name) ∧
    boundary spelled.getLast? rest.head? = true ∧ last = spelled.getLast?

theorem afterLiteral_some {literal : List Char} (h : afterLiteral literal text = some (last,rest)) :
    text = literal ++ rest ∧ boundary literal.getLast? rest.head? = true ∧
      last = literal.getLast? := by
  simp only [afterLiteral] at h
  split at h
  · rename_i hcond
    obtain ⟨htext,hboundary⟩ := Bool.and_eq_true_iff.mp hcond
    obtain ⟨tail,htail⟩ := List.isPrefixOf_iff_prefix.mp htext
    cases h
    have hdrop : text.drop literal.length = tail := by rw [← htail,List.drop_left]
    rw [hdrop] at hboundary ⊢
    exact ⟨htail.symm,hboundary,rfl⟩
  · cases h

theorem afterName_some (h : afterName name text = some (last,rest)) :
    ∃ spelled, text = spelled ++ rest ∧
      (spelled = '"' :: name ++ ['"'] ∨ spelled = '\x60' :: name ++ ['\x60'] ∨ spelled = name) ∧
      boundary spelled.getLast? rest.head? = true ∧ last = spelled.getLast? := by
  unfold afterName at h
  rcases Option.or_eq_some_iff.mp h with h | ⟨-,h⟩
  · obtain ⟨htext,hrest⟩ := afterLiteral_some h
    exact ⟨_,htext,.inl rfl,hrest⟩
  · rcases Option.or_eq_some_iff.mp h with h | ⟨-,h⟩
    · obtain ⟨htext,hrest⟩ := afterLiteral_some h
      exact ⟨_,htext,.inr (.inl rfl),hrest⟩
    · obtain ⟨htext,hrest⟩ := afterLiteral_some h
      exact ⟨_,htext,.inr (.inr rfl),hrest⟩

theorem afterBlanks_some {blanks : Nat} (h : afterBlanks name text blanks = some (last,rest)) :
    ∃ k, k < blanks ∧ afterName name (text.drop (k+1)) = some (last,rest) := by
  induction blanks with
  | zero => cases h
  | succ k ih =>
    rcases Option.or_eq_some_iff.mp h with h | ⟨-,h⟩
    · exact ⟨k,Nat.lt_succ_self k,h⟩
    · obtain ⟨j,hj,hname⟩ := ih h
      exact ⟨j,Nat.lt_succ_of_lt hj,hname⟩

theorem take_blanks {k : Nat} (hk : k < (text.takeWhile isBlank).length) :
    (text.take (k+1)).all isBlank = true ∧ text.take (k+1) ≠ [] := by
  have htake : text.take (k+1) = (text.takeWhile isBlank).take (k+1) := by
    conv_lhs => rw [← List.takeWhile_append_dropWhile (p := isBlank) (l := text)]
    rw [List.take_append_of_le_length hk]
  have hne : text ≠ [] := by
    intro hnil
    rw [hnil] at hk
    cases hk
  refine ⟨?_,by simp [hne]⟩
  rw [htake,List.all_eq_true]
  intro c hc
  exact List.all_eq_true.mp List.all_takeWhile c (List.mem_of_mem_take hc)

theorem afterCreate_some (h : afterCreate name before text = some (last,rest)) :
    Taken name text rest last := by
  unfold afterCreate at h
  split at h
  · rename_i hcond
    obtain ⟨-,hcreate⟩ := Bool.and_eq_true_iff.mp hcond
    obtain ⟨tail,htail⟩ := List.isPrefixOf_iff_prefix.mp hcreate
    have hdrop : text.drop 12 = tail := by
      rw [← htail]
      exact List.drop_left' (by decide)
    rw [hdrop] at h
    obtain ⟨k,hk,hname⟩ := afterBlanks_some h
    obtain ⟨spelled,hspelled,hkind,hboundary,hlast⟩ := afterName_some hname
    obtain ⟨hblank,hne⟩ := take_blanks hk
    refine ⟨tail.take (k+1),spelled,?_,hne,hblank,hkind,hboundary,hlast⟩
    rw [← hspelled,List.take_append_drop,← htail]
    rfl
  · cases h

theorem Taken.head (h : Taken name text rest last) : text.head? = some 'C' := by
  obtain ⟨blanks,spelled,htext,-⟩ := h.split
  rw [htext]
  rfl

end Match

section Replace

theorem not_mentions_nil (name : List Char) (before : Option Char) : ¬ Mentions name before [] := by
  intro ⟨pre,post,h,hsome⟩
  obtain ⟨rfl,rfl⟩ := List.append_eq_nil_iff.mp h.symm
  simp [afterCreate] at hsome

theorem getLast?_cons_or (c : Char) (pre : List Char) (before : Option Char) :
    (c :: pre).getLast?.or before = pre.getLast?.or (some c) := by
  rw [List.getLast?_cons]
  cases pre.getLast? with
  | none => rfl
  | some d => rfl

/-- Nothing fits and the text stays, or the first place that fits is replaced. -/
theorem replaceCreate_cases (name new : List Char) (n : Nat) (before : Option Char)
    (text : List Char) (hn : text.length ≤ n) :
    (¬ Mentions name before text ∧ replaceCreate name new n before text = text) ∨
      ∃ pre post rest last out, text = pre ++ post ∧
        afterCreate name (pre.getLast?.or before) post = some (last,rest) ∧
        replaceCreate name new n before text = pre ++ (new ++ out) := by
  induction n generalizing before text with
  | zero =>
    have hnil : text = [] := List.eq_nil_of_length_eq_zero (Nat.le_zero.mp hn)
    subst hnil
    exact .inl ⟨not_mentions_nil name before,rfl⟩
  | succ n ih =>
    cases text with
    | nil => exact .inl ⟨not_mentions_nil name before,rfl⟩
    | cons c text =>
      cases hmatch : afterCreate name before (c :: text) with
      | some found =>
        obtain ⟨last,rest⟩ := found
        refine .inr ⟨[],c :: text,rest,last,replaceCreate name new n last rest,rfl,hmatch,?_⟩
        simp only [replaceCreate,hmatch]
        rfl
      | none =>
        have hstep : replaceCreate name new (n+1) before (c :: text) =
            c :: replaceCreate name new n (some c) text := by
          simp only [replaceCreate,hmatch]
        rw [hstep]
        rcases ih (some c) text (Nat.le_of_succ_le_succ hn) with
          ⟨hnot,hkeep⟩ | ⟨pre,post,rest,last,out,htext,hfit,hout⟩
        · refine .inl ⟨?_,by rw [hkeep]⟩
          intro ⟨pre,post,h,hsome⟩
          cases pre with
          | nil =>
            have hpost : post = c :: text := h.symm
            rw [hpost,List.getLast?_nil,Option.none_or,hmatch] at hsome
            cases hsome
          | cons d pre =>
            cases h
            rw [getLast?_cons_or] at hsome
            exact hnot ⟨pre,post,rfl,hsome⟩
        · refine .inr ⟨c :: pre,post,rest,last,out,by rw [htext]; rfl,?_,by rw [hout]; rfl⟩
          rw [getLast?_cons_or]
          exact hfit

end Replace

section Quote
variable {q : Char}

theorem escapeName_cons_ne {c : Char} (h : c ≠ q) (name : List Char) :
    escapeName q (c :: name) = c :: escapeName q name := by
  simp [escapeName,h]

theorem escapeName_append (a b : List Char) :
    escapeName q (a ++ b) = escapeName q a ++ escapeName q b := List.flatMap_append

theorem escapeName_of_not_mem {name : List Char} (h : q ∉ name) : escapeName q name = name := by
  induction name with
  | nil => rfl
  | cons c name ih =>
    have hc : c ≠ q := fun hc => h (hc ▸ List.mem_cons_self)
    rw [escapeName_cons_ne hc,ih (List.not_mem_of_not_mem_cons h)]

theorem mem_of_mem_escapeName {c : Char} {name : List Char} (h : c ∈ escapeName q name) :
    c ∈ name := by
  obtain ⟨d,hd,hc⟩ := List.mem_flatMap.mp h
  by_cases hq : d = q
  · rw [if_pos hq] at hc
    have hcq : c = q := by simpa using hc
    rwa [hcq,← hq]
  · rw [if_neg hq] at hc
    rwa [List.mem_singleton.mp hc]

theorem mark_not_word (h : IsMark q) :
    isWordByte (lastByte q) = false ∧ isWordByte (firstByte q) = false := by
  rcases h with rfl | rfl <;> exact ⟨rfl,rfl⟩

theorem boundary_marks (h : IsMark q) {before : Option Char}
    (hb : before.any (fun c => isWordByte (lastByte c)) = false) :
    boundary before (some q) = false := by
  simp [boundary,hb,(mark_not_word h).2]

end Quote

end Xqlite.Strict

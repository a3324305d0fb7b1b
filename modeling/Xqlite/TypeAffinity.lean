import Xqlite.ErrorClass
import Xqlite.Lib.Spelling
import Xqlite.Utf8
set_option autoImplicit false

namespace Xqlite.Affinity
open Spelling Constraint Ascii
open Classify (isAscii)

inductive TypeAffinity where
  | integer | text | binary | float | numeric
  deriving DecidableEq, Repr

section Upper

/-- `char::to_uppercase` beyond ASCII, but for the characters of `specialUpper`: no
character disappears, and none becomes an ASCII one. -/
structure UpperTable where
  upper : Char → Text
  upper_ne_nil : ∀ c, upper c ≠ []
  upper_beyond : ∀ c, ∀ d ∈ upper c, isAscii d = false

/-- The characters beyond ASCII with an ASCII letter in their upper case: sharp s, dotless
i, n after an apostrophe, long s, the letters with marks that have no capital, and the
ligatures ff, fi, fl, ffi, ffl and st (twice). -/
def specialUpper : List (Char × Text) :=
  [('\u00df',['S','S']),('\u0131',['I']),('\u0149',['\u02bc','N']),('\u017f',['S']),
   ('\u01f0',['J','\u030c']),('\u1e96',['H','\u0331']),('\u1e97',['T','\u0308']),
   ('\u1e98',['W','\u030a']),('\u1e99',['Y','\u030a']),('\u1e9a',['A','\u02be']),
   ('\ufb00',['F','F']),('\ufb01',['F','I']),('\ufb02',['F','L']),('\ufb03',['F','F','I']),
   ('\ufb04',['F','F','L']),('\ufb05',['S','T']),('\ufb06',['S','T'])]

def uppercaseChar (U : UpperTable) (c : Char) : Text :=
  if isAscii c then [c.toUpper] else (specialUpper.lookup c).getD (U.upper c)

def toUppercase (U : UpperTable) (s : Text) : Text := s.flatMap (uppercaseChar U)

end Upper

def typeAffinityToAtom (U : UpperTable) (declaredType : Text) : TypeAffinity :=
  let upper := toUppercase U declaredType
  if "INT".toList <:+: upper then .integer
  else if "CHAR".toList <:+: upper ∨ "CLOB".toList <:+: upper ∨ "TEXT".toList <:+: upper then .text
  else if "BLOB".toList <:+: upper ∨ upper = [] ∨ upper = "ANY".toList then .binary
  else if "REAL".toList <:+: upper ∨ "FLOA".toList <:+: upper ∨ "DOUB".toList <:+: upper then
    .float
  else .numeric

section Sqlite

def lowerByte (b : UInt8) : UInt8 := if 65 ≤ b ∧ b ≤ 90 then b+32 else b

def asciiBytes (s : String) : List UInt8 := s.toList.map fun c => UInt8.ofNat c.toNat

/-- The bytes of the word as they stand in the window, the last one first. -/
def inWindow (s : String) : List UInt8 := (asciiBytes s).reverse

/-- One turn of SQLite's loop, for a window that does not end in `int`. -/
def affinityStep (window : List UInt8) (aff : TypeAffinity) : TypeAffinity :=
  if window = inWindow "char" ∨ window = inWindow "clob" ∨ window = inWindow "text" then .text
  else if window = inWindow "blob" ∧ (aff = .numeric ∨ aff = .float) then .binary
  else if (window = inWindow "real" ∨ window = inWindow "floa" ∨ window = inWindow "doub") ∧
      aff = .numeric then .float
  else aff

/-- The window is the last four bytes in lower case, the last one first. -/
def scanAffinity (window : List UInt8) (aff : TypeAffinity) : List UInt8 → TypeAffinity
  | [] => aff
  | b :: bytes =>
    let window := (lowerByte b :: window).take 4
    if window.take 3 = inWindow "int" then .integer
    else scanAffinity window (affinityStep window aff) bytes

def sqliteAffinity (declaredType : Text) : TypeAffinity :=
  if declaredType = [] then .binary
  else scanAffinity [] .numeric (declaredType.flatMap String.utf8EncodeChar)

end Sqlite

/-- The order in which the two of them decide. -/
def cascade (int text blob real : Bool) : TypeAffinity :=
  if int then .integer else if text then .text else if blob then .binary
  else if real then .float else .numeric

section Scan

def has (s : String) (seen : List UInt8) : Bool := decide (asciiBytes s <:+: seen)

def hasText (seen : List UInt8) : Bool := has "char" seen || has "clob" seen || has "text" seen

def hasReal (seen : List UInt8) : Bool := has "real" seen || has "floa" seen || has "doub" seen

theorem window_iff {s : String} {n : Nat} (hs : (asciiBytes s).length = n) (seen : List UInt8) :
    seen.reverse.take n = inWindow s ↔ asciiBytes s <:+ seen := by
  rw [inWindow,← List.reverse_prefix,List.prefix_iff_eq_take,List.length_reverse,hs,eq_comm]

theorem has_concat {s : String} (hs : (asciiBytes s).length = 4) (seen : List UInt8) (b : UInt8) :
    has s (seen ++ [b]) =
      (has s seen || decide ((seen ++ [b]).reverse.take 4 = inWindow s)) := by
  rw [Bool.eq_iff_iff]
  simp only [has,decide_eq_true_eq,Bool.or_eq_true,window_iff hs,List.infix_concat_iff]
  exact or_comm

theorem has_three_concat (s s' s'' : String) (hs : (asciiBytes s).length = 4)
    (hs' : (asciiBytes s').length = 4) (hs'' : (asciiBytes s'').length = 4)
    (seen : List UInt8) (b : UInt8) :
    (has s (seen ++ [b]) || has s' (seen ++ [b]) || has s'' (seen ++ [b])) =
      (has s seen || has s' seen || has s'' seen ||
        decide ((seen ++ [b]).reverse.take 4 = inWindow s ∨
          (seen ++ [b]).reverse.take 4 = inWindow s' ∨
          (seen ++ [b]).reverse.take 4 = inWindow s'')) := by
  rw [has_concat hs,has_concat hs',has_concat hs'',Bool.decide_or,Bool.decide_or]
  ac_rfl

theorem cascade_step (t b r text blob real : Bool) :
    (if t then .text
      else if b = true ∧ (cascade false text blob real = .numeric ∨
          cascade false text blob real = .float) then .binary
      else if r = true ∧ cascade false text blob real = .numeric then .float
      else cascade false text blob real) =
    cascade false (text || t) (blob || b) (real || r) := by
  revert t b r text blob real
  decide

theorem affinityStep_concat (seen : List UInt8) (b : UInt8) :
    affinityStep ((seen ++ [b]).reverse.take 4)
        (cascade false (hasText seen) (has "blob" seen) (hasReal seen)) =
      cascade false (hasText (seen ++ [b])) (has "blob" (seen ++ [b])) (hasReal (seen ++ [b])) := by
  have htext := has_three_concat "char" "clob" "text" rfl rfl rfl seen b
  have hreal := has_three_concat "real" "floa" "doub" rfl rfl rfl seen b
  rw [hasText,hasReal,hasText,hasReal,htext,hreal,has_concat (s := "blob") rfl,← cascade_step]
  simp only [affinityStep,decide_eq_true_eq]

theorem scanAffinity_eq (seen bytes : List UInt8) (h : ¬ asciiBytes "int" <:+: seen) :
    scanAffinity (seen.reverse.take 4)
        (cascade false (hasText seen) (has "blob" seen) (hasReal seen)) bytes =
      cascade (has "int" (seen ++ bytes.map lowerByte)) (hasText (seen ++ bytes.map lowerByte))
        (has "blob" (seen ++ bytes.map lowerByte)) (hasReal (seen ++ bytes.map lowerByte)) := by
  induction bytes generalizing seen with
  | nil =>
    have hint : has "int" seen = false := decide_eq_false h
    simp only [List.map_nil,List.append_nil,hint,scanAffinity]
  | cons b bytes ih =>
    have hwindow : (lowerByte b :: seen.reverse.take 4).take 4 =
        (seen ++ [lowerByte b]).reverse.take 4 := by
      simp [List.take_take]
    have hthree : ((seen ++ [lowerByte b]).reverse.take 4).take 3 =
        (seen ++ [lowerByte b]).reverse.take 3 := by
      rw [List.take_take]
      rfl
    have hsplit : seen ++ (b :: bytes).map lowerByte =
        (seen ++ [lowerByte b]) ++ bytes.map lowerByte := by simp
    simp only [scanAffinity,hwindow,hthree,hsplit]
    split_ifs with hint
    · rw [window_iff (s := "int") (n := 3) rfl] at hint
      have hhas : has "int" (seen ++ [lowerByte b] ++ bytes.map lowerByte) = true :=
        decide_eq_true (hint.isInfix.trans (List.prefix_append _ _).isInfix)
      rw [hhas]
      rfl
    · rw [window_iff (s := "int") (n := 3) rfl] at hint
      rw [affinityStep_concat]
      refine ih _ ?_
      rw [List.infix_concat_iff]
      tauto

end Scan

section Spelled

def plain (word : List Char) : Pattern Char :=
  match word.map fun k => [k.toLower,k] with
  | first :: second :: rest => ⟨first,[],second,rest⟩
  | _ => ⟨[],[],[],[]⟩

def letters : List Char :=
  ['a','b','c','d','e','f','g','h','i','j','k','l','m','n','o','p','q','r','s','t','u','v','w',
   'x','y','z','A','B','C','D','E','F','G','H','I','J','K','L','M','N','O','P','Q','R','S','T',
   'U','V','W','X','Y','Z']

def upperTable : List (Char × Text) := letters.map (fun c => (c,[c.toUpper])) ++ specialUpper

def byteTable : List (Char × List UInt8) :=
  letters.map fun c => (c,[lowerByte (UInt8.ofNat c.toNat)])

def loweredBytes (c : Char) : List UInt8 := (String.utf8EncodeChar c).map lowerByte

/-- The words are made of capitals on the one side and of small letters on the other. -/
def noCapital (d : Char) : Bool := !(decide (65 ≤ d.toNat) && decide (d.toNat ≤ 90))

def noSmall (b : UInt8) : Bool := !(decide (97 ≤ b.toNat) && decide (b.toNat ≤ 122))

theorem mem_letters {c : Char} (h : 65 ≤ c.toNat ∧ c.toNat ≤ 90 ∨ 97 ≤ c.toNat ∧ c.toNat ≤ 122) :
    c ∈ letters := by
  have hall : ∀ n < 123, (65 ≤ n ∧ n ≤ 90 ∨ 97 ≤ n ∧ n ≤ 122) → Char.ofNat n ∈ letters := by
    decide
  have hmem := hall c.toNat (by omega) h
  rwa [Char.ofNat_toNat] at hmem

theorem letters_ascii {c : Char} (h : c ∈ letters) : c.toNat < 128 := by
  have hall : letters.all (fun c => decide (c.toNat < 128)) = true := rfl
  exact of_decide_eq_true (List.all_eq_true.mp hall c h)

theorem specialUpper_lookup {c : Char} {t : Text} (h : specialUpper.lookup c = some t) :
    (c,t) ∈ specialUpper := by
  obtain ⟨before,after,hsplit,-⟩ := List.lookup_eq_some_iff.mp h
  rw [hsplit]
  exact List.mem_append_right before List.mem_cons_self

theorem uppercaseChar_ne_nil (U : UpperTable) (c : Char) : uppercaseChar U c ≠ [] := by
  have hall : specialUpper.all (fun e => !e.2.isEmpty) = true := rfl
  unfold uppercaseChar
  split_ifs
  · exact List.cons_ne_nil _ _
  · cases hlookup : specialUpper.lookup c with
    | none => exact U.upper_ne_nil c
    | some t =>
      have hentry := List.all_eq_true.mp hall (c,t) (specialUpper_lookup hlookup)
      intro hnil
      rw [Option.getD_some] at hnil
      rw [hnil] at hentry
      cases hentry

theorem uppercase_tabled (U : UpperTable) : Tabled (uppercaseChar U) upperTable noCapital where
  ne_nil := uppercaseChar_ne_nil U
  listed := by
    intro e he
    rcases List.mem_append.mp he with he | he
    · obtain ⟨c,hc,rfl⟩ := List.mem_map.mp he
      exact if_pos (decide_eq_true (letters_ascii hc))
    · have hall : specialUpper.all (fun e => !isAscii e.1 && specialUpper.lookup e.1 == some e.2) =
          true := rfl
      have hentry := List.all_eq_true.mp hall e he
      simp only [Bool.and_eq_true,Bool.not_eq_true',beq_iff_eq] at hentry
      rw [uppercaseChar,hentry.1,hentry.2]
      rfl
  unlisted := by
    intro c hc d hd
    rw [upperTable,List.map_append,List.mem_append,not_or,List.map_map] at hc
    obtain ⟨hletter,hspecial⟩ := hc
    unfold uppercaseChar at hd
    split_ifs at hd with hascii
    · have hrange : ¬ (65 ≤ c.toNat ∧ c.toNat ≤ 90 ∨ 97 ≤ c.toNat ∧ c.toNat ≤ 122) :=
        fun h => hletter (List.mem_map.mpr ⟨c,mem_letters h,rfl⟩)
      rw [toUpper_of_not_lower (by omega),List.mem_singleton] at hd
      subst hd
      simp only [noCapital,Bool.not_eq_true',Bool.and_eq_false_iff,decide_eq_false_iff_not]
      omega
    · have hnone : specialUpper.lookup c = none := by
        rw [List.lookup_eq_none_iff]
        intro e he
        have hne : c ≠ e.1 := fun heq => hspecial (heq ▸ List.mem_map_of_mem he)
        simpa using hne
      rw [hnone,Option.getD_none] at hd
      have hbeyond := U.upper_beyond c d hd
      simp only [isAscii,decide_eq_false_iff_not] at hbeyond
      simp only [noCapital,Bool.not_eq_true',Bool.and_eq_false_iff,decide_eq_false_iff_not]
      omega

theorem lowered_tabled : Tabled loweredBytes byteTable noSmall where
  ne_nil := by
    intro c hnil
    exact String.utf8EncodeChar_ne_nil (List.map_eq_nil_iff.mp hnil)
  listed := by
    intro e he
    obtain ⟨c,hc,rfl⟩ := List.mem_map.mp he
    simp only [loweredBytes,utf8EncodeChar_ascii (letters_ascii hc),List.map_cons,List.map_nil]
  unlisted := by
    intro c hc d hd
    rw [byteTable,List.map_map] at hc
    obtain ⟨a,ha,rfl⟩ := List.mem_map.mp hd
    have hrange : ¬ (65 ≤ a.toNat ∧ a.toNat ≤ 90 ∨ 97 ≤ a.toNat ∧ a.toNat ≤ 122) := by
      intro h
      have hchar := (mem_utf8EncodeChar (by omega)).mp ha
      exact hc (List.mem_map.mpr ⟨c,mem_letters (by omega),rfl⟩)
    have hsame : lowerByte a = a := by
      refine if_neg (fun h => hrange (.inl ?_))
      simpa [UInt8.le_iff_toNat_le] using h
    rw [hsame]
    simp only [noSmall,Bool.not_eq_true',Bool.and_eq_false_iff,decide_eq_false_iff_not]
    omega

def intSpelled : Pattern Char :=
  ⟨['i','I','\u0131','\ufb01','\ufb03'],[],['n','N'],[['t','T','\u1e97']]⟩

def textSpelled : Pattern Char :=
  ⟨['t','T','\ufb05','\ufb06'],[],['e','E'],[['x','X'],['t','T','\u1e97']]⟩

def floaSpelled : Pattern Char :=
  ⟨['f','F','\ufb00'],['\ufb02','\ufb04'],['l','L'],[['o','O'],['a','A','\u1e9a']]⟩

theorem upper_iff (U : UpperTable) {word : Text} {p : Pattern Char}
    (hword : (word.all fun k => !noCapital k) = true) (hcheck : p.checks upperTable word = true)
    (ty : Text) : word <:+: toUppercase U ty ↔ p.spelled ty = true :=
  (uppercase_tabled U).infix_iff hword hcheck ty

theorem has_eq {s : String} {p : Pattern Char}
    (hword : ((asciiBytes s).all fun k => !noSmall k) = true)
    (hcheck : p.checks byteTable (asciiBytes s) = true) (ty : Text) :
    has s (ty.flatMap loweredBytes) = p.spelled ty := by
  rw [Bool.eq_iff_iff,has,decide_eq_true_eq]
  exact lowered_tabled.infix_iff hword hcheck ty

def plainInt (ty : Text) : Bool := (plain "INT".toList).spelled ty

def plainText (ty : Text) : Bool :=
  (plain "CHAR".toList).spelled ty || (plain "CLOB".toList).spelled ty ||
    (plain "TEXT".toList).spelled ty

def plainBlob (ty : Text) : Bool := (plain "BLOB".toList).spelled ty

def plainReal (ty : Text) : Bool :=
  (plain "REAL".toList).spelled ty || (plain "FLOA".toList).spelled ty ||
    (plain "DOUB".toList).spelled ty

theorem has_plain (ty : Text) :
    has "int" (ty.flatMap loweredBytes) = plainInt ty ∧
    hasText (ty.flatMap loweredBytes) = plainText ty ∧
    has "blob" (ty.flatMap loweredBytes) = plainBlob ty ∧
    hasReal (ty.flatMap loweredBytes) = plainReal ty := by
  refine ⟨has_eq (by decide) (by rfl) ty,?_,
    has_eq (by decide) (by rfl) ty,?_⟩
  · have hchar := has_eq (s := "char") (p := plain "CHAR".toList) (by decide) (by rfl) ty
    have hclob := has_eq (s := "clob") (p := plain "CLOB".toList) (by decide) (by rfl) ty
    have htext := has_eq (s := "text") (p := plain "TEXT".toList) (by decide) (by rfl) ty
    rw [hasText,plainText,hchar,hclob,htext]
  · have hreal := has_eq (s := "real") (p := plain "REAL".toList) (by decide) (by rfl) ty
    have hfloa := has_eq (s := "floa") (p := plain "FLOA".toList) (by decide) (by rfl) ty
    have hdoub := has_eq (s := "doub") (p := plain "DOUB".toList) (by decide) (by rfl) ty
    rw [hasReal,plainReal,hreal,hfloa,hdoub]

theorem sqliteAffinity_eq (ty : Text) :
    sqliteAffinity ty =
      cascade (plainInt ty) (plainText ty) (plainBlob ty || ty.isEmpty) (plainReal ty) := by
  cases ty with
  | nil => rfl
  | cons c ty =>
    have hscan := scanAffinity_eq [] ((c :: ty).flatMap String.utf8EncodeChar) (by decide)
    have hbytes : ((c :: ty).flatMap String.utf8EncodeChar).map lowerByte =
        (c :: ty).flatMap loweredBytes := List.map_flatMap
    obtain ⟨hint,htext,hblob,hreal⟩ := has_plain (c :: ty)
    rw [List.nil_append,hbytes,hint,htext,hblob,hreal] at hscan
    rw [sqliteAffinity,if_neg (List.cons_ne_nil c ty),List.isEmpty_cons,Bool.or_false]
    exact hscan

section Any
variable {U : UpperTable} {k k2 : Char}

theorem upper_no_pair (hk : noCapital k = false)
    (hcheck : agrees upperTable ([k,k2].isPrefixOf ·) [] = true) (c : Char) :
    ¬ [k,k2] <+: uppercaseChar U c := by
  have hiff := (uppercase_tabled U).iff (fun t ht => ⟨k,?_,hk⟩) hcheck c
  · simpa [List.isPrefixOf_iff_prefix] using hiff
  · exact (List.isPrefixOf_iff_prefix.mp ht).subset List.mem_cons_self

theorem upper_singleton (set : List Char) (hk : noCapital k = false)
    (hcheck : agrees upperTable (· == [k]) set = true) {c : Char}
    (h : uppercaseChar U c = [k]) : c ∈ set := by
  refine ((uppercase_tabled U).iff (fun t ht => ⟨k,?_,hk⟩) hcheck c).mp (beq_iff_eq.mpr h)
  rw [beq_iff_eq.mp ht]
  exact List.mem_cons_self

theorem upper_eq_any {ty : Text} (h : toUppercase U ty = ['A','N','Y']) :
    ty.map Char.toUpper = ['A','N','Y'] := by
  have hne := uppercaseChar_ne_nil U
  obtain ⟨a,rest,rfl,ha,hrest⟩ := flatMap_eq_cons hne
    (fun c k2 hk2 => Option.some.inj hk2 ▸ upper_no_pair (by decide) (by rfl) c) h
  obtain ⟨n,last,rfl,hn,hlast⟩ := flatMap_eq_cons hne
    (fun c k2 hk2 => Option.some.inj hk2 ▸ upper_no_pair (by decide) (by rfl) c) hrest
  obtain ⟨y,none',rfl,hy,hnone⟩ := flatMap_eq_cons hne (fun c k2 hk2 => by cases hk2) hlast
  have hend : none' = [] := by
    cases none' with
    | nil => rfl
    | cons c l => exact absurd (List.append_eq_nil_iff.mp hnone).1 (hne c)
  have hcase : ∀ {c k : Char}, c ∈ [k.toLower,k] → k.toLower.toUpper = k → k.toUpper = k →
      c.toUpper = k := by
    intro c k hc hlower hupper
    rcases List.mem_pair.mp hc with rfl | rfl
    · exact hlower
    · exact hupper
  have ha' := upper_singleton ['a','A'] (by decide) (by rfl) ha
  have hn' := upper_singleton ['n','N'] (by decide) (by rfl) hn
  have hy' := upper_singleton ['y','Y'] (by decide) (by rfl) hy
  rw [hend,List.map_cons,List.map_cons,List.map_cons,List.map_nil,hcase (k := 'A') ha' rfl rfl,
    hcase (k := 'N') hn' rfl rfl,hcase (k := 'Y') hy' rfl rfl]

end Any

theorem typeAffinityToAtom_eq (U : UpperTable) {ty : Text}
    (hany : ty.map Char.toUpper ≠ ['A','N','Y']) :
    typeAffinityToAtom U ty =
      cascade (intSpelled.spelled ty)
        ((plain "CHAR".toList).spelled ty || (plain "CLOB".toList).spelled ty ||
          textSpelled.spelled ty)
        (plainBlob ty || ty.isEmpty)
        ((plain "REAL".toList).spelled ty || floaSpelled.spelled ty ||
          (plain "DOUB".toList).spelled ty) := by
  have hint : "INT".toList <:+: toUppercase U ty ↔ intSpelled.spelled ty = true :=
    upper_iff U (by decide) (by rfl) ty
  have hchar : "CHAR".toList <:+: toUppercase U ty ↔ (plain "CHAR".toList).spelled ty = true :=
    upper_iff U (by decide) (by rfl) ty
  have hclob : "CLOB".toList <:+: toUppercase U ty ↔ (plain "CLOB".toList).spelled ty = true :=
    upper_iff U (by decide) (by rfl) ty
  have htext : "TEXT".toList <:+: toUppercase U ty ↔ textSpelled.spelled ty = true :=
    upper_iff U (by decide) (by rfl) ty
  have hblob : "BLOB".toList <:+: toUppercase U ty ↔ plainBlob ty = true :=
    upper_iff U (by decide) (by rfl) ty
  have hreal : "REAL".toList <:+: toUppercase U ty ↔ (plain "REAL".toList).spelled ty = true :=
    upper_iff U (by decide) (by rfl) ty
  have hfloa : "FLOA".toList <:+: toUppercase U ty ↔ floaSpelled.spelled ty = true :=
    upper_iff U (by decide) (by rfl) ty
  have hdoub : "DOUB".toList <:+: toUppercase U ty ↔ (plain "DOUB".toList).spelled ty = true :=
    upper_iff U (by decide) (by rfl) ty
  have hempty : toUppercase U ty = [] ↔ ty.isEmpty = true := by
    cases ty with
    | nil => exact iff_of_true rfl rfl
    | cons c ty =>
      refine iff_of_false (fun hnil => ?_) Bool.false_ne_true
      exact uppercaseChar_ne_nil U c (List.append_eq_nil_iff.mp hnil).1
  have hnot : toUppercase U ty ≠ "ANY".toList := fun heq => hany (upper_eq_any heq)
  simp only [typeAffinityToAtom,cascade,hint,hchar,hclob,htext,hblob,hreal,hfloa,hdoub,hempty,
    hnot,or_false,Bool.or_eq_true,or_assoc]

theorem plain_spelled (ty : Text) :
    (plainInt ty = true → intSpelled.spelled ty = true) ∧
    ((plain "TEXT".toList).spelled ty = true → textSpelled.spelled ty = true) ∧
    ((plain "FLOA".toList).spelled ty = true → floaSpelled.spelled ty = true) := by
  refine ⟨Pattern.spelled_mono ?_ ?_ ?_ ?_,Pattern.spelled_mono ?_ ?_ ?_ ?_,
    Pattern.spelled_mono ?_ ?_ ?_ ?_⟩ <;> decide

/-- Where a word is spelled with a letter that becomes ASCII only in the upper case, SQLite
finds it spelled plainly or has decided by a word that goes before it. -/
structure ReadsPlainly (ty : Text) : Prop where
  int : intSpelled.spelled ty = true → plainInt ty = true
  text : textSpelled.spelled ty = true → plainInt ty = true ∨ plainText ty = true
  floa : floaSpelled.spelled ty = true → plainInt ty = true ∨ plainText ty = true ∨
    plainBlob ty = true ∨ plainReal ty = true

/-- Two cascades, the first of which sees more, agree when it decides by nothing that the
second does not see. -/
theorem cascade_eq_iff (i i' t t' b r r' : Bool) (hi : i = true → i' = true)
    (ht : t = true → t' = true) (hr : r = true → r' = true) :
    cascade i' t' b r' = cascade i t b r ↔
      (i' = true → i = true) ∧ (t' = true → i = true ∨ t = true) ∧
        (r' = true → i = true ∨ t = true ∨ b = true ∨ r = true) := by
  cases i with
  | true => simp [hi rfl,cascade]
  | false =>
    cases i' with
    | true => cases t <;> cases b <;> cases r <;> simp [cascade]
    | false =>
      cases t with
      | true => simp [ht rfl,cascade]
      | false =>
        cases t' with
        | true => cases b <;> cases r <;> simp [cascade]
        | false =>
          cases r with
          | true => simp [hr rfl]
          | false => cases b <;> cases r' <;> simp [cascade]

theorem cascade_words_iff {i i' c l x x' b e r f f' d : Bool} (hi : i = true → i' = true)
    (hx : x = true → x' = true) (hf : f = true → f' = true) (he : f' = true → e = false) :
    cascade i' (c || l || x') (b || e) (r || f' || d) =
        cascade i (c || l || x) (b || e) (r || f || d) ↔
      (i' = true → i = true) ∧ (x' = true → i = true ∨ (c || l || x) = true) ∧
        (f' = true → i = true ∨ (c || l || x) = true ∨ b = true ∨ (r || f || d) = true) := by
  rw [cascade_eq_iff _ _ _ _ _ _ _ hi]
  · simp only [Bool.or_eq_true]
    refine and_congr_right (fun _ => and_congr ?_ ?_)
    · constructor
      · exact fun h hx' => h (.inr hx')
      · rintro h ((hc | hl) | hx')
        · exact .inr (.inl (.inl hc))
        · exact .inr (.inl (.inr hl))
        · exact h hx'
    · constructor
      · intro h hf'
        simpa only [he hf',Bool.false_eq_true,or_false] using h (.inl (.inr hf'))
      · rintro h ((hr | hf') | hd)
        · exact .inr (.inr (.inr (.inl (.inl hr))))
        · exact (h hf').imp_right (Or.imp_right (Or.imp_left Or.inl))
        · exact .inr (.inr (.inr (.inr hd)))
  · simp only [Bool.or_eq_true]
    exact Or.imp_right hx
  · simp only [Bool.or_eq_true]
    exact Or.imp_left (Or.imp_right hf)

/-- The two affinities of a declared type are the same exactly when the type is read
plainly. -/
theorem type_affinity_iff (U : UpperTable) {ty : Text}
    (hany : ty.map Char.toUpper ≠ ['A','N','Y']) :
    typeAffinityToAtom U ty = sqliteAffinity ty ↔ ReadsPlainly ty := by
  obtain ⟨hint,htext,hfloa⟩ := plain_spelled ty
  have hempty : floaSpelled.spelled ty = true → ty.isEmpty = false := by
    intro hspelled
    cases ty with
    | nil => exact absurd hspelled (by decide)
    | cons c ty => rfl
  rw [typeAffinityToAtom_eq U hany,sqliteAffinity_eq,plainText,plainReal]
  refine (cascade_words_iff hint htext hfloa hempty).trans ⟨?_,?_⟩
  · rintro ⟨hi,ht,hf⟩
    exact ⟨hi,ht,hf⟩
  · intro h
    exact ⟨h.int,h.text,h.floa⟩

end Spelled

def identityUpper : UpperTable where
  upper := fun c => if isAscii c then ['\u0080'] else [c]
  upper_ne_nil := by
    intro c
    split_ifs <;> exact List.cons_ne_nil _ _
  upper_beyond := by
    intro c d hd
    split_ifs at hd with hascii
    · rw [List.mem_singleton.mp hd]
      rfl
    · rw [List.mem_singleton.mp hd]
      simpa using hascii

/-- `unsigned big int`, in ASCII. -/
theorem type_affinity_ascii :
    typeAffinityToAtom identityUpper "unsigned big int".toList =
      sqliteAffinity "unsigned big int".toList := by
  refine (type_affinity_iff identityUpper (by decide +kernel)).mpr ⟨?_,?_,?_⟩ <;> decide +kernel

/-- A dotless i: the code reads `INT`, and SQLite no word at all. -/
theorem dotless_int_affinity :
    typeAffinityToAtom identityUpper ['\u0131','n','t'] = .integer ∧
      sqliteAffinity ['\u0131','n','t'] = .numeric := by
  decide +kernel

end Xqlite.Affinity

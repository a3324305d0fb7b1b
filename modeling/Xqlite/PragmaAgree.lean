import Xqlite.PragmaText
set_option autoImplicit false

namespace Xqlite.Pragma
open SqlText

/-- The text of a literal in `set`; `floatText` is Rust's `f64::to_string`. -/
def Literal.text (floatText : UInt64 → Bytes) : Literal → Bytes
  | .null => utf8 "NULL"
  | .on => utf8 "ON"
  | .off => utf8 "OFF"
  | .word name => utf8 name
  | .integer n => integerToString n
  | .float bits => floatText bits
  | .quoted bytes => squote :: escape squote bytes ++ [squote]

/-- What SQLite reads in the value of a pragma, before the pragma's own rules for the number
it is given. `nothing` leaves the setting alone; `cache_spill` reads a size and a switch. -/
inductive Reading where
  | value (t : Term)
  | nothing
  | spill (size : Option Int) (on : Bool)

/-- By the function of SQLite that reads the value. To `sqlite3Atoi` a word is zero, as it is
where the result of `sqlite3DecOrHexToI64` is not looked at (`integer`); where it is, a word is
no value (`numeral`). `auto_vacuum` and `temp_store` take a number or words of their own, and
`ON` is none of these (`keyword`). -/
inductive Reader where
  | integer | numeral | boolean | safetyLevel | keyword | secureDelete | cacheSpill
  deriving DecidableEq, Repr

def Reader.high : Reader → Int
  | .boolean => 1
  | .safetyLevel => 3
  | .keyword | .secureDelete => 2
  | _ => 2147483647

def Reader.low : Reader → Int
  | .integer => -2147483648
  | _ => 0

/-- `secure_delete` knows its third setting by the word `FAST` only, and a two is a boolean to
it. The switch of `cache_spill` is the lowest byte of the number. -/
def Reader.number (r : Reader) (n : Int) : Reading :=
  match r with
  | .secureDelete => .value (.int (if n = 2 then 1 else n))
  | .cacheSpill => .spill (if n = 0 then none else some n) (n%256 != 0)
  | _ => .value (.int n)

def Reader.on : Reader → Reading
  | .integer | .keyword => .value (.int 0)
  | .numeral => .nothing
  | .boolean | .safetyLevel | .secureDelete => .value (.int 1)
  | .cacheSpill => .spill none true

def Reader.off : Reader → Reading
  | .numeral => .nothing
  | .cacheSpill => .spill none false
  | _ => .value (.int 0)

def readers : List (String × Reader) :=
  [("application_id",.integer),("analysis_limit",.numeral),("busy_timeout",.integer),
    ("cache_size",.integer),("cache_spill",.cacheSpill),("hard_heap_limit",.numeral),
    ("journal_size_limit",.integer),("max_page_count",.integer),("mmap_size",.integer),
    ("page_size",.integer),("soft_heap_limit",.numeral),("threads",.numeral),
    ("user_version",.integer),("wal_autocheckpoint",.integer),("auto_vacuum",.keyword),
    ("secure_delete",.secureDelete),("synchronous",.safetyLevel),("temp_store",.keyword),
    ("automatic_index",.boolean),("cell_size_check",.boolean),("checkpoint_fullfsync",.boolean),
    ("defer_foreign_keys",.boolean),("foreign_keys",.boolean),("fullfsync",.boolean),
    ("ignore_check_constraints",.boolean),("legacy_alter_table",.boolean),
    ("query_only",.boolean),("read_uncommitted",.boolean),("recursive_triggers",.boolean),
    ("reverse_unordered_selects",.boolean),("trusted_schema",.boolean)]

/-- What is assumed of SQLite: `read key text` is what it reads in `PRAGMA key = text`. A name
that the schema lists stands for itself. -/
structure PragmaReads (read : String → Bytes → Reading) : Prop where
  number : ∀ key r n, readers.lookup key = some r → r.low ≤ n → n ≤ r.high →
    read key (integerToString n) = r.number n
  on : ∀ key r, readers.lookup key = some r → read key (utf8 "ON") = r.on
  off : ∀ key r, readers.lookup key = some r → read key (utf8 "OFF") = r.off
  named : ∀ key valid bytes, schema.lookup key = some (some valid) → valid.hasText bytes = true →
    read key (squote :: bytes ++ [squote]) = .value (.binary bytes)

/-- A boolean is validated as one or zero. -/
def validated : Term → Term
  | .atom "true" => .int 1
  | .atom "false" => .int 0
  | val => val

/-- What a value asks for. In `cache_spill` it is the size, with the switch on, and a zero
switches off. -/
def asked (key : String) (val : Term) : Reading :=
  match validated val with
  | .int n =>
    if key = "cache_spill" then .spill (if n = 0 then none else some n) (n != 0) else .value (.int n)
  | val => .value val

/-- Both formatters have a literal for the value, and each sets what was validated. -/
def Agrees (floatText : UInt64 → Bytes) (read : String → Bytes → Reading) (key : String)
    (val : Term) : Prop :=
  ∃ literal text, formatTermForPragma val = .ok literal ∧ formatPragmaValue val = some text ∧
    read key (literal.text floatText) = asked key val ∧ read key text = asked key val

/-- The pragmas to which `ON` is not a one. -/
def mistakesOn (key : String) : Bool :=
  (readers.lookup key).any fun r => r ∈ [.integer,.numeral,.keyword,.cacheSpill]

/-- The pragmas to which `OFF` is no value. -/
def ignoresOff (key : String) : Bool := readers.lookup key == some .numeral

def ValidValues.within (low high : Int) : ValidValues → Bool
  | .range l h => low ≤ l && h ≤ high
  | .oneOf ints _ => ints.all fun n => low ≤ n && n ≤ high

def ValidValues.texts : ValidValues → List String
  | .range _ _ => []
  | .oneOf _ texts => texts

theorem hasInt_within {valid : ValidValues} {low high n : Int}
    (h : valid.within low high = true) (hn : valid.hasInt n = true) : low ≤ n ∧ n ≤ high := by
  cases valid with
  | range l u =>
    simp only [ValidValues.within,ValidValues.hasInt,Bool.and_eq_true,decide_eq_true_eq] at h hn
    omega
  | oneOf ints texts =>
    simp only [ValidValues.within,List.all_eq_true,Bool.and_eq_true,decide_eq_true_eq] at h
    exact h n (by simpa [ValidValues.hasInt] using hn)

theorem hasText_mem {valid : ValidValues} {bytes : Bytes} (h : valid.hasText bytes = true) :
    ∃ text ∈ valid.texts, bytes = utf8 text := by
  cases valid with
  | range l u => cases h
  | oneOf ints texts =>
    obtain ⟨text,hmem,htext⟩ := List.any_eq_true.mp h
    rw [beq_iff_eq,toUTF8_toList] at htext
    exact ⟨text,hmem,htext.symm⟩

/-- Every pragma of the schema allows 32-bit integers of its reader's range, and names without
a quote. -/
def classified (entry : String × Option ValidValues) : Bool :=
  match entry.2 with
  | none => true
  | some valid =>
    valid.within (-2147483648) 2147483647 &&
      valid.texts.all (fun text => !(utf8 text).contains squote && (fromUtf8 (utf8 text)).isNone) &&
      match readers.lookup entry.1 with
      | none => valid.within 0 (-1)
      | some r => valid.within r.low r.high

theorem schema_classified : schema.all classified = true := by decide +kernel

theorem classified_of_lookup {key : String} {valid : ValidValues}
    (h : schema.lookup key = some (some valid)) : classified (key,some valid) = true := by
  obtain ⟨before,after,heq,-⟩ := List.lookup_eq_some_iff.mp h
  exact List.all_eq_true.mp schema_classified _ (by simp [heq])

theorem reader_key {key : String} {r : Reader} (h : readers.lookup key = some r) :
    (r = .cacheSpill ↔ key = "cache_spill") ∧ (r = .secureDelete ↔ key = "secure_delete") := by
  obtain ⟨before,after,heq,-⟩ := List.lookup_eq_some_iff.mp h
  have hall : ∀ entry ∈ readers, (entry.2 = .cacheSpill ↔ entry.1 = "cache_spill") ∧
      (entry.2 = .secureDelete ↔ entry.1 = "secure_delete") := by decide
  exact hall (key,r) (by simp [heq])

section
variable {key : String} {valid : ValidValues} (hkey : schema.lookup key = some (some valid))
include hkey

theorem hasInt_i32 {n : Int} (hn : valid.hasInt n = true) : -2147483648 ≤ n ∧ n ≤ 2147483647 := by
  have h := classified_of_lookup hkey
  simp only [classified,Bool.and_eq_true] at h
  exact hasInt_within h.1.1 hn

theorem hasText_plain {bytes : Bytes} (hb : valid.hasText bytes = true) :
    squote ∉ bytes ∧ fromUtf8 bytes = none := by
  have h := classified_of_lookup hkey
  simp only [classified,Bool.and_eq_true,List.all_eq_true] at h
  obtain ⟨text,hmem,rfl⟩ := hasText_mem hb
  simpa using h.1.2 text hmem

theorem hasInt_reader {n : Int} (hn : valid.hasInt n = true) :
    ∃ r, readers.lookup key = some r ∧ r.low ≤ n ∧ n ≤ r.high := by
  have h := classified_of_lookup hkey
  simp only [classified,Bool.and_eq_true] at h
  cases hr : readers.lookup key with
  | none =>
    have hempty := hasInt_within (by simpa [hr] using h.2) hn
    omega
  | some r => exact ⟨r,rfl,hasInt_within (by simpa [hr] using h.2) hn⟩

end

section Readers
variable {key : String} {r : Reader} (hr : readers.lookup key = some r)
include hr

/-- A number is read as what it asks for, up to the two of `secure_delete` and the sizes of
`cache_spill` that leave the switch off. -/
theorem number_eq_asked_iff (n : Int) :
    r.number n = asked key (.int n) ↔
      ¬(key = "secure_delete" ∧ n = 2) ∧ ¬(key = "cache_spill" ∧ n ≠ 0 ∧ n%256 = 0) := by
  obtain ⟨hspill,hsecure⟩ := reader_key hr
  rw [← hspill,← hsecure]
  simp only [asked,validated,← hspill]
  cases r with
  | secureDelete =>
    by_cases h2 : n = 2
    · simp [Reader.number,h2]
    · simp [Reader.number,h2]
  | cacheSpill =>
    by_cases h0 : n = 0
    · simp [Reader.number,h0]
    · have hswitch : (n != 0) = true := bne_iff_ne.mpr h0
      by_cases hbyte : n%256 = 0
      · simp [Reader.number,h0,hbyte,hswitch]
      · have hlow : (n%256 != 0) = true := bne_iff_ne.mpr hbyte
        simp [Reader.number,h0,hbyte,hswitch,hlow]
  | _ => simp [Reader.number]

theorem on_eq_asked_iff : r.on = asked key (.atom "true") ↔ mistakesOn key = false := by
  obtain ⟨hspill,-⟩ := reader_key hr
  simp only [mistakesOn,hr,asked,validated,← hspill]
  cases r <;> simp [Reader.on]

theorem off_eq_asked_iff : r.off = asked key (.atom "false") ↔ ignoresOff key = false := by
  obtain ⟨hspill,-⟩ := reader_key hr
  simp only [ignoresOff,hr,asked,validated,← hspill]
  cases r <;> simp [Reader.off]

end Readers

theorem format_integer {n : Int} (h : -2147483648 ≤ n ∧ n ≤ 2147483647) :
    formatTermForPragma (.int n) = .ok (.integer n) := by
  have hrange : -2^63 ≤ n ∧ n < 2^63 := by omega
  rw [formatTermForPragma,Term.decodeI64,if_pos hrange]

theorem validPragmaValue_cases {valid : ValidValues} {val : Term}
    (h : validPragmaValue (some (some valid)) val = true) :
    (val = .atom "true" ∧ valid.hasInt 1 = true) ∨ (val = .atom "false" ∧ valid.hasInt 0 = true) ∨
      (∃ n, val = .int n ∧ valid.hasInt n = true) ∨
        ∃ bytes, val = .binary bytes ∧ valid.hasText bytes = true := by
  simp only [validPragmaValue] at h
  split at h
  · exact Or.inl ⟨rfl,h⟩
  · exact Or.inr (Or.inl ⟨rfl,h⟩)
  · exact Or.inr (Or.inr (Or.inl ⟨_,rfl,h⟩))
  · exact Or.inr (Or.inr (Or.inr ⟨_,rfl,h⟩))
  · cases h

theorem agrees_of_formats {floatText : UInt64 → Bytes} {read : String → Bytes → Reading}
    {key : String} {val : Term} {literal : Literal} {text : Bytes}
    (hnative : formatTermForPragma val = .ok literal) (helixir : formatPragmaValue val = some text) :
    Agrees floatText read key val ↔
      read key (literal.text floatText) = asked key val ∧ read key text = asked key val := by
  constructor
  · rintro ⟨literal',text',hnative',helixir',h⟩
    obtain rfl := Except.ok.inj (hnative.symm.trans hnative')
    obtain rfl := Option.some.inj (helixir.symm.trans helixir')
    exact h
  · intro h
    exact ⟨literal,text,hnative,helixir,h⟩

/-- The two literals set the value that was validated unless it is `true` for a pragma that
does not take `ON` for one, `false` for one to which `OFF` is no value, the two of
`secure_delete`, or a size whose lowest byte switches `cache_spill` off. -/
theorem pragma_literals_agree_iff (floatText : UInt64 → Bytes) {read : String → Bytes → Reading}
    (hread : PragmaReads read) {key : String} {valid : ValidValues} {val : Term}
    (hkey : schema.lookup key = some (some valid))
    (hval : validPragmaValue (schema.lookup key) val = true) :
    Agrees floatText read key val ↔
      ¬(val = .atom "true" ∧ mistakesOn key = true) ∧
      ¬(val = .atom "false" ∧ ignoresOff key = true) ∧ ¬(key = "secure_delete" ∧ val = .int 2) ∧
      ¬(key = "cache_spill" ∧ ∃ n, val = .int n ∧ n ≠ 0 ∧ n%256 = 0) := by
  rw [hkey] at hval
  rcases validPragmaValue_cases hval with ⟨rfl,hn⟩ | ⟨rfl,hn⟩ | ⟨n,rfl,hn⟩ | ⟨bytes,rfl,hb⟩
  · -- `ON` from the native side, `1` from the other.
    obtain ⟨r,hr,hlow,hhigh⟩ := hasInt_reader hkey hn
    have hone : read key (utf8 "1") = asked key (.atom "true") :=
      (hread.number key r 1 hr hlow hhigh).trans ((number_eq_asked_iff hr 1).mpr (by simp))
    rw [agrees_of_formats rfl rfl]
    simp [Literal.text,hread.on key r hr,on_eq_asked_iff hr,hone]
  · obtain ⟨r,hr,hlow,hhigh⟩ := hasInt_reader hkey hn
    have hzero : read key (utf8 "0") = asked key (.atom "false") :=
      (hread.number key r 0 hr hlow hhigh).trans ((number_eq_asked_iff hr 0).mpr (by simp))
    rw [agrees_of_formats rfl rfl]
    simp [Literal.text,hread.off key r hr,off_eq_asked_iff hr,hzero]
  · obtain ⟨r,hr,hlow,hhigh⟩ := hasInt_reader hkey hn
    rw [agrees_of_formats (format_integer (hasInt_i32 hkey hn)) rfl]
    simp [Literal.text,hread.number key r n hr hlow hhigh,number_eq_asked_iff hr]
  · obtain ⟨hquote,hutf8⟩ := hasText_plain hkey hb
    have hnative : formatTermForPragma (.binary bytes) = .ok (.quoted bytes) := if_pos hutf8
    rw [agrees_of_formats hnative rfl]
    have hnamed := hread.named key valid bytes hkey hb
    simp only [Literal.text,escape_of_not_mem hquote,hnamed]
    simp [asked,validated]

def natOf (ds : Bytes) : Nat := Nat.ofDigitChars 10 (ds.map fun b => Char.ofNat b.toNat) 0

def integerOf (text : Bytes) : Int :=
  if text.head? = some dash then -(natOf text.tail) else natOf text

def sqliteRead (key : String) (text : Bytes) : Reading :=
  if text.head? = some squote then .value (.binary text.tail.dropLast)
  else
    match readers.lookup key with
    | none => .nothing
    | some r =>
      if text = utf8 "ON" then r.on
      else if text = utf8 "OFF" then r.off
      else r.number (integerOf text)

theorem natOf_digits (n : Nat) : natOf (digits n) = n := by
  have hback : (digits n).map (fun b => Char.ofNat b.toNat) = Nat.toDigits 10 n := by
    rw [digits,List.map_map]
    refine (List.map_congr_left fun c hc => ?_).trans (List.map_id _)
    obtain ⟨-,hhigh⟩ := toDigits_range hc
    have hmod : c.toNat % 256 = c.toNat := Nat.mod_eq_of_lt (by omega)
    simp [hmod]
  rw [natOf,hback,Nat.ofDigitChars_ten_toDigits]

theorem digits_head (n : Nat) : ∃ d, (digits n).head? = some d ∧ isDigit d = true := by
  obtain ⟨hne,hall⟩ := digits_formed n
  refine ⟨(digits n).head hne,List.head?_eq_some_head hne,hall _ (List.head_mem hne)⟩

theorem integerToString_head (n : Int) :
    ∃ d, (integerToString n).head? = some d ∧ (d = dash ∧ n < 0 ∨ isDigit d = true ∧ 0 ≤ n) := by
  by_cases hn : n < 0
  · exact ⟨dash,by simp [integerToString,hn],Or.inl ⟨rfl,hn⟩⟩
  · obtain ⟨d,hd,hdigit⟩ := digits_head n.natAbs
    exact ⟨d,by simpa [integerToString,hn] using hd,Or.inr ⟨hdigit,by omega⟩⟩

theorem integerOf_integerToString (n : Int) : integerOf (integerToString n) = n := by
  by_cases hn : n < 0
  · simp only [integerOf,integerToString,hn,if_true,List.head?_cons,List.tail_cons,natOf_digits]
    omega
  · obtain ⟨d,hd,hdigit⟩ := digits_head n.natAbs
    have hdash : d ≠ dash := by
      rintro rfl
      cases hdigit
    simp only [integerOf,integerToString,hn,if_false,hd,Option.some.injEq,hdash,natOf_digits]
    omega

theorem sqliteRead_integer {key : String} {r : Reader} (hr : readers.lookup key = some r)
    (n : Int) : sqliteRead key (integerToString n) = r.number n := by
  obtain ⟨d,hd,hform⟩ := integerToString_head n
  -- A number starts with a digit or a dash, so it is neither a string nor a word.
  have hstart : ∀ b, b ≠ dash → isDigit b = false → (integerToString n).head? ≠ some b := by
    intro b hb hbdigit hhead
    obtain rfl := Option.some.inj (hd.symm.trans hhead)
    rcases hform with ⟨hdash,-⟩ | ⟨hdigit,-⟩
    · exact hb hdash
    · simp [hdigit] at hbdigit
  have hletter : (integerToString n).head? ≠ some 79 := hstart 79 (by decide) (by decide)
  have hon : integerToString n ≠ utf8 "ON" := fun h => hletter (by rw [h]; rfl)
  have hoff : integerToString n ≠ utf8 "OFF" := fun h => hletter (by rw [h]; rfl)
  simp only [sqliteRead,hstart squote (by decide) (by decide),if_false,hr,hon,hoff,
    integerOf_integerToString]

theorem sqliteRead_reads : PragmaReads sqliteRead where
  number := by
    intro key r n hr _ _
    exact sqliteRead_integer hr n
  on := by
    intro key r hr
    have hhead : (utf8 "ON").head? ≠ some squote := by decide
    simp [sqliteRead,hhead,hr]
  off := by
    intro key r hr
    have hhead : (utf8 "OFF").head? ≠ some squote := by decide
    have hon : utf8 "OFF" ≠ utf8 "ON" := by decide
    simp [sqliteRead,hhead,hon,hr]
  named := by
    intro key valid bytes _ _
    simp [sqliteRead]

/-- `false` is a zero by either literal of the version. -/
theorem pragma_literals_agree_false :
    Agrees (fun _ => []) sqliteRead "user_version" (.atom "false") :=
  (pragma_literals_agree_iff (fun _ => []) sqliteRead_reads rfl (by decide)).mpr
    ⟨fun h => by simp at h,fun h => absurd h.2 (by decide),fun h => by simp at h,
      fun h => by simp at h⟩

/-- The version is set to zero by the one literal for `true` and to one by the other, and
`false` sets the number of threads by one literal only. -/
theorem pragma_literals_differ :
    (validPragmaValue (schema.lookup "user_version") (.atom "true") = true ∧
      formatTermForPragma (.atom "true") = .ok .on ∧
      sqliteRead "user_version" (utf8 "ON") = .value (.int 0) ∧
      formatPragmaValue (.atom "true") = some (utf8 "1") ∧
      sqliteRead "user_version" (utf8 "1") = .value (.int 1) ∧
      ¬Agrees (fun _ => []) sqliteRead "user_version" (.atom "true")) ∧
    (validPragmaValue (schema.lookup "threads") (.atom "false") = true ∧
      sqliteRead "threads" (utf8 "OFF") = .nothing ∧
      sqliteRead "threads" (utf8 "0") = .value (.int 0)) := by
  have hzero : sqliteRead "user_version" (utf8 "ON") = .value (.int 0) := rfl
  have hversion : readers.lookup "user_version" = some .integer := rfl
  have hthreads : readers.lookup "threads" = some .numeral := rfl
  refine ⟨⟨by decide,rfl,hzero,rfl,sqliteRead_integer hversion 1,?_⟩,by decide,rfl,
    sqliteRead_integer hthreads 0⟩
  rw [agrees_of_formats rfl rfl]
  rintro ⟨hon,-⟩
  have hone : Reading.value (.int 0) = .value (.int 1) := hzero.symm.trans hon
  simp at hone

end Xqlite.Pragma

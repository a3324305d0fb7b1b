import Mathlib.Data.List.Induction
import Mathlib.Data.List.TakeWhile
import Mathlib.Tactic.Ring
import Xqlite.Lib.Gregorian
set_option autoImplicit false

/-! Dates and times as texts: fields of a fixed number of digits with marks between them, a
sign before the year, a fraction of any length behind the seconds, an offset at the end. -/

namespace Iso8601
open Gregorian

abbrev Text := List UInt8

def plus : UInt8 := 43
def comma : UInt8 := 44
def hyphen : UInt8 := 45
def dot : UInt8 := 46
def zero : UInt8 := 48
def colon : UInt8 := 58
def letterT : UInt8 := 84
def letterZ : UInt8 := 90
def space : UInt8 := 32

section Numbers

def isDigit (b : UInt8) : Bool := 48 ≤ b && b ≤ 57

def number (ds : Text) : Nat := ds.foldl (fun n b => 10*n + (b.toNat - 48)) 0

def digits (n : Nat) : Text := (Nat.toDigits 10 n).map fun c => c.toNat.toUInt8

def zeroPad (count n : Nat) : Text :=
  List.replicate (count - (digits n).length) zero ++ digits n

def readNumber (count : Nat) (s : Text) : Option (Nat × Text) :=
  if (s.take count).length = count ∧ (s.take count).all isDigit = true then
    some (number (s.take count),s.drop count)
  else none

def expect (b : UInt8) : Text → Option Text
  | [] => none
  | c :: rest => if c = b then some rest else none

@[simp] theorem expect_self (b : UInt8) (rest : Text) : expect b (b :: rest) = some rest :=
  if_pos rfl

theorem number_snoc (ds : Text) (b : UInt8) :
    number (ds ++ [b]) = 10*number ds + (b.toNat - 48) := by
  simp [number]

theorem number_append (ds es : Text) :
    number (ds ++ es) = number ds * 10^es.length + number es := by
  induction es using List.reverseRecOn with
  | nil => simp [number]
  | append_singleton es b ih =>
    rw [← List.append_assoc,number_snoc,number_snoc,ih,List.length_append,List.length_singleton,
      pow_succ]
    ring

theorem number_zeros (k : Nat) (ds : Text) :
    number (List.replicate k zero ++ ds) = number ds := by
  induction k with
  | zero => rfl
  | succ k ih =>
    rw [← ih]
    simp [number,List.replicate_succ,zero]

theorem digit_byte {n : Nat} (h : n < 10) : n.digitChar.toNat.toUInt8.toNat = 48 + n := by
  rw [Nat.toNat_digitChar_of_lt_ten h]
  simp
  omega

theorem digits_cases (n : Nat) :
    digits n = if n < 10 then [n.digitChar.toNat.toUInt8]
      else digits (n/10) ++ [(n%10).digitChar.toNat.toUInt8] := by
  unfold digits
  rw [Nat.toDigits_eq_if (by decide)]
  split <;> simp

theorem number_digits (n : Nat) : number (digits n) = n := by
  induction n using Nat.strong_induction_on with
  | _ n ih =>
    rw [digits_cases]
    split
    · next h => simp [number,digit_byte h]
    · next h =>
      have hmod : n%10 < 10 := Nat.mod_lt _ (by decide)
      rw [number_snoc,ih (n/10) (by omega),digit_byte hmod]
      omega

theorem isDigit_iff (b : UInt8) : isDigit b = true ↔ 48 ≤ b.toNat ∧ b.toNat ≤ 57 := by
  simp [isDigit,UInt8.le_iff_toNat_le]

theorem number_lt {ds : Text} (h : ∀ b ∈ ds, isDigit b = true) : number ds < 10^ds.length := by
  induction ds using List.reverseRecOn with
  | nil => simp [number]
  | append_singleton ds b ih =>
    have hds := ih fun c hc => h c (List.mem_append_left _ hc)
    have hb := (isDigit_iff b).mp (h b (List.mem_append_right _ (List.mem_singleton_self b)))
    rw [number_snoc,List.length_append,List.length_singleton,pow_succ]
    omega

theorem number_take {ds : Text} (hds : ∀ b ∈ ds, isDigit b = true) {k : Nat}
    (hzero : number ds % 10^(ds.length - k) = 0) :
    number (ds.take k ++ List.replicate (ds.length - k) zero) = number ds := by
  have hdrop : ∀ b ∈ ds.drop k, isDigit b = true := fun b hb => hds b (List.mem_of_mem_drop hb)
  have hlow := number_lt hdrop
  have hsplit := number_append (ds.take k) (ds.drop k)
  rw [List.length_drop] at hlow hsplit
  rw [List.take_append_drop] at hsplit
  rw [hsplit,Nat.mul_add_mod_self_right,Nat.mod_eq_of_lt hlow] at hzero
  have hzeros : number (List.replicate (ds.length - k) zero) = 0 :=
    (congrArg number (List.append_nil _).symm).trans (number_zeros _ [])
  rw [number_append,List.length_replicate,hzeros,hsplit,hzero]

theorem isDigit_digits {n : Nat} {b : UInt8} (h : b ∈ digits n) : isDigit b = true := by
  induction n using Nat.strong_induction_on with
  | _ n ih =>
    rw [digits_cases] at h
    split at h
    · next hn =>
      rw [List.mem_singleton.mp h,isDigit_iff,digit_byte hn]
      omega
    · next hn =>
      have hmod : n%10 < 10 := Nat.mod_lt _ (by decide)
      obtain h | h := List.mem_append.mp h
      · exact ih (n/10) (by omega) h
      · rw [List.mem_singleton.mp h,isDigit_iff,digit_byte hmod]
        omega

theorem isDigit_zeroPad (count n : Nat) : ∀ b ∈ zeroPad count n, isDigit b = true := by
  intro b h
  obtain h | h := List.mem_append.mp h
  · rw [List.eq_of_mem_replicate h]
    rfl
  · exact isDigit_digits h

theorem number_zeroPad (count n : Nat) : number (zeroPad count n) = n := by
  rw [zeroPad,number_zeros,number_digits]

theorem length_zeroPad {count n : Nat} (hcount : 0 < count) (h : n < 10^count) :
    (zeroPad count n).length = count := by
  have hle : (digits n).length ≤ count := by
    rw [digits,List.length_map]
    exact (Nat.length_toDigits_le_iff (by decide) hcount).mpr h
  rw [zeroPad,List.length_append,List.length_replicate]
  omega

theorem readNumber_append {ds : Text} (hds : ∀ b ∈ ds, isDigit b = true) (rest : Text) :
    readNumber ds.length (ds ++ rest) = some (number ds,rest) := by
  have hall : ds.all isDigit = true := List.all_eq_true.mpr hds
  rw [readNumber,List.take_left,List.drop_left,if_pos ⟨rfl,hall⟩]

theorem readNumber_zeroPad {count n : Nat} (hcount : 0 < count) (h : n < 10^count)
    (rest : Text) : readNumber count (zeroPad count n ++ rest) = some (n,rest) := by
  have hread := readNumber_append (isDigit_zeroPad count n) rest
  rwa [length_zeroPad hcount h,number_zeroPad] at hread

theorem readNumber_eq_none {count : Nat} {s : Text} {b : UInt8} (h : b ∈ s.take count)
    (hb : isDigit b = false) : readNumber count s = none := by
  refine if_neg fun hread => ?_
  rw [List.all_eq_true.mp hread.2 b h] at hb
  cases hb

end Numbers

structure Date where
  year : Int
  month : Nat
  day : Nat
  valid : 1 ≤ month ∧ month ≤ 12 ∧ 1 ≤ day ∧ (day : Int) ≤ daysInMonth year month
  deriving DecidableEq

/-- The microseconds come with the number of digits they are known to. -/
structure Time where
  hour : Nat
  minute : Nat
  second : Nat
  microsecond : Nat
  precision : Nat
  valid : hour ≤ 23 ∧ minute ≤ 59 ∧ second ≤ 59 ∧ microsecond ≤ 999999 ∧ precision ≤ 6
  deriving DecidableEq

def Date.make (year : Int) (month day : Nat) : Option Date :=
  if h : 1 ≤ month ∧ month ≤ 12 ∧ 1 ≤ day ∧ (day : Int) ≤ daysInMonth year month then
    some ⟨year,month,day,h⟩
  else none

def Time.make (hour minute second microsecond precision : Nat) : Option Time :=
  if h : hour ≤ 23 ∧ minute ≤ 59 ∧ second ≤ 59 ∧ microsecond ≤ 999999 ∧ precision ≤ 6 then
    some ⟨hour,minute,second,microsecond,precision,h⟩
  else none

theorem Date.day_le (d : Date) : d.day ≤ 31 := by
  obtain ⟨-,-,-,hday⟩ := d.valid
  have hdays : daysInMonth d.year d.month ≤ 31 := by
    unfold daysInMonth
    split_ifs <;> omega
  omega

theorem Date.make_eq (d : Date) : Date.make d.year d.month d.day = some d := dif_pos d.valid

theorem Time.make_eq (t : Time) :
    Time.make t.hour t.minute t.second t.microsecond t.precision = some t := dif_pos t.valid

section Writing

def Date.toText (d : Date) : Text :=
  (if d.year < 0 then [hyphen] else []) ++ (zeroPad 4 d.year.natAbs ++
    hyphen :: (zeroPad 2 d.month ++ hyphen :: zeroPad 2 d.day))

def Time.fraction (t : Time) : Text :=
  if t.precision = 0 then [] else dot :: (zeroPad 6 t.microsecond).take t.precision

def Time.toText (t : Time) : Text :=
  zeroPad 2 t.hour ++ colon :: (zeroPad 2 t.minute ++ colon :: (zeroPad 2 t.second ++ t.fraction))

def naiveToText (d : Date) (t : Time) : Text := d.toText ++ letterT :: t.toText

end Writing

section Reading

def readDate (s : Text) : Option ((Nat × Nat × Nat) × Text) := do
  let (year,s) ← readNumber 4 s
  let s ← expect hyphen s
  let (month,s) ← readNumber 2 s
  let s ← expect hyphen s
  let (day,s) ← readNumber 2 s
  some ((year,month,day),s)

def readClock (s : Text) : Option ((Nat × Nat × Nat) × Text) := do
  let (hour,s) ← readNumber 2 s
  let s ← expect colon s
  let (minute,s) ← readNumber 2 s
  let s ← expect colon s
  let (second,s) ← readNumber 2 s
  some ((hour,minute,second),s)

/-- Digits behind the sixth are dropped. -/
def readMicrosecond : Text → Option ((Nat × Nat) × Text)
  | [] => some ((0,0),[])
  | b :: rest =>
    if b = dot ∨ b = comma then
      let ds := rest.takeWhile isDigit
      if ds = [] then none
      else some ((number ((ds ++ List.replicate 6 zero).take 6),min ds.length 6),
        rest.dropWhile isDigit)
    else some ((0,0),b :: rest)

def readSign : Text → Int × Text
  | [] => (1,[])
  | b :: rest =>
    if b = hyphen then (-1,rest) else if b = plus then (1,rest) else (1,b :: rest)

/-- How an offset is read at the end of a text, and a moment taken to the meridian. -/
structure Zone where
  offset : Text → Option (Option Int)
  shift : Int → Date × Time → Option (Date × Time)
  offset_nil : offset [] = some none
  offset_zulu : offset [letterZ] = some (some 0)
  shift_zero : ∀ t, shift 0 t = some t

variable (Z : Zone)

def readTime (s : Text) : Option (Time × Option Int) := do
  let ((hour,minute,second),s) ← readClock s
  let ((microsecond,precision),s) ← readMicrosecond s
  let offset ← Z.offset s
  let time ← Time.make hour minute second microsecond precision
  some (time,offset)

def readMoment (s : Text) : Option (Date × Time × Option Int) := do
  let (sign,s) := readSign s
  let ((year,month,day),s) ← readDate s
  match s with
  | [] => none
  | separator :: s =>
    if separator = letterT ∨ separator = space then do
      let (time,offset) ← readTime Z s
      let date ← Date.make (sign*year) month day
      some (date,time,offset)
    else none

def parseDate (s : Text) : Option Date := do
  let (sign,s) := readSign s
  let ((year,month,day),s) ← readDate s
  if s = [] then Date.make (sign*year) month day else none

/-- An offset is read and forgotten. -/
def parseTime (s : Text) : Option Time :=
  (readTime Z (if s.head? = some letterT then s.tail else s)).map Prod.fst

def parseNaive (s : Text) : Option (Date × Time) :=
  (readMoment Z s).map fun r => (r.1,r.2.1)

def parseUtc (s : Text) : Option (Date × Time) :=
  (readMoment Z s).bind fun r =>
    match r.2.2 with
    | none => none
    | some offset => Z.shift offset (r.1,r.2.1)

end Reading

section RoundTrip

theorem readDate_append {year month day : Nat} (hyear : year < 10^4) (hmonth : month < 10^2)
    (hday : day < 10^2) (rest : Text) :
    readDate (zeroPad 4 year ++ hyphen :: (zeroPad 2 month ++ hyphen :: (zeroPad 2 day ++ rest))) =
      some ((year,month,day),rest) := by
  simp [readDate,readNumber_zeroPad _ hyear,readNumber_zeroPad _ hmonth,readNumber_zeroPad _ hday]

theorem readClock_append {hour minute second : Nat} (hhour : hour < 10^2)
    (hminute : minute < 10^2) (hsecond : second < 10^2) (rest : Text) :
    readClock (zeroPad 2 hour ++ colon ::
      (zeroPad 2 minute ++ colon :: (zeroPad 2 second ++ rest))) =
      some ((hour,minute,second),rest) := by
  simp [readClock,readNumber_zeroPad _ hhour,readNumber_zeroPad _ hminute,
    readNumber_zeroPad _ hsecond]

/-- No digit that is not zero stands behind the precision. -/
def Time.Canonical (t : Time) : Prop := t.microsecond % 10^(6 - t.precision) = 0

instance (t : Time) : Decidable t.Canonical := inferInstanceAs (Decidable (_ = _))

def Ending (rest : Text) : Prop := rest = [] ∨ rest = [letterZ]

theorem takeWhile_ending {ds rest : Text} (hds : ∀ b ∈ ds, isDigit b = true)
    (hrest : Ending rest) :
    (ds ++ rest).takeWhile isDigit = ds ∧ (ds ++ rest).dropWhile isDigit = rest := by
  have hnone : rest.takeWhile isDigit = [] ∧ rest.dropWhile isDigit = rest := by
    obtain rfl | rfl := hrest
    · exact ⟨rfl,rfl⟩
    · exact ⟨rfl,rfl⟩
  rw [List.takeWhile_append_of_pos hds,List.dropWhile_append_of_pos hds,hnone.1,hnone.2,
    List.append_nil]
  exact ⟨rfl,rfl⟩

theorem number_fraction {t : Time} (ht : t.Canonical) :
    number (((zeroPad 6 t.microsecond).take t.precision ++ List.replicate 6 zero).take 6) =
      t.microsecond := by
  obtain ⟨-,-,-,hmicrosecond,hprecision⟩ := t.valid
  have hlength : (zeroPad 6 t.microsecond).length = 6 :=
    length_zeroPad (by decide) (by omega)
  have hkept : ((zeroPad 6 t.microsecond).take t.precision ++ List.replicate 6 zero).take 6 =
      (zeroPad 6 t.microsecond).take t.precision ++
        List.replicate ((zeroPad 6 t.microsecond).length - t.precision) zero := by
    rw [List.take_append,List.take_of_length_le (by rw [List.length_take]; omega),
      List.take_replicate,List.length_take,hlength]
    congr 2
    omega
  rw [hkept,number_take (isDigit_zeroPad 6 t.microsecond),number_zeroPad]
  rw [number_zeroPad,hlength]
  exact ht

theorem readMicrosecond_fraction {t : Time} (ht : t.Canonical) {rest : Text}
    (hrest : Ending rest) :
    readMicrosecond (t.fraction ++ rest) = some ((t.microsecond,t.precision),rest) := by
  obtain ⟨-,-,-,hmicrosecond,hprecision⟩ := t.valid
  unfold Time.fraction
  by_cases hzero : t.precision = 0
  · have hmicro : t.microsecond = 0 := by
      have hmod := ht
      rw [Time.Canonical,hzero,Nat.mod_eq_of_lt (by omega)] at hmod
      exact hmod
    rw [if_pos hzero,List.nil_append,hmicro,hzero]
    obtain rfl | rfl := hrest
    · rfl
    · rfl
  · have hlength : (zeroPad 6 t.microsecond).length = 6 :=
      length_zeroPad (by decide) (by omega)
    have htake : ((zeroPad 6 t.microsecond).take t.precision).length = t.precision := by
      rw [List.length_take,hlength]
      omega
    have hne : (zeroPad 6 t.microsecond).take t.precision ≠ [] := by
      intro hnil
      rw [hnil] at htake
      exact hzero htake.symm
    have hdigits : ∀ b ∈ (zeroPad 6 t.microsecond).take t.precision, isDigit b = true :=
      fun b hb => isDigit_zeroPad 6 t.microsecond b (List.mem_of_mem_take hb)
    obtain ⟨htaken,hdropped⟩ := takeWhile_ending hdigits hrest
    simp only [if_neg hzero,List.cons_append,readMicrosecond,true_or,if_true,htaken,hdropped,
      if_neg hne,number_fraction ht,htake]
    rw [Nat.min_eq_left hprecision]

variable (Z : Zone)

theorem readTime_toText {t : Time} (ht : t.Canonical) {rest : Text} (hrest : Ending rest) :
    readTime Z (t.toText ++ rest) = (Z.offset rest).map fun offset => (t,offset) := by
  obtain ⟨hhour,hminute,hsecond,-⟩ := t.valid
  have hclock : readClock (zeroPad 2 t.hour ++ colon :: (zeroPad 2 t.minute ++
      colon :: (zeroPad 2 t.second ++ (t.fraction ++ rest)))) =
      some ((t.hour,t.minute,t.second),t.fraction ++ rest) :=
    readClock_append (by omega) (by omega) (by omega) _
  have htext : t.toText ++ rest = zeroPad 2 t.hour ++ colon :: (zeroPad 2 t.minute ++
      colon :: (zeroPad 2 t.second ++ (t.fraction ++ rest))) := by
    simp [Time.toText]
  rw [readTime,htext,hclock]
  simp only [Option.bind_eq_bind,Option.bind_some,readMicrosecond_fraction ht hrest,Time.make_eq]
  cases Z.offset rest <;> rfl

def Date.Short (d : Date) : Prop := d.year.natAbs ≤ 9999

instance (d : Date) : Decidable d.Short := inferInstanceAs (Decidable (_ ≤ _))

theorem digit_ne {b c : UInt8} (hb : isDigit b = true) (hc : isDigit c = false) : b ≠ c := by
  rintro rfl
  rw [hb] at hc
  cases hc

theorem zeroPad_cons (count n : Nat) :
    ∃ b ds, zeroPad count n = b :: ds ∧ isDigit b = true := by
  cases hpad : zeroPad count n with
  | nil => simp [zeroPad,digits] at hpad
  | cons b ds =>
    exact ⟨b,ds,rfl,isDigit_zeroPad count n b (by rw [hpad]; exact List.mem_cons_self)⟩

theorem readSign_zeroPad (count n : Nat) (rest : Text) :
    readSign (zeroPad count n ++ rest) = (1,zeroPad count n ++ rest) := by
  obtain ⟨b,ds,hpad,hb⟩ := zeroPad_cons count n
  rw [hpad,List.cons_append,readSign,if_neg (digit_ne hb (by decide)),
    if_neg (digit_ne hb (by decide))]

theorem readSign_toText (d : Date) (rest : Text) :
    readSign (d.toText ++ rest) = (if d.year < 0 then -1 else 1,
      zeroPad 4 d.year.natAbs ++ hyphen ::
        (zeroPad 2 d.month ++ hyphen :: (zeroPad 2 d.day ++ rest))) := by
  have hcut : ∀ head : Text, (head ++ (zeroPad 4 d.year.natAbs ++ hyphen ::
      (zeroPad 2 d.month ++ hyphen :: zeroPad 2 d.day))) ++ rest =
      head ++ (zeroPad 4 d.year.natAbs ++ hyphen ::
        (zeroPad 2 d.month ++ hyphen :: (zeroPad 2 d.day ++ rest))) := by simp
  rw [Date.toText,hcut]
  by_cases hneg : d.year < 0
  · rw [if_pos hneg,if_pos hneg]
    rfl
  · rw [if_neg hneg,if_neg hneg,List.nil_append,readSign_zeroPad]

theorem readDate_toText {d : Date} (hd : d.Short) (rest : Text) :
    ∃ sign year, readSign (d.toText ++ rest) = (sign,(readSign (d.toText ++ rest)).2) ∧
      readDate (readSign (d.toText ++ rest)).2 = some ((year,d.month,d.day),rest) ∧
      sign * year = d.year := by
  obtain ⟨-,hmonth,-⟩ := d.valid
  have hday := d.day_le
  have hyear : d.year.natAbs < 10^4 := Nat.lt_succ_of_le hd
  refine ⟨if d.year < 0 then -1 else 1,d.year.natAbs,?_,?_,?_⟩
  · rw [readSign_toText]
  · rw [readSign_toText]
    exact readDate_append hyear (by omega) (by omega) rest
  · split_ifs <;> omega

theorem parseDate_toText {d : Date} (hd : d.Short) : parseDate d.toText = some d := by
  obtain ⟨sign,year,hsign,hread,hyear⟩ := readDate_toText hd []
  rw [List.append_nil] at hsign hread
  rw [parseDate,hsign]
  simp only [hread,Option.bind_eq_bind,Option.bind_some,if_true,hyear,Date.make_eq]

theorem parseTime_toText {t : Time} (ht : t.Canonical) : parseTime Z t.toText = some t := by
  have hread : readTime Z (t.toText ++ []) = (Z.offset []).map fun offset => (t,offset) :=
    readTime_toText Z ht (.inl rfl)
  have hhead : ¬t.toText.head? = some letterT := by
    obtain ⟨b,ds,hpad,hb⟩ := zeroPad_cons 2 t.hour
    simp only [Time.toText,hpad,List.cons_append,List.head?_cons,Option.some.injEq]
    exact digit_ne hb (by decide)
  rw [List.append_nil,Z.offset_nil] at hread
  rw [parseTime,if_neg hhead,hread]
  rfl

theorem readMoment_toText {d : Date} (hd : d.Short) {t : Time} (ht : t.Canonical) {rest : Text}
    (hrest : Ending rest) :
    readMoment Z (naiveToText d t ++ rest) = (Z.offset rest).map fun offset => (d,t,offset) := by
  have htext : naiveToText d t ++ rest = d.toText ++ letterT :: (t.toText ++ rest) := by
    simp [naiveToText]
  obtain ⟨sign,year,hsign,hread,hyear⟩ := readDate_toText hd (letterT :: (t.toText ++ rest))
  rw [readMoment,htext,hsign]
  simp only [hread,Option.bind_eq_bind,Option.bind_some,true_or,if_true,
    readTime_toText Z ht hrest,hyear,Date.make_eq]
  cases Z.offset rest <;> rfl

theorem parseNaive_toText {d : Date} (hd : d.Short) {t : Time} (ht : t.Canonical) {rest : Text}
    (hrest : Ending rest) : parseNaive Z (naiveToText d t ++ rest) = some (d,t) := by
  rw [parseNaive,readMoment_toText Z hd ht hrest]
  obtain rfl | rfl := hrest
  · rw [Z.offset_nil]
    rfl
  · rw [Z.offset_zulu]
    rfl

theorem parseUtc_zulu {d : Date} (hd : d.Short) {t : Time} (ht : t.Canonical) :
    parseUtc Z (naiveToText d t ++ [letterZ]) = some (d,t) := by
  rw [parseUtc,readMoment_toText Z hd ht (.inr rfl),Z.offset_zulu]
  exact Z.shift_zero (d,t)

theorem parseUtc_naive {d : Date} (hd : d.Short) {t : Time} (ht : t.Canonical) :
    parseUtc Z (naiveToText d t) = none := by
  have hread : readMoment Z (naiveToText d t ++ []) = (Z.offset []).map fun o => (d,t,o) :=
    readMoment_toText Z hd ht (.inl rfl)
  rw [List.append_nil,Z.offset_nil] at hread
  rw [parseUtc,hread]
  rfl

end RoundTrip

/-! No text of one kind is read as another. -/

section Apart
variable (Z : Zone)

theorem readNumber_drop {count n : Nat} {s rest : Text} (h : readNumber count s = some (n,rest)) :
    rest = s.drop count := by
  unfold readNumber at h
  split at h
  · exact (Prod.mk.inj (Option.some.inj h)).2.symm
  · cases h

theorem readClock_eq_none {s : Text} (h : s[2]? ≠ some colon) : readClock s = none := by
  rw [readClock]
  cases hread : readNumber 2 s with
  | none => rfl
  | some r =>
    obtain ⟨hour,rest⟩ := r
    obtain rfl := readNumber_drop hread
    have hcolon : expect colon (s.drop 2) = none := by
      cases hrest : s.drop 2 with
      | nil => rfl
      | cons b rest =>
        have hb : s[2]? = some b := by
          rw [← List.head?_drop,hrest]
          rfl
        refine if_neg fun hcolon => h ?_
        rw [hb,hcolon]
    simp only [Option.bind_eq_bind,Option.bind_some,hcolon,Option.bind_none]

theorem digit_toText {d : Date} (hd : d.Short) (rest : Text) :
    ∃ b, (d.toText ++ rest)[2]? = some b ∧ isDigit b = true := by
  have hlength : (zeroPad 4 d.year.natAbs).length = 4 :=
    length_zeroPad (by decide) (Nat.lt_succ_of_le hd)
  match hpad : zeroPad 4 d.year.natAbs, hlength with
  | [a,b,c,e], _ =>
    have hall := isDigit_zeroPad 4 d.year.natAbs
    rw [hpad] at hall
    unfold Date.toText
    rw [hpad]
    by_cases hneg : d.year < 0
    · exact ⟨b,by simp [hneg],hall b (by simp)⟩
    · exact ⟨c,by simp [hneg],hall c (by simp)⟩

theorem parseTime_date {d : Date} (hd : d.Short) (rest : Text) :
    parseTime Z (d.toText ++ rest) = none := by
  obtain ⟨b,hb,hdigit⟩ := digit_toText hd rest
  have hhead : ¬(d.toText ++ rest).head? = some letterT := by
    obtain ⟨c,ds,hpad,hc⟩ := zeroPad_cons 4 d.year.natAbs
    unfold Date.toText
    rw [hpad]
    by_cases hneg : d.year < 0
    · simp [hneg,hyphen,letterT]
    · simpa [hneg] using digit_ne hc (by decide)
  have hclock : readClock (d.toText ++ rest) = none := by
    refine readClock_eq_none ?_
    rw [hb]
    simpa using digit_ne hdigit (by decide)
  rw [parseTime,if_neg hhead,readTime,hclock]
  rfl

theorem readDate_time (t : Time) (rest : Text) :
    readSign (t.toText ++ rest) = (1,t.toText ++ rest) ∧ readDate (t.toText ++ rest) = none := by
  obtain ⟨hhour,-⟩ := t.valid
  have htext : t.toText ++ rest = zeroPad 2 t.hour ++ (colon :: (zeroPad 2 t.minute ++
      colon :: (zeroPad 2 t.second ++ t.fraction)) ++ rest) := by
    simp [Time.toText]
  have hlength : (zeroPad 2 t.hour).length = 2 := length_zeroPad (by decide) (by omega)
  rw [htext]
  refine ⟨readSign_zeroPad 2 t.hour _,?_⟩
  have hnone : readNumber 4 (zeroPad 2 t.hour ++ (colon :: (zeroPad 2 t.minute ++
      colon :: (zeroPad 2 t.second ++ t.fraction)) ++ rest)) = none := by
    refine readNumber_eq_none (b := colon) ?_ (by decide)
    rw [List.take_append,hlength,List.cons_append]
    exact List.mem_append_right _ List.mem_cons_self
  rw [readDate,hnone]
  rfl

theorem parseDate_time (t : Time) : parseDate t.toText = none := by
  obtain ⟨hsign,hread⟩ := readDate_time t []
  rw [List.append_nil] at hsign hread
  rw [parseDate,hsign]
  simp only [hread,Option.bind_eq_bind,Option.bind_none]

theorem readMoment_time (t : Time) : readMoment Z t.toText = none := by
  obtain ⟨hsign,hread⟩ := readDate_time t []
  rw [List.append_nil] at hsign hread
  rw [readMoment,hsign]
  simp only [hread,Option.bind_eq_bind,Option.bind_none]

theorem readMoment_date {d : Date} (hd : d.Short) : readMoment Z d.toText = none := by
  obtain ⟨sign,year,hsign,hread,-⟩ := readDate_toText hd []
  rw [List.append_nil] at hsign hread
  rw [readMoment,hsign]
  simp only [hread,Option.bind_eq_bind,Option.bind_some]

theorem parseDate_moment {d : Date} (hd : d.Short) (t : Time) (rest : Text) :
    parseDate (naiveToText d t ++ rest) = none := by
  have htext : naiveToText d t ++ rest = d.toText ++ letterT :: (t.toText ++ rest) := by
    simp [naiveToText]
  obtain ⟨sign,year,hsign,hread,-⟩ := readDate_toText hd (letterT :: (t.toText ++ rest))
  rw [parseDate,htext,hsign]
  simp only [hread,Option.bind_eq_bind,Option.bind_some,List.cons_ne_nil,if_false]

end Apart

section Lengths

theorem length_date {d : Date} (hd : d.Short) :
    d.toText.length = 10 ∨ d.toText.length = 11 := by
  obtain ⟨-,hmonth,-⟩ := d.valid
  have hday := d.day_le
  have hy : (zeroPad 4 d.year.natAbs).length = 4 :=
    length_zeroPad (by decide) (Nat.lt_succ_of_le hd)
  have hm : (zeroPad 2 d.month).length = 2 := length_zeroPad (by decide) (by omega)
  have hd : (zeroPad 2 d.day).length = 2 := length_zeroPad (by decide) (by omega)
  unfold Date.toText
  simp only [List.length_append,List.length_cons,hy,hm,hd]
  split_ifs
  · right
    rfl
  · left
    rfl

theorem length_time (t : Time) : 8 ≤ t.toText.length ∧ t.toText.length ≤ 15 := by
  obtain ⟨hhour,hminute,hsecond,hmicrosecond,hprecision⟩ := t.valid
  have hh : (zeroPad 2 t.hour).length = 2 := length_zeroPad (by decide) (by omega)
  have hm : (zeroPad 2 t.minute).length = 2 := length_zeroPad (by decide) (by omega)
  have hs : (zeroPad 2 t.second).length = 2 := length_zeroPad (by decide) (by omega)
  have hf : t.fraction.length ≤ 7 := by
    unfold Time.fraction
    split_ifs
    · simp
    · rw [List.length_cons,List.length_take]
      omega
  simp only [Time.toText,List.length_append,List.length_cons,hh,hm,hs]
  omega

theorem length_readNumber {count n : Nat} {s rest : Text}
    (h : readNumber count s = some (n,rest)) : s.length = count + rest.length := by
  rw [readNumber_drop h,List.length_drop]
  unfold readNumber at h
  split at h
  · next hread =>
    have htaken := hread.1
    rw [List.length_take] at htaken
    omega
  · cases h

theorem length_expect {b : UInt8} {s rest : Text} (h : expect b s = some rest) :
    s.length = rest.length + 1 := by
  cases s with
  | nil => cases h
  | cons c s =>
    by_cases hc : c = b
    · rw [expect,if_pos hc] at h
      cases h
      rfl
    · rw [expect,if_neg hc] at h
      cases h

theorem length_readDate {s rest : Text} {r : Nat × Nat × Nat} (h : readDate s = some (r,rest)) :
    s.length = 10 + rest.length := by
  simp only [readDate,Option.bind_eq_bind,Option.bind_eq_some_iff,Prod.exists] at h
  obtain ⟨_,_,hy,_,hh,_,_,hm,_,hh',_,_,hd,hrest⟩ := h
  cases hrest
  have hy := length_readNumber hy
  have hh := length_expect hh
  have hm := length_readNumber hm
  have hh' := length_expect hh'
  have hd := length_readNumber hd
  omega

theorem length_readClock {s rest : Text} {r : Nat × Nat × Nat} (h : readClock s = some (r,rest)) :
    s.length = 8 + rest.length := by
  simp only [readClock,Option.bind_eq_bind,Option.bind_eq_some_iff,Prod.exists] at h
  obtain ⟨_,_,hh,_,hc,_,_,hm,_,hc',_,_,hs,hrest⟩ := h
  cases hrest
  have hh := length_readNumber hh
  have hc := length_expect hc
  have hm := length_readNumber hm
  have hc' := length_expect hc'
  have hs := length_readNumber hs
  omega

theorem length_readSign (s : Text) :
    (readSign s).2.length ≤ s.length ∧ s.length ≤ (readSign s).2.length + 1 := by
  cases s with
  | nil => exact ⟨le_rfl,Nat.le_succ _⟩
  | cons b rest =>
    rw [readSign]
    split_ifs <;> simp

theorem length_parseDate {s : Text} {d : Date} (h : parseDate s = some d) :
    s.length = 10 ∨ s.length = 11 := by
  have hsign := length_readSign s
  simp only [parseDate,Option.bind_eq_bind,Option.bind_eq_some_iff,Prod.exists] at h
  obtain ⟨_,_,_,rest,hread,hmake⟩ := h
  have hlength := length_readDate hread
  split at hmake
  · next hnil =>
    rw [hnil,List.length_nil] at hlength
    omega
  · cases hmake

theorem length_readMoment {Z : Zone} {s : Text} {r : Date × Time × Option Int}
    (h : readMoment Z s = some r) : 19 ≤ s.length := by
  have hsign := length_readSign s
  simp only [readMoment,Option.bind_eq_bind,Option.bind_eq_some_iff,Prod.exists] at h
  obtain ⟨_,_,_,rest,hread,htail⟩ := h
  have hlength := length_readDate hread
  cases rest with
  | nil => cases htail
  | cons separator rest =>
    simp only at htail
    split at htail
    · simp only [readTime,Option.bind_eq_bind,Option.bind_eq_some_iff,Prod.exists] at htail
      obtain ⟨_,_,⟨_,_,_,clock,hclock,-⟩,-⟩ := htail
      have hclock := length_readClock hclock
      rw [List.length_cons] at hlength
      omega
    · cases htail

end Lengths

/-! The first byte already tells that a text is none of these. -/

section Heads
variable {b : UInt8}

theorem readNumber_head {count : Nat} (hcount : 0 < count) (hb : isDigit b = false) (s : Text) :
    readNumber count (b :: s) = none := by
  refine readNumber_eq_none (b := b) ?_ hb
  obtain ⟨k,rfl⟩ := Nat.exists_eq_add_of_lt hcount
  rw [Nat.zero_add,List.take_succ_cons]
  exact List.mem_cons_self

theorem readDate_head (hb : isDigit b = false) (hhyphen : b ≠ hyphen) (hplus : b ≠ plus)
    (s : Text) : readSign (b :: s) = (1,b :: s) ∧ readDate (b :: s) = none := by
  refine ⟨by rw [readSign,if_neg hhyphen,if_neg hplus],?_⟩
  rw [readDate,readNumber_head (by decide) hb]
  rfl

theorem parseDate_head (hb : isDigit b = false) (hhyphen : b ≠ hyphen) (hplus : b ≠ plus)
    (s : Text) : parseDate (b :: s) = none := by
  obtain ⟨hsign,hread⟩ := readDate_head hb hhyphen hplus s
  rw [parseDate,hsign]
  simp only [hread,Option.bind_eq_bind,Option.bind_none]

theorem readMoment_head (Z : Zone) (hb : isDigit b = false) (hhyphen : b ≠ hyphen)
    (hplus : b ≠ plus) (s : Text) : readMoment Z (b :: s) = none := by
  obtain ⟨hsign,hread⟩ := readDate_head hb hhyphen hplus s
  rw [readMoment,hsign]
  simp only [hread,Option.bind_eq_bind,Option.bind_none]

theorem parseTime_head (Z : Zone) (hb : isDigit b = false) (hT : b ≠ letterT) (s : Text) :
    parseTime Z (b :: s) = none := by
  have hhead : ¬(b :: s).head? = some letterT := by simpa using hT
  rw [parseTime,if_neg hhead,readTime,readClock,readNumber_head (by decide) hb]
  rfl

theorem head_date (d : Date) :
    ∃ b s, d.toText = b :: s ∧ (isDigit b = true ∨ b = hyphen) := by
  obtain ⟨b,ds,hpad,hb⟩ := zeroPad_cons 4 d.year.natAbs
  unfold Date.toText
  rw [hpad]
  split_ifs
  · exact ⟨hyphen,_,rfl,.inr rfl⟩
  · exact ⟨b,_,rfl,.inl hb⟩

theorem head_time (t : Time) : ∃ b s, t.toText = b :: s ∧ isDigit b = true := by
  obtain ⟨b,ds,hpad,hb⟩ := zeroPad_cons 2 t.hour
  unfold Time.toText
  rw [hpad]
  exact ⟨b,_,rfl,hb⟩

end Heads

end Iso8601

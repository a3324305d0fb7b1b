import Xqlite.Lib.Gregorian
import Xqlite.Lib.MixedFraction
import Xqlite.Params
set_option autoImplicit false

/-! The type extensions that make integers: `DateTime` to nanoseconds since 1970, `Duration`
to nanoseconds. Elixir's integers have no bounds, those that can be bound have 64 bits.
`none` is `:skip`. -/

namespace Xqlite.Instants
open Gregorian MixedFraction

section Calendars

/-- A datetime without a time zone; the microseconds come with their precision. -/
structure Naive where
  year : Int
  month : Int
  day : Int
  hour : Int
  minute : Int
  second : Int
  microsecond : Int × Nat
  deriving DecidableEq, Repr

/-- An Elixir calendar. Its day count goes from the first day of the ISO calendar's year 0,
with the fraction of the day that has passed. -/
structure Calendar where
  valid : Naive → Bool
  naiveDatetimeToIsoDays : Naive → Mixed
  proper : ∀ t, valid t = true → (naiveDatetimeToIsoDays t).Proper

def partsPerDay : Int := 86400000000

namespace Iso

def dateToIsoDays (year month day : Int) : Int :=
  if year = 0 ∧ month = 1 ∧ day = 1 then 0
  else if year = 1970 ∧ month = 1 ∧ day = 1 then 719528
  else dayNumber year month day

def timeToDayFraction (hour minute second : Int) (microsecond : Int × Nat) : Int × Int :=
  if hour = 0 ∧ minute = 0 ∧ second = 0 ∧ microsecond.1 = 0 then (0,partsPerDay)
  else ((hour*3600+minute*60+second)*1000000+microsecond.1,partsPerDay)

def naiveDatetimeToIsoDays (t : Naive) : Mixed :=
  let fraction := timeToDayFraction t.hour t.minute t.second t.microsecond
  ⟨dateToIsoDays t.year t.month t.day,fraction.1,fraction.2⟩

def valid (t : Naive) : Bool :=
  (1 ≤ t.month && t.month ≤ 12 && 1 ≤ t.day && t.day ≤ daysInMonth t.year t.month) &&
  (0 ≤ t.hour && t.hour ≤ 23 && 0 ≤ t.minute && t.minute ≤ 59 && 0 ≤ t.second &&
    t.second ≤ 59 && 0 ≤ t.microsecond.1 && t.microsecond.1 ≤ 999999 && t.microsecond.2 ≤ 6)

theorem dateToIsoDays_eq (year month day : Int) :
    dateToIsoDays year month day = dayNumber year month day := by
  unfold dateToIsoDays
  split_ifs with hzero hepoch
  · obtain ⟨rfl,rfl,rfl⟩ := hzero
    rfl
  · obtain ⟨rfl,rfl,rfl⟩ := hepoch
    rfl
  · rfl

theorem naiveDatetimeToIsoDays_eq (t : Naive) :
    naiveDatetimeToIsoDays t = ⟨dayNumber t.year t.month t.day,
      (t.hour*3600+t.minute*60+t.second)*1000000+t.microsecond.1,partsPerDay⟩ := by
  simp only [naiveDatetimeToIsoDays,dateToIsoDays_eq,timeToDayFraction]
  split_ifs with hmidnight
  · obtain ⟨hhour,hminute,hsecond,hmicrosecond⟩ := hmidnight
    rw [hhour,hminute,hsecond,hmicrosecond]
    rfl
  · rfl

theorem proper (t : Naive) (h : valid t = true) : (naiveDatetimeToIsoDays t).Proper := by
  simp only [valid,Bool.and_eq_true,decide_eq_true_eq] at h
  rw [naiveDatetimeToIsoDays_eq]
  refine ⟨?_,?_⟩
  · dsimp only
    omega
  · dsimp only [partsPerDay]
    omega

end Iso

/-- `Calendar.ISO`. -/
def iso : Calendar := ⟨Iso.valid,Iso.naiveDatetimeToIsoDays,Iso.proper⟩

end Calendars

structure DateTime where
  calendar : Calendar
  naive : Naive
  utcOffset : Int
  stdOffset : Int
  valid : calendar.valid naive = true

section Source

def unixDays : Int := 719528

def DateTime.toIsoDays (dt : DateTime) : Mixed := dt.calendar.naiveDatetimeToIsoDays dt.naive

/-- `erlang:convert_time_unit`, with the units as parts of a second. -/
def convertTimeUnit (time fromUnit toUnit : Int) : Int :=
  if time < 0 then (toUnit*time-(fromUnit-1)).tdiv fromUnit else (toUnit*time).tdiv fromUnit

def divideByPartsPerDay (parts ppd : Int) : Int :=
  if ppd = partsPerDay then parts else (parts*partsPerDay).tdiv ppd

def isoDaysToUnit (x : Mixed) (unit : Int) : Int :=
  convertTimeUnit (x.whole*partsPerDay+divideByPartsPerDay x.parts x.per) 1000000 unit

def DateTime.toUnix (dt : DateTime) (unit : Int) : Int :=
  isoDaysToUnit { dt.toIsoDays with whole := dt.toIsoDays.whole-unixDays } unit-
    convertTimeUnit (dt.utcOffset+dt.stdOffset) 1 unit

def applyTzOffset (x : Mixed) (offset : Int) : Mixed :=
  if offset = 0 then x else x.add (-offset) 86400

def DateTime.utcIsoDays (dt : DateTime) : Mixed :=
  applyTzOffset dt.toIsoDays (dt.utcOffset+dt.stdOffset)

def DateTime.compare (dt dt' : DateTime) : Ordering := dt.utcIsoDays.compare dt'.utcIsoDays

structure Duration where
  year : Int
  month : Int
  week : Int
  day : Int
  hour : Int
  minute : Int
  second : Int
  microsecond : Int × Nat
  deriving DecidableEq, Repr

inductive Given where
  | dateTime (dt : DateTime)
  | duration (d : Duration)
  | term (t : Term)

def instantEncode : Given → Option Int
  | .dateTime dt => some (dt.toUnix 1000000000)
  | _ => none

def nsPerSecond : Int := 1000000000
def secondsPerWeek : Int := 604800
def secondsPerDay : Int := 86400
def secondsPerHour : Int := 3600
def secondsPerMinute : Int := 60

def durationEncode : Given → Option Int
  | .duration d =>
    if d.year = 0 ∧ d.month = 0 then
      let seconds := d.week*secondsPerWeek+d.day*secondsPerDay+d.hour*secondsPerHour+
        d.minute*secondsPerMinute+d.second
      some (seconds*nsPerSecond+d.microsecond.1*1000)
    else none
  | _ => none

end Source

section Specification

def DateTime.days (dt : DateTime) : ℚ := dt.toIsoDays.value-(dt.utcOffset+dt.stdOffset)/86400

def DateTime.nanoseconds (dt : DateTime) : ℚ := (dt.days-unixDays)*86400*10^9

/-- Years and months have no length of their own and are left out. -/
def Duration.microseconds (d : Duration) : Int :=
  ((((d.week*7+d.day)*24+d.hour)*60+d.minute)*60+d.second)*10^6+d.microsecond.1

def Duration.nanoseconds (d : Duration) : ℚ := d.microseconds*1000

/-- Either nothing is claimed, or the exact number, which can be bound. -/
def Storable (encoded : Option Int) (nanoseconds : ℚ) : Prop :=
  encoded = none ∨ ∃ n : Int, encoded = some n ∧ -2^63 ≤ n ∧ n < 2^63 ∧ n = nanoseconds ∧
    elixirTermToRusqliteValue (.int n) = .ok (.integer n)

def DateTime.WholeMicroseconds (dt : DateTime) : Prop :=
  dt.toIsoDays.per ∣ dt.toIsoDays.parts*partsPerDay

def earliest : DateTime := ⟨iso,⟨1677,9,21,0,12,43,(145225,6)⟩,0,0,rfl⟩

def latest : DateTime := ⟨iso,⟨2262,4,11,23,47,16,(854775,6)⟩,0,0,rfl⟩

def longest : Duration := ⟨0,0,0,106751,23,47,16,(854775,6)⟩

end Specification

section Units
variable {time fromUnit : Int}

theorem convertTimeUnit_eq {toUnit : Int} (hfrom : 0 < fromUnit) (hto : 0 ≤ toUnit) :
    convertTimeUnit time fromUnit toUnit = toUnit*time/fromUnit := by
  unfold convertTimeUnit
  split_ifs with htime
  · have hneg : toUnit*time ≤ 0 := mul_nonpos_of_nonneg_of_nonpos hto htime.le
    generalize toUnit*time = x at hneg ⊢
    have hdivision := Int.mul_tdiv_add_tmod (x-(fromUnit-1)) fromUnit
    have hlow := Int.lt_tmod_of_pos (x-(fromUnit-1)) hfrom
    have hhigh := Int.tmod_nonneg (a := -(x-(fromUnit-1))) fromUnit (by omega)
    rw [Int.neg_tmod] at hhigh
    -- The remainder that rounding down leaves, from the one of the truncated division.
    have hrest : (x-(fromUnit-1)).tmod fromUnit+fromUnit-1+
        fromUnit*(x-(fromUnit-1)).tdiv fromUnit = x := by omega
    exact ((Int.ediv_emod_unique hfrom).mpr ⟨hrest,by omega,by omega⟩).1.symm
  · exact Int.tdiv_eq_ediv_of_nonneg (mul_nonneg hto (not_lt.mp htime))

theorem convertTimeUnit_mul {k : Int} (hfrom : 0 < fromUnit) (hk : 0 ≤ k) :
    convertTimeUnit time fromUnit (fromUnit*k) = k*time := by
  rw [convertTimeUnit_eq hfrom (mul_nonneg hfrom.le hk),mul_assoc,
    Int.mul_ediv_cancel_left _ hfrom.ne']

end Units

section Instant
variable {dt dt' : DateTime}

theorem DateTime.proper (dt : DateTime) : dt.toIsoDays.Proper := dt.calendar.proper _ dt.valid

def DateTime.unixMicroseconds (dt : DateTime) : Int :=
  (dt.toIsoDays.whole-unixDays)*partsPerDay+
    divideByPartsPerDay dt.toIsoDays.parts dt.toIsoDays.per-(dt.utcOffset+dt.stdOffset)*1000000

theorem DateTime.toUnix_eq (dt : DateTime) : dt.toUnix 1000000000 = 1000*dt.unixMicroseconds := by
  have hunit (time : Int) : convertTimeUnit time 1000000 1000000000 = 1000*time :=
    convertTimeUnit_mul (k := 1000) (by decide) (by decide)
  have hsecond (time : Int) : convertTimeUnit time 1 1000000000 = 1000000000*time :=
    convertTimeUnit_mul (k := 1000000000) (by decide) (by decide)
  rw [DateTime.toUnix,isoDaysToUnit,hunit,hsecond,DateTime.unixMicroseconds]
  ring

theorem divideByPartsPerDay_exact_iff {parts ppd : Int} (h : 0 < ppd) :
    (divideByPartsPerDay parts ppd : ℚ) = parts/ppd*partsPerDay ↔ ppd ∣ parts*partsPerDay := by
  have hppd : (ppd : ℚ) ≠ 0 := by exact_mod_cast h.ne'
  unfold divideByPartsPerDay
  split_ifs with hsame
  · refine iff_of_true ?_ (hsame ▸ dvd_mul_left ppd parts)
    rw [← hsame,div_mul_cancel₀ _ hppd]
  · rw [div_mul_eq_mul_div,eq_div_iff hppd]
    constructor
    · intro heq
      have hproduct : (parts*partsPerDay).tdiv ppd*ppd = parts*partsPerDay := by exact_mod_cast heq
      exact ⟨_,(mul_comm _ _).trans hproduct |>.symm⟩
    · intro hdvd
      exact_mod_cast Int.tdiv_mul_cancel hdvd

theorem DateTime.toUnix_exact_iff (dt : DateTime) :
    (dt.toUnix 1000000000 : ℚ) = dt.nanoseconds ↔ dt.WholeMicroseconds := by
  rw [DateTime.WholeMicroseconds,← divideByPartsPerDay_exact_iff dt.proper.pos,dt.toUnix_eq,
    DateTime.nanoseconds,DateTime.days,Mixed.value,DateTime.unixMicroseconds]
  have hday : (partsPerDay : ℚ) = 86400000000 := by norm_num [partsPerDay]
  push_cast
  rw [hday]
  constructor
  · intro heq
    linarith
  · intro heq
    rw [heq]
    ring

theorem DateTime.utcIsoDays_spec (dt : DateTime) :
    dt.utcIsoDays.Proper ∧ dt.utcIsoDays.value = dt.days := by
  unfold DateTime.utcIsoDays applyTzOffset DateTime.days
  split_ifs with hzero
  · have hrat : (dt.utcOffset+dt.stdOffset : ℚ) = 0 := by exact_mod_cast hzero
    exact ⟨dt.proper,by rw [hrat,zero_div,sub_zero]⟩
  · have hday : (0 : Int) < 86400 := by decide
    refine ⟨(Mixed.add_spec dt.proper hday).1,(Mixed.add_spec dt.proper hday).2.trans ?_⟩
    push_cast
    ring

theorem DateTime.nanoseconds_lt : dt.nanoseconds < dt'.nanoseconds ↔ dt.days < dt'.days := by
  unfold DateTime.nanoseconds
  constructor
  · intro h
    linarith
  · intro h
    linarith

theorem DateTime.compare_lt : dt.compare dt' = .lt ↔ dt.nanoseconds < dt'.nanoseconds := by
  obtain ⟨hproper,hvalue⟩ := dt.utcIsoDays_spec
  obtain ⟨hproper',hvalue'⟩ := dt'.utcIsoDays_spec
  rw [DateTime.compare,Mixed.compare_lt hproper hproper',hvalue,hvalue',DateTime.nanoseconds_lt]

theorem DateTime.compare_gt : dt.compare dt' = .gt ↔ dt'.nanoseconds < dt.nanoseconds := by
  obtain ⟨hproper,hvalue⟩ := dt.utcIsoDays_spec
  obtain ⟨hproper',hvalue'⟩ := dt'.utcIsoDays_spec
  rw [DateTime.compare,Mixed.compare_gt hproper hproper',hvalue,hvalue',DateTime.nanoseconds_lt]

theorem DateTime.wholeMicroseconds_iso (h : dt.calendar = iso) : dt.WholeMicroseconds := by
  have hparts : dt.toIsoDays.per = partsPerDay := by
    rw [DateTime.toIsoDays,h]
    exact congrArg Mixed.per (Iso.naiveDatetimeToIsoDays_eq dt.naive)
  rw [DateTime.WholeMicroseconds,hparts]
  exact dvd_mul_left _ _

theorem earliest_nanoseconds : earliest.nanoseconds = -9223372036854775000 := by
  have hunix : earliest.toUnix 1000000000 = -9223372036854775000 := by decide
  rw [← earliest.toUnix_exact_iff.mpr (DateTime.wholeMicroseconds_iso rfl),hunix]
  norm_num

theorem latest_nanoseconds : latest.nanoseconds = 9223372036854775000 := by
  have hunix : latest.toUnix 1000000000 = 9223372036854775000 := by decide
  rw [← latest.toUnix_exact_iff.mpr (DateTime.wholeMicroseconds_iso rfl),hunix]
  norm_num

end Instant

theorem storable_some {n : Int} {nanoseconds : ℚ} :
    Storable (some n) nanoseconds ↔ (-2^63 ≤ n ∧ n < 2^63) ∧ n = nanoseconds := by
  unfold Storable
  constructor
  · rintro (hnone | ⟨m,hm,hlow,hhigh,hexact,-⟩)
    · cases hnone
    · cases hm
      exact ⟨⟨hlow,hhigh⟩,hexact⟩
  · rintro ⟨hrange,hexact⟩
    refine .inr ⟨n,rfl,hrange.1,hrange.2,hexact,?_⟩
    simp only [elixirTermToRusqliteValue,Term.decodeI64,if_pos hrange]

theorem microseconds_fit {k : Int} : (-2^63 ≤ 1000*k ∧ 1000*k < 2^63) ↔
    -9223372036854775000 ≤ 1000*k ∧ 1000*k ≤ 9223372036854775000 := by
  omega

theorem instant_storable_iff (dt : DateTime) :
    Storable (instantEncode (.dateTime dt)) dt.nanoseconds ↔
      dt.WholeMicroseconds ∧ dt.compare earliest ≠ .lt ∧ dt.compare latest ≠ .gt := by
  rw [instantEncode,storable_some,dt.toUnix_exact_iff,and_comm]
  refine and_congr_right fun hwhole => ?_
  have hexact := dt.toUnix_exact_iff.mpr hwhole
  rw [Ne,Ne,DateTime.compare_lt,DateTime.compare_gt,not_lt,not_lt,earliest_nanoseconds,
    latest_nanoseconds,← hexact,dt.toUnix_eq,microseconds_fit]
  exact_mod_cast Iff.rfl

theorem longest_microseconds : longest.microseconds = 9223372036854775 := by decide

theorem durationEncode_exact {d : Duration} (h : d.year = 0 ∧ d.month = 0) :
    durationEncode (.duration d) = some (1000*d.microseconds) := by
  simp only [durationEncode,if_pos h,Option.some.injEq,Duration.microseconds,nsPerSecond,
    secondsPerWeek,secondsPerDay,secondsPerHour,secondsPerMinute]
  ring

theorem duration_storable_iff (d : Duration) :
    Storable (durationEncode (.duration d)) d.nanoseconds ↔
      d.year ≠ 0 ∨ d.month ≠ 0 ∨
        -longest.microseconds ≤ d.microseconds ∧ d.microseconds ≤ longest.microseconds := by
  by_cases hexact : d.year = 0 ∧ d.month = 0
  · have hrat : ((1000*d.microseconds : ℤ) : ℚ) = d.nanoseconds := by
      rw [Duration.nanoseconds]
      push_cast
      ring
    rw [durationEncode_exact hexact,storable_some,microseconds_fit,longest_microseconds]
    simp only [hexact.1,hexact.2,ne_eq,not_true_eq_false,false_or,hrat,and_true]
    omega
  · have hskip : durationEncode (.duration d) = none := by
      simp only [durationEncode,if_neg hexact]
    rw [hskip]
    refine iff_of_true (.inl rfl) ?_
    by_cases hyear : d.year = 0
    · exact .inr (.inl fun hmonth => hexact ⟨hyear,hmonth⟩)
    · exact .inl hyear

/-- Instants claim what they can store between two moments about 292 years from 1970, and
durations up to that length. -/
theorem integer_extensions_storable_iff (dt : DateTime) (d : Duration) :
    (Storable (instantEncode (.dateTime dt)) dt.nanoseconds ↔
      dt.WholeMicroseconds ∧ dt.compare earliest ≠ .lt ∧ dt.compare latest ≠ .gt) ∧
    (Storable (durationEncode (.duration d)) d.nanoseconds ↔
      d.year ≠ 0 ∨ d.month ≠ 0 ∨
        -longest.microseconds ≤ d.microseconds ∧ d.microseconds ≤ longest.microseconds) :=
  ⟨instant_storable_iff dt,duration_storable_iff d⟩

def newYear2300 : DateTime := ⟨iso,⟨2300,1,1,0,0,0,(0,0)⟩,0,0,rfl⟩

/-- The year 2300 is claimed, and so are 107000 days; the conversion then refuses both. -/
theorem integer_extensions_out_of_range :
    ¬ Storable (instantEncode (.dateTime newYear2300)) newYear2300.nanoseconds ∧
      instantEncode (.dateTime newYear2300) = some 10413792000000000000 ∧
      elixirTermToRusqliteValue (.int 10413792000000000000) =
        .error (.cannotConvertToSqliteValue (.int 10413792000000000000) badArg) ∧
      durationEncode (.duration ⟨0,0,0,107000,0,0,0,(0,0)⟩) = some 9244800000000000000 ∧
      elixirTermToRusqliteValue (.int 9244800000000000000) =
        .error (.cannotConvertToSqliteValue (.int 9244800000000000000) badArg) := by
  have hinstant : instantEncode (.dateTime newYear2300) = some 10413792000000000000 := by decide
  refine ⟨?_,hinstant,rfl,by decide,rfl⟩
  rw [hinstant,storable_some]
  rintro ⟨⟨-,hhigh⟩,-⟩
  exact absurd hhigh (by decide)

end Xqlite.Instants

import Mathlib.Algebra.Order.Field.Basic
import Mathlib.Algebra.Order.Field.Rat
import Mathlib.Data.Rat.Cast.Order
import Mathlib.Tactic.FieldSimp
import Mathlib.Tactic.Linarith
import Mathlib.Tactic.Ring
set_option autoImplicit false

/-! Mixed fractions with any denominator: a whole part and `parts` out of `per`. They are
added and compared without leaving the integers. -/

namespace MixedFraction

structure Mixed where
  whole : Int
  parts : Int
  per : Int
  deriving DecidableEq, Repr

def Mixed.value (x : Mixed) : ℚ := x.whole+x.parts/x.per

structure Mixed.Proper (x : Mixed) : Prop where
  nonneg : 0 ≤ x.parts
  lt : x.parts < x.per

theorem Mixed.Proper.pos {x : Mixed} (h : x.Proper) : 0 < x.per := h.nonneg.trans_lt h.lt

theorem Mixed.Proper.pos_rat {x : Mixed} (h : x.Proper) : (0 : ℚ) < x.per := by
  exact_mod_cast h.pos

/-- Carries whole parts over, from a numerator of either sign. -/
def normalize (whole parts per : Int) : Mixed :=
  let rest := parts.tmod per
  if rest < 0 then ⟨whole+parts.tdiv per-1,rest+per,per⟩ else ⟨whole+parts.tdiv per,rest,per⟩

def Mixed.add (x : Mixed) (parts per : Int) : Mixed :=
  if x.per = per then normalize x.whole (x.parts+parts) per
  else
    normalize x.whole ((x.parts*per+parts*x.per).tdiv (Int.gcd x.per per))
      ((x.per*per).tdiv (Int.gcd x.per per))

/-- The whole parts first, then the fractions on one denominator. -/
def Mixed.compare (x y : Mixed) : Ordering :=
  (Ord.compare x.whole y.whole).then (Ord.compare (x.parts*y.per) (y.parts*x.per))

section Add
variable {whole parts per : Int}

theorem normalize_proper (h : 0 < per) : (normalize whole parts per).Proper := by
  have hlow := Int.lt_tmod_of_pos parts h
  have hhigh := Int.tmod_lt_of_pos parts h
  simp only [normalize]
  split_ifs with hrest
  · exact ⟨by dsimp only; omega,by dsimp only; omega⟩
  · exact ⟨by dsimp only; omega,hhigh⟩

theorem normalize_value (h : 0 < per) : (normalize whole parts per).value = whole+parts/per := by
  have hper : (per : ℚ) ≠ 0 := by exact_mod_cast h.ne'
  have hdivision : (parts : ℚ) = parts.tdiv per*per+parts.tmod per := by
    exact_mod_cast (Int.tdiv_mul_add_tmod parts per).symm
  have hquotient : (parts : ℚ)/per = parts.tdiv per+parts.tmod per/per := by
    rw [div_eq_iff hper,add_mul,div_mul_cancel₀ _ hper]
    exact hdivision
  simp only [normalize,Mixed.value,hquotient]
  split_ifs
  · push_cast
    rw [add_div,div_self hper]
    ring
  · push_cast
    ring

theorem reduced {m n p q : Int} (hp : 0 < p) (hq : 0 < q) :
    0 < (p*q).tdiv (Int.gcd p q) ∧
      ((m*q+n*p).tdiv (Int.gcd p q) : ℚ)/((p*q).tdiv (Int.gcd p q) : ℤ) = m/p+n/q := by
  have hgcd : (0 : Int) < Int.gcd p q := by exact_mod_cast Int.gcd_pos_of_ne_zero_right p hq.ne'
  obtain ⟨a,ha⟩ := Int.gcd_dvd_left p q
  obtain ⟨b,hb⟩ := Int.gcd_dvd_right p q
  generalize (Int.gcd p q : Int) = g at *
  have hapos : 0 < a := pos_of_mul_pos_right (ha ▸ hp) hgcd.le
  have hbpos : 0 < b := pos_of_mul_pos_right (hb ▸ hq) hgcd.le
  have hnumerator : (m*q+n*p).tdiv g = m*b+n*a := by
    have hproduct : m*q+n*p = (m*b+n*a)*g := by
      rw [ha,hb]
      ring
    rw [hproduct,Int.mul_tdiv_cancel _ hgcd.ne']
  have hdenominator : (p*q).tdiv g = p*b := by
    rw [hb,mul_left_comm,Int.mul_tdiv_cancel_left _ hgcd.ne']
  rw [hnumerator,hdenominator]
  refine ⟨mul_pos hp hbpos,?_⟩
  have hgrat : (g : ℚ) ≠ 0 := by exact_mod_cast hgcd.ne'
  have harat : (a : ℚ) ≠ 0 := by exact_mod_cast hapos.ne'
  have hbrat : (b : ℚ) ≠ 0 := by exact_mod_cast hbpos.ne'
  rw [ha,hb]
  push_cast
  field_simp

theorem Mixed.add_spec {x : Mixed} (hx : x.Proper) (h : 0 < per) :
    (x.add parts per).Proper ∧ (x.add parts per).value = x.value+parts/per := by
  unfold Mixed.add
  split_ifs with hsame
  · refine ⟨normalize_proper h,?_⟩
    rw [normalize_value h,Mixed.value,hsame]
    push_cast
    rw [add_div,add_assoc]
  · obtain ⟨hpos,hvalue⟩ := reduced (m := x.parts) (n := parts) hx.pos h
    refine ⟨normalize_proper hpos,?_⟩
    rw [normalize_value hpos,hvalue,Mixed.value,add_assoc]

end Add

section Order
variable {x y : Mixed}

theorem Mixed.Proper.value_bounds (h : x.Proper) :
    (x.whole : ℚ) ≤ x.value ∧ x.value < x.whole+1 := by
  have hpos := h.pos_rat
  have hnonneg : (0 : ℚ) ≤ x.parts := by exact_mod_cast h.nonneg
  have hlt : (x.parts : ℚ) < x.per := by exact_mod_cast h.lt
  have hlow : 0 ≤ (x.parts : ℚ)/x.per := div_nonneg hnonneg hpos.le
  have hhigh : (x.parts : ℚ)/x.per < 1 := (div_lt_one hpos).mpr hlt
  exact ⟨by rw [Mixed.value]; linarith,by rw [Mixed.value]; linarith⟩

/-- A smaller whole part decides, since a proper fraction cannot make up for it. -/
theorem Mixed.value_lt_of_whole (hx : x.Proper) (hy : y.Proper) (h : x.whole < y.whole) :
    x.value < y.value := by
  have hstep : (x.whole : ℚ)+1 ≤ y.whole := by exact_mod_cast h
  have hhigh := hx.value_bounds.2
  have hlow := hy.value_bounds.1
  linarith

theorem Mixed.value_lt_iff (hx : x.Proper) (hy : y.Proper) :
    x.value < y.value ↔
      x.whole < y.whole ∨ x.whole = y.whole ∧ x.parts*y.per < y.parts*x.per := by
  rcases lt_trichotomy x.whole y.whole with hlt | heq | hgt
  · exact iff_of_true (Mixed.value_lt_of_whole hx hy hlt) (.inl hlt)
  · have hfractions : (x.parts : ℚ)/x.per < y.parts/y.per ↔ x.parts*y.per < y.parts*x.per := by
      rw [div_lt_div_iff₀ hx.pos_rat hy.pos_rat]
      exact_mod_cast Iff.rfl
    rw [Mixed.value,Mixed.value,heq,add_lt_add_iff_left,hfractions]
    simp
  · refine iff_of_false (Mixed.value_lt_of_whole hy hx hgt).not_gt ?_
    rintro (hlt | ⟨heq,-⟩)
    · exact absurd hlt hgt.not_gt
    · exact absurd heq.symm hgt.ne

theorem Mixed.compare_lt (hx : x.Proper) (hy : y.Proper) :
    x.compare y = .lt ↔ x.value < y.value := by
  rw [Mixed.value_lt_iff hx hy,Mixed.compare,Ordering.then_eq_lt,Int.compare_eq_lt,
    Int.compare_eq_eq,Int.compare_eq_lt]

theorem Mixed.compare_gt (hx : x.Proper) (hy : y.Proper) :
    x.compare y = .gt ↔ y.value < x.value := by
  rw [Mixed.value_lt_iff hy hx,Mixed.compare,Ordering.then_eq_gt,Int.compare_eq_gt,
    Int.compare_eq_eq,Int.compare_eq_gt,eq_comm]

end Order

end MixedFraction

import Mathlib.Algebra.Order.Ring.Nat
import Mathlib.Data.List.TakeWhile
import Mathlib.Tactic.Ring
set_option autoImplicit false

namespace Radix

/-- The first digit is the highest. -/
def value (b : Nat) : List Nat → Nat
  | [] => 0
  | d :: ds => d * b^ds.length + value b ds

theorem value_lt {b : Nat} {ds : List Nat} (h : ∀ d ∈ ds, d < b) : value b ds < b^ds.length := by
  induction ds with
  | nil => simp [value]
  | cons d ds ih =>
    have hd := h d (by simp)
    have hds := ih fun e he => h e (List.mem_cons_of_mem _ he)
    calc d * b^ds.length + value b ds < d * b^ds.length + b^ds.length := by omega
      _ = (d+1) * b^ds.length := by ring
      _ ≤ b * b^ds.length := Nat.mul_le_mul_right _ hd
      _ = b^(d :: ds).length := by rw [List.length_cons,pow_succ]; ring

/-- Both the product and the sum of a step are checked. -/
def accumulate (limit b : Nat) : Nat → List Nat → Option Nat
  | acc, [] => some acc
  | acc, d :: ds =>
    if limit < acc*b then none
    else if limit < acc*b + d then none
    else accumulate limit b (acc*b + d) ds

/-- No partial result is larger than the whole, so the loop gives up only on numbers
beyond the limit. -/
theorem accumulate_eq {limit b acc : Nat} (hb : 0 < b) (hacc : acc ≤ limit) (ds : List Nat) :
    accumulate limit b acc ds =
      if acc * b^ds.length + value b ds ≤ limit then some (acc * b^ds.length + value b ds)
      else none := by
  induction ds generalizing acc with
  | nil => simp [accumulate,value,hacc]
  | cons d ds ih =>
    have hstep : acc * b^(d :: ds).length + value b (d :: ds) =
        (acc*b + d) * b^ds.length + value b ds := by
      simp only [List.length_cons,pow_succ,value]
      ring
    have hpow : 1 ≤ b^ds.length := Nat.one_le_pow _ _ hb
    have hgrow : acc*b + d ≤ (acc*b + d) * b^ds.length := Nat.le_mul_of_pos_right _ hpow
    rw [hstep,accumulate]
    by_cases hmul : limit < acc*b
    · rw [if_pos hmul,if_neg (by omega)]
    · rw [if_neg hmul]
      by_cases hadd : limit < acc*b + d
      · rw [if_pos hadd,if_neg (by omega)]
      · rw [if_neg hadd,ih (by omega)]

theorem accumulate_zero {limit b : Nat} (hb : 0 < b) (ds : List Nat) :
    accumulate limit b 0 ds = if value b ds ≤ limit then some (value b ds) else none := by
  simpa using accumulate_eq hb (Nat.zero_le limit) ds

def significant (ds : List Nat) : List Nat := ds.dropWhile fun d => d = 0

theorem value_significant (b : Nat) (ds : List Nat) : value b (significant ds) = value b ds := by
  induction ds with
  | nil => rfl
  | cons d ds ih =>
    by_cases hd : d = 0
    · simpa [significant,value,hd] using ih
    · simp [significant,hd]

theorem value_lt_pow_iff {b : Nat} (hb : 1 < b) {ds : List Nat} (h : ∀ d ∈ ds, d < b) (n : Nat) :
    value b ds < b^n ↔ (significant ds).length ≤ n := by
  rw [← value_significant]
  have hsig : ∀ d ∈ significant ds, d < b := fun d hd => h d ((List.dropWhile_sublist _).subset hd)
  constructor
  · intro hlt
    cases hs : significant ds with
    | nil => simp
    | cons d rest =>
      have hd : d ≠ 0 := by
        have hhead := List.head?_dropWhile_not (fun d : Nat => decide (d = 0)) ds
        simp only [significant] at hs
        simpa [hs] using hhead
      have hlow : b^rest.length ≤ d * b^rest.length :=
        Nat.le_mul_of_pos_left _ (Nat.pos_of_ne_zero hd)
      rw [hs,value] at hlt
      have hpow : b^rest.length < b^n := by omega
      exact (Nat.pow_lt_pow_iff_right hb).mp hpow
  · intro hlen
    exact (value_lt hsig).trans_le (Nat.pow_le_pow_right (by omega) hlen)

end Radix

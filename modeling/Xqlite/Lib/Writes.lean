import Mathlib.Data.List.Basic
set_option autoImplicit false

namespace Writes

variable {α : Type*}

/-- A write past the end is lost. -/
def apply : List (Nat × α) → List α → List α
  | [], cells => cells
  | (i,a) :: writes, cells => apply writes (cells.set i a)

def last (i : Nat) : List (Nat × α) → Option α
  | [] => none
  | (j,a) :: writes => (last i writes).or (if j = i then some a else none)

@[simp] theorem length_apply (writes : List (Nat × α)) (cells : List α) :
    (apply writes cells).length = cells.length := by
  induction writes generalizing cells with
  | nil => rfl
  | cons w writes ih => rw [apply,ih,List.length_set]

theorem apply_append (writes more : List (Nat × α)) (cells : List α) :
    apply (writes ++ more) cells = apply more (apply writes cells) := by
  induction writes generalizing cells with
  | nil => rfl
  | cons w writes ih => exact ih _

theorem getElem?_apply (writes : List (Nat × α)) {cells : List α} {i : Nat}
    (h : i < cells.length) : (apply writes cells)[i]? = (last i writes).or cells[i]? := by
  induction writes generalizing cells with
  | nil => rfl
  | cons w writes ih =>
    obtain ⟨j,a⟩ := w
    rw [apply,ih (by rwa [List.length_set]),last,Option.or_assoc]
    by_cases hj : j = i
    · subst hj
      simp [h]
    · simp [hj]

/-- The writes leave the cells as they were exactly when the last one to each cell is of
what it held. -/
theorem apply_eq_self_iff {writes : List (Nat × α)} {cells : List α} :
    apply writes cells = cells ↔
      ∀ i a, i < cells.length → last i writes = some a → cells[i]? = some a := by
  constructor
  · intro heq i a hi ha
    have hcell := getElem?_apply writes hi
    rw [heq,ha] at hcell
    exact hcell
  · intro hall
    refine List.ext_getElem? ?_
    intro i
    by_cases hi : i < cells.length
    · rw [getElem?_apply writes hi]
      cases ha : last i writes with
      | none => rfl
      | some a => exact (hall i a hi ha).symm
    · have hlong : cells.length ≤ i := Nat.le_of_not_lt hi
      rw [List.getElem?_eq_none (by rwa [length_apply]),List.getElem?_eq_none hlong]

def fill (i : Nat) : List α → List (Nat × α)
  | [] => []
  | a :: as => (i,a) :: fill (i+1) as

theorem apply_fill {i : Nat} {as cells : List α} (h : cells.length = i + as.length) :
    apply (fill i as) cells = cells.take i ++ as := by
  induction as generalizing i cells with
  | nil =>
    have hall : cells.length ≤ i := Nat.le_of_eq h
    rw [fill,apply,List.take_of_length_le hall,List.append_nil]
  | cons a as ih =>
    rw [List.length_cons] at h
    have hi : i < cells.length := by omega
    have htake : (cells.set i a).take (i+1) = cells.take i ++ [a] := by
      rw [List.take_add_one,List.take_set_of_le (Nat.le_refl i),List.getElem?_set_self hi]
      rfl
    rw [fill,apply,ih (by rw [List.length_set]; omega),htake,List.append_assoc]
    rfl

end Writes

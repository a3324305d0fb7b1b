import Mathlib.Data.List.Perm.Basic
set_option autoImplicit false

/-! Heap boxes numbered in the order of their allocation. The books are balanced when
every box has exactly one owner or has been reclaimed exactly once. -/

namespace Boxes

structure Ledger where
  allocated : Nat
  reclaimed : List Nat
  deriving DecidableEq, Repr

def Balanced (l : Ledger) (owned : List Nat) : Prop :=
  (owned ++ l.reclaimed).Perm (List.range l.allocated)

variable {l : Ledger} {owned owned' : List Nat}

theorem Balanced.empty : Balanced ⟨0,[]⟩ [] := List.Perm.nil

theorem Balanced.perm (h : Balanced l owned) (hp : owned'.Perm owned) : Balanced l owned' :=
  (hp.append_right l.reclaimed).trans h

theorem Balanced.alloc (h : Balanced l owned) :
    Balanced ⟨l.allocated + 1,l.reclaimed⟩ (l.allocated :: owned) := by
  unfold Balanced
  rw [List.range_succ]
  exact (List.Perm.cons l.allocated h).trans (List.perm_append_singleton _ _).symm

theorem Balanced.reclaim {p : Nat} (h : Balanced l (p :: owned)) :
    Balanced ⟨l.allocated,l.reclaimed ++ [p]⟩ owned := by
  unfold Balanced at h ⊢
  rw [← List.append_assoc]
  exact (List.perm_append_singleton p _).trans h

theorem Balanced.nodup (h : Balanced l owned) : (owned ++ l.reclaimed).Nodup :=
  h.nodup_iff.mpr List.nodup_range

theorem Balanced.nodup_reclaimed (h : Balanced l owned) : l.reclaimed.Nodup :=
  (List.nodup_append.mp h.nodup).2.1

theorem Balanced.live {p : Nat} (h : Balanced l owned) (hp : p ∈ owned) :
    p < l.allocated ∧ p ∉ l.reclaimed := by
  refine ⟨List.mem_range.mp (h.mem_iff.mp (List.mem_append_left _ hp)),?_⟩
  intro hr
  exact (List.nodup_append.mp h.nodup).2.2 p hp p hr rfl

theorem Balanced.all_reclaimed (h : Balanced l []) {p : Nat} (hp : p < l.allocated) :
    p ∈ l.reclaimed :=
  h.mem_iff.mpr (List.mem_range.mpr hp)

end Boxes

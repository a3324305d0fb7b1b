import Mathlib.Logic.Function.Basic
set_option autoImplicit false

namespace Mutex

variable {α π : Type*} {holds : π → Bool} {mutex : Option α} {pc : α → π}

/-- The agents that stand between lock and unlock are the holder and nobody else. -/
def Exclusive (holds : π → Bool) (mutex : Option α) (pc : α → π) : Prop :=
  ∀ a, holds (pc a) = true ↔ mutex = some a

theorem Exclusive.other (h : Exclusive holds mutex pc) {a b : α} (ha : mutex = some a)
    (hb : b ≠ a) : holds (pc b) = false := by
  rw [Bool.eq_false_iff]
  intro hholds
  have hmutex := (h b).mp hholds
  rw [ha] at hmutex
  exact hb (Option.some.inj hmutex).symm

theorem Exclusive.unheld (h : Exclusive holds mutex pc) (hfree : mutex = none) (a : α) :
    holds (pc a) = false := by
  rw [Bool.eq_false_iff]
  intro hholds
  have hmutex := (h a).mp hholds
  rw [hfree] at hmutex
  cases hmutex

section Step

variable [DecidableEq α] {a : α} {p : π}

theorem Exclusive.move (h : Exclusive holds mutex pc) (hp : holds p = holds (pc a)) :
    Exclusive holds mutex (Function.update pc a p) := by
  intro b
  by_cases hb : b = a
  · subst hb
    rw [Function.update_self,hp]
    exact h b
  · rw [Function.update_of_ne hb]
    exact h b

theorem Exclusive.lock (h : Exclusive holds mutex pc) (hfree : mutex = none)
    (hp : holds p = true) : Exclusive holds (some a) (Function.update pc a p) := by
  intro b
  by_cases hb : b = a
  · subst hb
    simp [hp]
  · rw [Function.update_of_ne hb,h.unheld hfree b]
    simp [Ne.symm hb]

theorem Exclusive.unlock (h : Exclusive holds mutex pc) (ha : holds (pc a) = true)
    (hp : holds p = false) : Exclusive holds none (Function.update pc a p) := by
  intro b
  by_cases hb : b = a
  · subst hb
    simp [hp]
  · rw [Function.update_of_ne hb,h.other ((h a).mp ha) hb]
    simp

end Step

end Mutex

import Mathlib.Algebra.Order.Ring.Nat
import Mathlib.Data.Set.Insert
import Xqlite.Lib.Runs
set_option autoImplicit false

/-! Programs of many callers that take locks one inside another. If every lock has a rank
and a program only asks for locks above those it has, some caller can always go on, and
without new calls all of them come to their end. -/

namespace LockOrder
open Runs

variable {L σ : Type*}

/-- A program acts on what is shared, and on a choice made elsewhere, and goes on with the
answer. -/
inductive Prog (L σ : Type*) where
  | ret
  | acquire (l : L) (k : Prog L σ)
  | release (l : L) (k : Prog L σ)
  | act (f : Bool → σ → σ × Bool) (k : Bool → Prog L σ)

def Prog.size : Prog L σ → Nat
  | .ret => 0
  | .acquire _ k | .release _ k => k.size + 1
  | .act _ k => max (k true).size (k false).size + 1

/-- Locks are taken in the order of their ranks, given back by who has them, and all given
back at the end. -/
def Ordered (rank : L → Nat) : Set L → Prog L σ → Prop
  | held, .ret => held = ∅
  | held, .acquire l k => (∀ l' ∈ held, rank l' < rank l) ∧ Ordered rank (insert l held) k
  | held, .release l k => l ∈ held ∧ Ordered rank (held \ {l}) k
  | held, .act _ k => ∀ b, Ordered rank held (k b)

structure State (L σ : Type*) where
  shared : σ
  owner : L → Option Nat
  calls : List (Prog L σ)

namespace State

def prog (s : State L σ) (i : Nat) : Prog L σ := s.calls.getD i .ret

def held (s : State L σ) (i : Nat) : Set L := {l | s.owner l = some i}

def Ready (s : State L σ) (i : Nat) : Prop :=
  match s.prog i with
  | .ret => False
  | .acquire l _ => s.owner l = none
  | _ => True

def Returned (s : State L σ) : Prop := ∀ i, s.prog i = .ret

def work (s : State L σ) : Nat := (s.calls.map Prog.size).sum

end State

inductive Input (L σ : Type*) where
  | call (p : Prog L σ)
  | next (i : Nat) (choice : Bool)

section Step
variable [DecidableEq L]

def move (s : State L σ) (i : Nat) (choice : Bool) : State L σ :=
  match s.prog i with
  | .ret => s
  | .acquire l k =>
    if s.owner l = none then ⟨s.shared,Function.update s.owner l (some i),s.calls.set i k⟩ else s
  | .release l k => ⟨s.shared,Function.update s.owner l none,s.calls.set i k⟩
  | .act f k => ⟨(f choice s.shared).1,s.owner,s.calls.set i (k (f choice s.shared).2)⟩

def step (s : State L σ) : Input L σ → State L σ × Unit
  | .call p => (⟨s.shared,s.owner,s.calls ++ [p]⟩,())
  | .next i choice => (move s i choice,())

end Step

def Inv (rank : L → Nat) (s : State L σ) : Prop := ∀ i, Ordered rank (s.held i) (s.prog i)

theorem lt_of_prog {s : State L σ} {i : Nat} (h : s.prog i ≠ .ret) : i < s.calls.length := by
  refine lt_of_not_ge fun hge => h ?_
  rw [State.prog,List.getD_eq_getElem?_getD,List.getElem?_eq_none hge]
  rfl

theorem prog_set {calls : List (Prog L σ)} {shared : σ} {owner : L → Option Nat} {i : Nat}
    (hi : i < calls.length) (k : Prog L σ) (j : Nat) :
    (State.mk shared owner (calls.set i k)).prog j = if j = i then k else calls.getD j .ret := by
  simp only [State.prog,List.getD_eq_getElem?_getD,List.getElem?_set]
  by_cases hj : i = j
  · subst hj
    simp [hi]
  · simp [hj,Ne.symm hj]

section Steps
variable {rank : L → Nat} {s : State L σ}

theorem inv_set (h : Inv rank s) {i : Nat} (hi : i < s.calls.length) {shared : σ}
    {owner : L → Option Nat} {k : Prog L σ} {mine : Set L} (hk : Ordered rank mine k)
    (hmine : {l | owner l = some i} = mine)
    (hothers : ∀ j l, j ≠ i → (owner l = some j ↔ s.owner l = some j)) :
    Inv rank ⟨shared,owner,s.calls.set i k⟩ := by
  intro j
  rw [prog_set hi]
  by_cases hj : j = i
  · subst hj
    rw [if_pos rfl,State.held,hmine]
    exact hk
  · have hheld : (State.mk shared owner (s.calls.set i k)).held j = s.held j :=
      Set.ext fun l => hothers j l hj
    rw [if_neg hj,hheld]
    exact h j

theorem inv_call (h : Inv rank s) {p : Prog L σ} (hp : Ordered rank ∅ p) :
    Inv rank ⟨s.shared,s.owner,s.calls ++ [p]⟩ := by
  intro i
  have hheld : (State.mk s.shared s.owner (s.calls ++ [p])).held i = s.held i := rfl
  rw [hheld]
  by_cases hi : i = s.calls.length
  · have hprog := h i
    have hend : s.prog i = .ret := by simp [State.prog,hi]
    rw [hend] at hprog
    rw [show s.held i = ∅ from hprog]
    simpa [State.prog,hi] using hp
  · have hsame : (State.mk s.shared s.owner (s.calls ++ [p])).prog i = s.prog i := by
      simp only [State.prog,List.getD_eq_getElem?_getD]
      by_cases hlt : i < s.calls.length
      · rw [List.getElem?_append_left hlt]
      · have hge : s.calls.length < i := by omega
        rw [List.getElem?_eq_none (by simp; omega),List.getElem?_eq_none (by omega)]
    rw [hsame]
    exact h i

variable [DecidableEq L]

theorem inv_move (h : Inv rank s) (i : Nat) (choice : Bool) : Inv rank (move s i choice) := by
  have hprog := h i
  unfold move
  cases hp : s.prog i with
  | ret => exact h
  | acquire l k =>
    have hi : i < s.calls.length := lt_of_prog (by simp [hp])
    rw [hp] at hprog
    by_cases hfree : s.owner l = none
    · simp only [hfree,if_true]
      refine inv_set h hi hprog.2 ?_ ?_
      · ext l'
        by_cases hl : l' = l
        · simp [hl]
        · simp [hl,State.held]
      · intro j l' hj
        by_cases hl : l' = l
        · simp [hl,hfree,Ne.symm hj]
        · simp [hl]
    · simp only [hfree,if_false]
      exact h
  | release l k =>
    have hi : i < s.calls.length := lt_of_prog (by simp [hp])
    rw [hp] at hprog
    obtain ⟨hown,hk⟩ := hprog
    refine inv_set h hi hk ?_ ?_
    · ext l'
      by_cases hl : l' = l
      · simp [hl]
      · simp [hl,State.held]
    · intro j l' hj
      by_cases hl : l' = l
      · have hother : ¬s.owner l = some j := by
          rw [show s.owner l = some i from hown]
          simpa using Ne.symm hj
        simp [hl,hother]
      · simp [hl]
  | act f k =>
    have hi : i < s.calls.length := lt_of_prog (by simp [hp])
    rw [hp] at hprog
    exact inv_set h hi (hprog _) rfl (fun _ _ _ => Iff.rfl)

def Input.Allowed (rank : L → Nat) : Input L σ → Prop
  | .call p => Ordered rank ∅ p
  | .next _ _ => True

theorem inv_step (h : Inv rank s) {input : Input L σ} (hinput : input.Allowed rank) :
    Inv rank (step s input).1 := by
  cases input with
  | call p => exact inv_call h hinput
  | next i choice => exact inv_move h i choice

end Steps

section Progress
variable {rank : L → Nat} {s : State L σ}

theorem ready_of_waiting {bound : Nat} (hbound : ∀ l, rank l < bound) (h : Inv rank s) {i : Nat}
    {l : L} {k : Prog L σ} (hi : s.prog i = .acquire l k) : ∃ j, s.Ready j := by
  induction hrest : bound - rank l using Nat.strong_induction_on generalizing i l k with
  | _ rest ih =>
    cases howner : s.owner l with
    | none =>
      refine ⟨i,?_⟩
      rw [State.Ready,hi]
      exact howner
    | some j =>
      have hheld : l ∈ s.held j := howner
      have hj := h j
      cases hp : s.prog j with
      | ret =>
        rw [hp] at hj
        rw [show s.held j = ∅ from hj] at hheld
        cases hheld
      | acquire l' k' =>
        rw [hp] at hj
        have hrank : rank l < rank l' := hj.1 l hheld
        have hl' := hbound l'
        exact ih (bound - rank l') (by omega) hp rfl
      | release l' k' => exact ⟨j,by rw [State.Ready,hp]; trivial⟩
      | act f k' => exact ⟨j,by rw [State.Ready,hp]; trivial⟩

theorem exists_ready {bound : Nat} (hbound : ∀ l, rank l < bound) (h : Inv rank s)
    (hs : ¬s.Returned) : ∃ i, s.Ready i := by
  obtain ⟨i,hi⟩ := not_forall.mp hs
  cases hp : s.prog i with
  | ret => exact absurd hp hi
  | acquire l k => exact ready_of_waiting hbound h hp
  | release l k => exact ⟨i,by rw [State.Ready,hp]; trivial⟩
  | act f k => exact ⟨i,by rw [State.Ready,hp]; trivial⟩

theorem free_of_returned (h : Inv rank s) (hs : s.Returned) (l : L) : s.owner l = none := by
  cases howner : s.owner l with
  | none => rfl
  | some i =>
    have hi := h i
    rw [hs i] at hi
    have hmem : l ∈ s.held i := howner
    rw [show s.held i = ∅ from hi] at hmem
    cases hmem

theorem ready_or_returned {bound : Nat} (hbound : ∀ l, rank l < bound) (h : Inv rank s) :
    (∃ i, s.Ready i) ∨ s.Returned ∧ ∀ l, s.owner l = none := by
  by_cases hs : s.Returned
  · exact .inr ⟨hs,free_of_returned h hs⟩
  · exact .inl (exists_ready hbound h hs)

end Progress

section Work

theorem work_set {calls : List (Prog L σ)} {i : Nat} (hi : i < calls.length) (k : Prog L σ) :
    ((calls.set i k).map Prog.size).sum + (calls.getD i .ret).size =
      (calls.map Prog.size).sum + k.size := by
  induction calls generalizing i with
  | nil => cases hi
  | cons p calls ih =>
    cases i with
    | zero =>
      simp only [List.set_cons_zero,List.map_cons,List.sum_cons,List.getD_cons_zero]
      omega
    | succ i =>
      have hrest := ih (Nat.lt_of_succ_lt_succ hi)
      simp only [List.set_cons_succ,List.map_cons,List.sum_cons,List.getD_cons_succ]
      omega

variable [DecidableEq L] {rank : L → Nat} {s : State L σ}

theorem work_move {i : Nat} (hi : s.Ready i) (choice : Bool) :
    (move s i choice).work < s.work := by
  unfold move
  unfold State.Ready at hi
  cases hp : s.prog i with
  | ret => simp [hp] at hi
  | acquire l k =>
    have hlt : i < s.calls.length := lt_of_prog (by simp [hp])
    have hsum := work_set hlt k
    have hsize : (s.calls.getD i .ret).size = k.size + 1 := congrArg Prog.size hp
    simp only [hp] at hi
    simp only [hi,if_true,State.work]
    omega
  | release l k =>
    have hlt : i < s.calls.length := lt_of_prog (by simp [hp])
    have hsum := work_set hlt k
    have hsize : (s.calls.getD i .ret).size = k.size + 1 := congrArg Prog.size hp
    simp only [State.work]
    omega
  | act f k =>
    have hlt : i < s.calls.length := lt_of_prog (by simp [hp])
    have hsum := work_set hlt (k (f choice s.shared).2)
    have hsize : (s.calls.getD i .ret).size = max (k true).size (k false).size + 1 :=
      congrArg Prog.size hp
    have hle : (k (f choice s.shared).2).size ≤ max (k true).size (k false).size := by
      cases (f choice s.shared).2
      · exact le_max_right _ _
      · exact le_max_left _ _
    simp only [State.work]
    omega

def next (s : State L σ) (m : Nat × Bool) : State L σ × Unit := (move s m.1 m.2,())

def go (s : State L σ) (ms : List (Nat × Bool)) : State L σ := (run next s ms).1

/-- Calls go on one step after another, each of them when it is ready. -/
def Going (s : State L σ) : List (Nat × Bool) → Prop := AllSteps next (fun s m => s.Ready m.1) s

theorem length_add_work {ms : List (Nat × Bool)} (h : Going s ms) :
    ms.length + (go s ms).work ≤ s.work := by
  induction ms generalizing s with
  | nil => simp [go]
  | cons m ms ih =>
    have hrest : ms.length + (go (move s m.1 m.2) ms).work ≤ (move s m.1 m.2).work := ih h.2
    have hstep := work_move h.1 m.2
    have hgo : go s (m :: ms) = go (move s m.1 m.2) ms := rfl
    simp only [List.length_cons,hgo]
    omega

theorem inv_go (h : Inv rank s) (ms : List (Nat × Bool)) : Inv rank (go s ms) :=
  run_inv_total next (I := Inv rank) (fun _ m hs => inv_move hs m.1 m.2) ms h

end Work

end LockOrder

import Mathlib.Data.List.Nodup
set_option autoImplicit false

namespace Lifecycle

variable {α ρ φ : Type*}

/-- One call: who made it, on what, and who held the lock at that moment. -/
structure Event (α ρ φ : Type*) where
  agent : α
  resource : ρ
  fn : φ
  holder : Option α

section Log

variable (destroys : φ → Bool)

def destroyed (log : List (Event α ρ φ)) : List ρ :=
  (log.filter (fun e => destroys e.fn)).map (fun e => e.resource)

/-- Every call was made under the lock, and none on a resource already destroyed. -/
structure Sound (log : List (Event α ρ φ)) : Prop where
  held : ∀ e ∈ log, e.holder = some e.agent
  ordered : log.Pairwise (fun e later => destroys e.fn = true → later.resource ≠ e.resource)

theorem mem_destroyed {log : List (Event α ρ φ)} {r : ρ} :
    r ∈ destroyed destroys log ↔ ∃ e ∈ log, destroys e.fn = true ∧ e.resource = r := by
  simp [destroyed,and_assoc]

theorem destroyed_append (log more : List (Event α ρ φ)) :
    destroyed destroys (log ++ more) = destroyed destroys log ++ destroyed destroys more := by
  simp [destroyed]

theorem destroyed_destroy {e : Event α ρ φ} (h : destroys e.fn = true) :
    destroyed destroys [e] = [e.resource] := by
  simp [destroyed,h]

theorem destroyed_use {e : Event α ρ φ} (h : destroys e.fn = false) :
    destroyed destroys [e] = [] := by
  simp [destroyed,h]

theorem Sound.nil : Sound destroys ([] : List (Event α ρ φ)) :=
  ⟨by simp,.nil⟩

theorem Sound.snoc {log : List (Event α ρ φ)} (h : Sound destroys log) {e : Event α ρ φ}
    (hheld : e.holder = some e.agent) (hlive : e.resource ∉ destroyed destroys log) :
    Sound destroys (log ++ [e]) := by
  constructor
  · intro e' he'
    rcases List.mem_append.mp he' with hl | hr
    · exact h.held e' hl
    · rw [List.mem_singleton.mp hr]
      exact hheld
  · rw [List.pairwise_append]
    refine ⟨h.ordered,List.pairwise_singleton _ _,?_⟩
    intro e' he' last hlast hd heq
    rw [List.mem_singleton.mp hlast] at heq
    exact hlive ((mem_destroyed destroys).mpr ⟨e',he',hd,heq.symm⟩)

theorem Sound.nodup_destroyed {log : List (Event α ρ φ)} (h : Sound destroys log) :
    (destroyed destroys log).Nodup := by
  unfold destroyed
  rw [List.Nodup,List.pairwise_map,List.pairwise_filter]
  exact h.ordered.imp (fun hne hd _ heq => hne hd heq.symm)

end Log

end Lifecycle

import Mathlib.Data.List.Forall2
set_option autoImplicit false

namespace FirstError

variable {ε α β : Type*} {f : α → Except ε β}

def collect (f : α → Except ε β) : List α → Except ε (List β)
  | [] => .ok []
  | a :: l =>
    match f a with
    | .error e => .error e
    | .ok b => (collect f l).map (b :: ·)

theorem collect_ok_iff {l : List α} {out : List β} :
    collect f l = .ok out ↔ List.Forall₂ (fun a b => f a = .ok b) l out := by
  induction l generalizing out with
  | nil => cases out <;> simp [collect]
  | cons a l ih =>
    cases ha : f a with
    | error e => cases out <;> simp [collect,ha]
    | ok b =>
      cases hl : collect f l with
      | error e =>
        have hnone : ∀ out', ¬ List.Forall₂ (fun a b => f a = .ok b) l out' := by
          intro out' hout'
          rw [← ih,hl] at hout'
          cases hout'
        cases out <;> simp [collect,ha,hl,Except.map,hnone]
      | ok rest =>
        cases out with
        | nil => simp [collect,ha,hl,Except.map]
        | cons b' out =>
          simp only [collect,ha,hl,Except.map,Except.ok.injEq,List.cons.injEq,
            List.forall₂_cons,← ih]

theorem collect_isOk_iff {l : List α} :
    (∃ out, collect f l = .ok out) ↔ ∀ a ∈ l, ∃ b, f a = .ok b := by
  induction l with
  | nil => simp [collect]
  | cons a l ih =>
    cases ha : f a with
    | error e => simp [collect,ha]
    | ok b =>
      rw [List.forall_mem_cons,← ih]
      cases hl : collect f l <;> simp [collect,ha,hl,Except.map]

theorem collect_map_iff {σ : Type*} {row : σ → α} {Describes : σ → β → Prop} {specs : List σ}
    (h : ∀ s ∈ specs, ∀ b, f (row s) = .ok b → Describes s b) :
    (∃ out, collect f (specs.map row) = .ok out ∧ List.Forall₂ Describes specs out) ↔
      ∀ s ∈ specs, ∃ b, f (row s) = .ok b := by
  rw [← List.forall_mem_map (f := row) (P := fun a => ∃ b, f a = .ok b),← collect_isOk_iff]
  constructor
  · rintro ⟨out,hout,-⟩
    exact ⟨out,hout⟩
  · rintro ⟨out,hout⟩
    refine ⟨out,hout,?_⟩
    have hrows := List.forall₂_map_left_iff.mp (collect_ok_iff.mp hout)
    clear hout
    induction hrows with
    | nil => exact .nil
    | cons hb _ ih =>
      exact .cons (h _ List.mem_cons_self _ hb)
        (ih (fun s hs => h s (List.mem_cons_of_mem _ hs)))

theorem collect_error {l rest : List α} {a : α} {e : ε} (hl : ∀ b ∈ l, ∃ c, f b = .ok c)
    (ha : f a = .error e) : collect f (l ++ a :: rest) = .error e := by
  induction l with
  | nil => simp only [List.nil_append,collect,ha]
  | cons b l ih =>
    obtain ⟨c,hc⟩ := hl b List.mem_cons_self
    rw [List.cons_append,collect,hc]
    simp only [ih (fun d hd => hl d (List.mem_cons_of_mem b hd)),Except.map]

end FirstError

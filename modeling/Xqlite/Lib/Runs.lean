import Mathlib.Data.List.Basic
set_option autoImplicit false

namespace Runs

section Machine

variable {σ ι ω : Type*} (step : σ → ι → σ × ω)

def run : σ → List ι → σ × List ω
  | s, [] => (s,[])
  | s, i :: is => ((run (step s i).1 is).1, (step s i).2 :: (run (step s i).1 is).2)

@[simp] theorem run_nil (s : σ) : run step s [] = (s,[]) := rfl

@[simp] theorem run_cons (s : σ) (i : ι) (is : List ι) :
    run step s (i :: is) =
      ((run step (step s i).1 is).1, (step s i).2 :: (run step (step s i).1 is).2) := rfl

theorem run_append (s : σ) (is js : List ι) :
    run step s (is ++ js) =
      ((run step (run step s is).1 js).1,
        (run step s is).2 ++ (run step (run step s is).1 js).2) := by
  induction is generalizing s with
  | nil => rfl
  | cons i is ih => simp [ih]

theorem run_fixed {s : σ} {answer : ι → ω} {is : List ι}
    (h : ∀ i ∈ is, step s i = (s,answer i)) : run step s is = (s,is.map answer) := by
  induction is with
  | nil => rfl
  | cons i is ih =>
    rw [run_cons,h i List.mem_cons_self,ih (fun j hj => h j (List.mem_cons_of_mem i hj)),
      List.map_cons]

/-- Every input of the run is admissible in the state that receives it. -/
def AllSteps (P : σ → ι → Prop) : σ → List ι → Prop
  | _, [] => True
  | s, i :: is => P s i ∧ AllSteps P (step s i).1 is

theorem allSteps_append {P : σ → ι → Prop} {s : σ} {is js : List ι} :
    AllSteps step P s (is ++ js) ↔
      AllSteps step P s is ∧ AllSteps step P (run step s is).1 js := by
  induction is generalizing s with
  | nil => simp [AllSteps]
  | cons i is ih => simp [AllSteps,ih,and_assoc]

/-- What holds at the start and survives every admissible step holds at the end
of every admissible run. -/
theorem run_inv {I : σ → Prop} {P : σ → ι → Prop}
    (hstep : ∀ s i, I s → P s i → I (step s i).1)
    {s : σ} {is : List ι} (hs : I s) (his : AllSteps step P s is) :
    I (run step s is).1 := by
  induction is generalizing s with
  | nil => exact hs
  | cons i is ih => exact ih (hstep s i hs his.1) his.2

theorem allSteps_mono {P R : σ → ι → Prop} (hPR : ∀ s i, P s i → R s i) {s : σ} {is : List ι}
    (h : AllSteps step P s is) : AllSteps step R s is := by
  induction is generalizing s with
  | nil => trivial
  | cons i is ih => exact ⟨hPR s i h.1,ih h.2⟩

theorem allSteps_of_forall {P : σ → ι → Prop} (h : ∀ s i, P s i) (s : σ) (is : List ι) :
    AllSteps step P s is := by
  induction is generalizing s with
  | nil => trivial
  | cons i is ih => exact ⟨h s i,ih _⟩

theorem run_inv_total {I : σ → Prop} (hstep : ∀ s i, I s → I (step s i).1)
    {s : σ} (is : List ι) (hs : I s) : I (run step s is).1 :=
  run_inv step (fun s i h _ => hstep s i h) hs (allSteps_of_forall step (fun _ _ => trivial) s is)

def history {τ : Type*} (log : σ → ι → List τ) : σ → List ι → List τ
  | _, [] => []
  | s, i :: is => log s i ++ history log (step s i).1 is

theorem history_inv {τ : Type*} {log : σ → ι → List τ} {I : List τ → σ → Prop}
    {P : σ → ι → Prop}
    (hstep : ∀ l s i, I l s → P s i → I (l ++ log s i) (step s i).1)
    {l : List τ} {s : σ} {is : List ι} (hs : I l s) (his : AllSteps step P s is) :
    I (l ++ history step log s is) (run step s is).1 := by
  induction is generalizing l s with
  | nil => simpa [history] using hs
  | cons i is ih =>
    have h := ih (hstep l s i hs his.1) his.2
    simpa [history,List.append_assoc] using h

end Machine

/-- Two machines that answer alike from related states answer alike along every run of
the same inputs. -/
theorem run_simulates {σ τ ι α β : Type*} {left : σ → ι → σ × α} {right : τ → ι → τ × β}
    {R : σ → τ → Prop} {O : α → β → Prop}
    (hstep : ∀ s t i, R s t → R (left s i).1 (right t i).1 ∧ O (left s i).2 (right t i).2)
    {s : σ} {t : τ} (h : R s t) (is : List ι) :
    R (run left s is).1 (run right t is).1 ∧
      List.Forall₂ O (run left s is).2 (run right t is).2 := by
  induction is generalizing s t with
  | nil => exact ⟨h,List.Forall₂.nil⟩
  | cons i is ih =>
    obtain ⟨hnext,hanswer⟩ := hstep s t i h
    obtain ⟨hend,hanswers⟩ := ih hnext
    exact ⟨hend,List.Forall₂.cons hanswer hanswers⟩

end Runs

import Xqlite.RowDecoders
import Xqlite.StatementRuns
set_option autoImplicit false

/-! The four ways to read the rows of a statement: all at once by `query`, in batches by
`stream_fetch`, in batches by `stmt_multi_step`, and one by one by `stmt_step`. The first
decodes what rusqlite hands over, the others what SQLite's column functions answer. -/

namespace Xqlite.ReadPaths
open Runs Row Xqlite.Stream Prepared

def script (names : List String) (answers : List (List Cell)) : List StepResult :=
  answers.map (.row names) ++ [.done]

def readable (stored : List (List Stored)) : Bool := stored.all fun row => row.all Stored.readable

def terms (stored : List (List Stored)) : List (List Term) := stored.map (List.map Stored.term)

variable {alloc : Nat → Bool} {stored : List (List Stored)} {answers : List (List Cell)}

theorem decodes_row {row : List Stored} {cells : List Cell} (h : List.Forall₂ Presents row cells)
    (hr : row.all Stored.readable = true) :
    Xqlite.sqliteRowToElixirTerms cells = .ok (row.map Stored.term) := by
  have hgranted : ∀ n, (fun _ : Nat => true) n = true := fun _ => rfl
  have hoption : (Row.sqliteRowToElixirTerms (fun _ => true) cells).toOption = _ :=
    columnsToTerms_toOption hgranted 0 h
  rw [sqliteRowToElixirTerms_granted hgranted cells,if_pos hr] at hoption
  cases hcells : Xqlite.sqliteRowToElixirTerms cells with
  | error e =>
    rw [hcells] at hoption
    cases hoption
  | ok decoded =>
    rw [hcells] at hoption
    cases hoption
    rfl

theorem executes_script (names : List String)
    (h : List.Forall₂ (List.Forall₂ Presents) stored answers) (hr : readable stored = true) :
    Executes (script names answers) (terms stored) (.ok ()) := by
  induction h with
  | nil => rfl
  | @cons row cells stored answers hrow _ ih =>
    obtain ⟨hhead,htail⟩ : row.all Stored.readable = true ∧ readable stored = true := by
      simpa [readable] using hr
    have hrest := ih htail
    unfold Executes at hrest ⊢
    have hstep : stepTerms (.row names cells) = .ok (some (row.map Stored.term)) := by
      rw [stepTerms,decodes_row hrow hhead]
      rfl
    simp only [script,terms,List.map_cons,List.cons_append,hstep] at hrest ⊢
    rw [hrest]

theorem query_rows (halloc : ∀ n, alloc n = true) (rejected : Nat → Utf8Error → XqliteError)
    (stored : List (List Stored)) (rows : List (List Term)) :
    processRows alloc rejected (stored.map .ok) = .ok rows ↔
      readable stored = true ∧ rows = terms stored := by
  have hquery : (processRows alloc rejected (stored.map .ok)).toOption =
      if readable stored then some (terms stored) else none :=
    processRows_toOption halloc rejected stored
  cases hrows : processRows alloc rejected (stored.map .ok) with
  | error e =>
    cases hr : readable stored with
    | false => simp
    | true =>
      rw [hrows,hr] at hquery
      cases hquery
  | ok decoded =>
    cases hr : readable stored with
    | false =>
      rw [hrows,hr] at hquery
      cases hquery
    | true =>
      rw [hrows,hr] at hquery
      cases hquery
      simp [eq_comm]

/-- For every table of stored rows, in whichever of its forms SQLite answers them: `query`
succeeds exactly if every text in it is UTF-8, and then any sequence of fetches that asks for
more than there is delivers the very same rows, and so do the reading calls on a statement
from a reset to the first one that asks past the end. The next would run it again. -/
theorem read_paths_agree (halloc : ∀ n, alloc n = true)
    (rejected : Nat → Utf8Error → XqliteError) (names : List String)
    (h : List.Forall₂ (List.Forall₂ Presents) stored answers) :
    (∀ rows, processRows alloc rejected (stored.map .ok) = .ok rows ↔
      readable stored = true ∧ rows = terms stored) ∧
    (readable stored = true →
      (∀ columnNames args, (terms stored).length < Stream.asked args →
        Stream.delivered (run streamFetch (.opened columnNames (script names answers)) args).2 =
          terms stored) ∧
      ∀ (plan : Nat → List Value → List StepResult) (handle : XqliteStatement) (v : Vdbe),
        Live handle v → plan v.executions v.params.values = script names answers →
        ∀ before c, (∀ c' ∈ before ++ [c], c'.reads = true) →
          Prepared.asked before ≤ (terms stored).length →
          (terms stored).length < Prepared.asked before + c.asked →
          Prepared.delivered (run (call plan) (stmtReset handle).1 (before ++ [c])).2 =
            terms stored) := by
  refine ⟨query_rows halloc rejected stored,?_⟩
  intro hr
  have hex := executes_script names h hr
  refine ⟨?_,?_⟩
  · intro columnNames args hasked
    have hrun := (progress_run (progress_opened hex columnNames) args).1
    rw [hrun,List.drop_zero,List.take_of_length_le (by omega)]
  · intro plan handle v hl hplan before c hreads hle hlt
    have hserved : plan v.executions v.params.values = script names answers ++ [] := by
      rw [hplan,List.append_nil]
    obtain ⟨v₀,hl₀,hs₀⟩ := stmtReset_serves hl hserved hex
    obtain ⟨_,_,_,_,hdelivered⟩ := run_crossing before hl₀ hs₀ hreads hle hlt
    exact hdelivered

/-- Two rows, one of them a text, by all four ways. -/
theorem read_paths_agree_two :
    processRows (fun _ => true) (fun i e => .utf8Error i e.toText)
        [.ok [.integer 1],.ok [.text [0x61]]] = .ok [[.int 1],[.binary [0x61]]] ∧
      Stream.delivered (run streamFetch
        (.opened ["a"] (script ["a"] [[.integer 1],[.text [0x61]]])) [.int 2,.int 2]).2 =
          [[.int 1],[.binary [0x61]]] ∧
      Prepared.delivered (run (call fun _ _ => script ["a"] [[.integer 1],[.text [0x61]]])
        (stmtReset fresh).1 [.multiStep 1,.step,.step]).2 = [[.int 1],[.binary [0x61]]] := by
  have h := read_paths_agree (fun _ => rfl) (fun i e => .utf8Error i e.toText) ["a"]
    (.cons (.cons (.integer 1) .nil) (.cons (.cons (.text [0x61]) .nil) .nil))
  obtain ⟨hfetches,hcalls⟩ := h.2 (by decide)
  refine ⟨(h.1 _).mpr ⟨by decide,rfl⟩,hfetches ["a"] [.int 2,.int 2] (by decide),?_⟩
  exact hcalls _ fresh _ ⟨rfl,rfl,rfl⟩ rfl [.multiStep 1,.step] .step (by decide) (by decide)
    (by decide)

end Xqlite.ReadPaths

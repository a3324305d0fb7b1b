import Mathlib.Data.List.TakeWhile
import Xqlite.Lib.Runs
set_option autoImplicit false

/-! Stores with transactions and named marks inside them, as their users see them. A mark
keeps the contents it was set at; going back to a mark drops those set after it, and so does
releasing it. A mark set outside a transaction begins one, which ends when that mark is
released. A store is anything that keeps to these rules. -/

namespace Nested
open Runs

variable {σ τ δ ν ε : Type*}

/-- Inside a transaction `base` is what a rollback goes back to; the latest mark comes first.
`outer` says that the first mark began the transaction: it is there as long as that is. -/
inductive Session (δ ν : Type*) where
  | autocommit (db : δ)
  | inside (db base : δ) (marks : List (ν × δ)) (outer : Bool) (begun : outer = true → marks ≠ [])
  deriving DecidableEq

namespace Session

def db : Session δ ν → δ
  | .autocommit db | .inside db _ _ _ _ => db

def withDb (db : δ) : Session δ ν → Session δ ν
  | .autocommit _ => .autocommit db
  | .inside _ base marks outer begun => .inside db base marks outer begun

def saved : Session δ ν → δ
  | .autocommit db => db
  | .inside _ base _ _ _ => base

def marks : Session δ ν → List (ν × δ)
  | .autocommit _ => []
  | .inside _ _ marks _ _ => marks

/-- Would a mark set now begin the transaction, or has one begun it? -/
def outer : Session δ ν → Bool
  | .autocommit _ => true
  | .inside _ _ _ outer _ => outer

def inTransaction : Session δ ν → Bool
  | .autocommit _ => false
  | .inside _ _ _ _ _ => true

def marked (name : ν) (c : Session δ ν) : Session δ ν :=
  .inside c.db c.saved ((name,c.db) :: c.marks) c.outer (fun _ => List.cons_ne_nil _ _)

theorem withDb_db (c : Session δ ν) : c.withDb c.db = c := by
  cases c <;> rfl

theorem inTransaction_of_suffix {c : Session δ ν} {floor : List (ν × δ)} (hfloor : floor ≠ [])
    (h : floor <:+ c.marks) : c.inTransaction = true := by
  cases c with
  | autocommit db => exact absurd (List.suffix_nil.mp h) hfloor
  | inside db base marks outer begun => rfl

end Session

inductive Command (ν : Type*) where
  | begin
  | commit
  | rollback
  | savepoint (name : ν)
  | release (name : ν)
  | rollbackTo (name : ν)
  deriving DecidableEq

/-- The latest mark of that name, with those set before it. -/
def find (same : ν → ν → Bool) (name : ν) (marks : List (ν × δ)) : List (ν × δ) :=
  marks.dropWhile fun m => !same m.1 name

/-- What is left of a session when all marks but `below` are gone. -/
def endAt (db base : δ) (below : List (ν × δ)) : Bool → Session δ ν
  | false => .inside db base below false nofun
  | true =>
    match below with
    | [] => .autocommit db
    | m :: below => .inside db base (m :: below) true (fun _ => List.cons_ne_nil m below)

/-- The store carries out texts, some of which it reads as commands; `view` is the session a
user of it is in. It may refuse any text, and other texts do what they do: only that no text
both ends a transaction and begins one. -/
structure Rules (same : ν → ν → Bool) (reads : τ → Option (Command ν))
    (step : σ → τ → σ × Except ε Unit) (view : σ → Session δ ν) : Prop where
  begins : ∀ {s : σ} {t : τ}, reads t = some .begin → (step s t).2 = .ok () →
    view s = .autocommit (view s).db ∧
      view (step s t).1 = .inside (view s).db (view s).db [] false nofun
  commits : ∀ {s : σ} {t : τ}, reads t = some .commit → (step s t).2 = .ok () →
    view (step s t).1 = .autocommit (view s).db
  rollsBack : ∀ {s : σ} {t : τ}, reads t = some .rollback → (step s t).2 = .ok () →
    view (step s t).1 = .autocommit (view s).saved
  savepoint : ∀ {s : σ} {t : τ} {name : ν}, reads t = some (.savepoint name) →
    (step s t).2 = .ok () → view (step s t).1 = (view s).marked name
  rollbackTo : ∀ {s : σ} {t : τ} {name : ν} {m : ν × δ} {below : List (ν × δ)},
    reads t = some (.rollbackTo name) → find same name (view s).marks = m :: below →
    (step s t).2 = .ok () →
    view (step s t).1 = .inside m.2 (view s).saved (m :: below) (view s).outer
      (fun _ => List.cons_ne_nil m below)
  release : ∀ {s : σ} {t : τ} {name : ν} {m : ν × δ} {below : List (ν × δ)},
    reads t = some (.release name) → find same name (view s).marks = m :: below →
    (step s t).2 = .ok () →
    view (step s t).1 = endAt (view s).db (view s).saved below (view s).outer
  steady : ∀ {s : σ} {t : τ}, (view s).inTransaction = true →
    (view (step s t).1).inTransaction = true →
    (view (step s t).1).saved = (view s).saved ∧ (view (step s t).1).outer = (view s).outer

theorem endAt_marks (c : Session δ ν) (db : δ) :
    endAt db c.saved c.marks c.outer = c.withDb db := by
  cases c with
  | autocommit db' => rfl
  | inside db' base marks outer begun =>
    cases outer with
    | false => rfl
    | true =>
      cases marks with
      | nil => exact absurd rfl (begun rfl)
      | cons m below => rfl

theorem find_head {same : ν → ν → Bool} {name : ν} {m : ν × δ} (h : same m.1 name = true)
    (below : List (ν × δ)) : find same name (m :: below) = m :: below := by
  simp [find,h]

section Run
variable {same : ν → ν → Bool} {reads : τ → Option (Command ν)}
  {step : σ → τ → σ × Except ε Unit} {view : σ → Session δ ν}

theorem Rules.run_open (h : Rules same reads step view) {s : σ} {ts : List τ}
    (hs : (view s).inTransaction = true)
    (hts : AllSteps step (fun s t => (view (step s t).1).inTransaction = true) s ts) :
    (view (run step s ts).1).inTransaction = true ∧
      (view (run step s ts).1).saved = (view s).saved ∧
      (view (run step s ts).1).outer = (view s).outer := by
  refine run_inv step (I := fun s' => (view s').inTransaction = true ∧
    (view s').saved = (view s).saved ∧ (view s').outer = (view s).outer) ?_ ⟨hs,rfl,rfl⟩ hts
  rintro s' t ⟨hopen,hsaved,houter⟩ hstill
  obtain ⟨hsaved',houter'⟩ := h.steady hopen hstill
  exact ⟨hstill,hsaved'.trans hsaved,houter'.trans houter⟩

variable {s s' : σ} {name : ν} {t : τ}

/-- The session `s` with a mark of that name, the latest one, and with the contents of `s'`. -/
structure Within (same : ν → ν → Bool) (name : ν) (c c' : Session δ ν) : Prop where
  latest : find same name c'.marks = (name,c.db) :: c.marks
  saved : c'.saved = c.saved
  outer : c'.outer = c.outer

theorem Rules.release_within (h : Rules same reads step view)
    (hin : Within same name (view s) (view s')) (ht : reads t = some (.release name))
    (hok : (step s' t).2 = .ok ()) :
    view (step s' t).1 = (view s).withDb (view s').db := by
  rw [h.release ht hin.latest hok,hin.saved,hin.outer,endAt_marks]

/-- Going back to a mark gives the session in which it has just been set. -/
theorem Rules.rollbackTo_within (h : Rules same reads step view)
    (hin : Within same name (view s) (view s')) (ht : reads t = some (.rollbackTo name))
    (hok : (step s' t).2 = .ok ()) : view (step s' t).1 = (view s).marked name := by
  rw [h.rollbackTo ht hin.latest hok]
  simp only [hin.saved,hin.outer,Session.marked]

theorem within_marked (hname : same name name = true) (c : Session δ ν) :
    Within same name c (c.marked name) := ⟨find_head hname c.marks,rfl,rfl⟩

end Run

end Nested

import Mathlib.Data.List.Basic
set_option autoImplicit false

/-! `changeset_apply`: a recorded changeset is applied to a database that may have moved on,
and a conflict strategy says what becomes of a change that does not fit. The call hands SQLite
a conflict handler; `sqlite3changeset_apply` itself is a parameter. -/

namespace Xqlite.Changesets

inductive ConflictType where
  | data | notFound | conflict | constraint | foreignKey | unknown
  deriving DecidableEq, Repr

inductive ConflictAction where
  | omit | replace | abort
  deriving DecidableEq, Repr

/-- The closure that `changeset_apply` hands over. -/
def conflictAction (strategy : ConflictAction) (conflictType : ConflictType) : ConflictAction :=
  if strategy = .abort then .abort
  else if strategy = .replace then
    match conflictType with
    | .data | .conflict => .replace
    | _ => .abort
  else .omit

/-- How a change of an applied changeset has fared, with the conflict the handler was last
asked about. -/
inductive Ending where
  /-- Its row was as recorded. -/
  | clean
  | replaced (type : ConflictType)
  | omitted (type : ConflictType)
  /-- Its table is missing or has another shape. -/
  | skipped
  deriving DecidableEq, Repr

/-- `sqlite3changeset_apply` with a handler, on a binary and a database. Each change in the
binary is about one row: `recorded` says that the row is as it was when the change was
recorded, `result` is the row with the change. `dangling` says that a foreign key is violated
that SQLite enforces. -/
structure Sqlite (δ χ ρ ε : Type*) where
  apply : (ConflictType → ConflictAction) → List UInt8 → δ → δ × Except ε Unit
  changes : List UInt8 → List χ
  ending : (ConflictType → ConflictAction) → List UInt8 → δ → χ → Ending
  row : δ → χ → Option ρ
  recorded : χ → Option ρ → Prop
  result : χ → Option ρ → Option ρ
  dangling : δ → Bool
  misuse : ε

section Source
variable {δ χ ρ ε : Type*} (Q : Sqlite δ χ ρ ε)

inductive Reply (ε : Type*) where
  | ok
  | invalidConflictStrategy
  | connectionClosed
  | failure (e : ε)
  deriving DecidableEq, Repr

def strategyOf : String → Option ConflictAction
  | "omit" => some .omit
  | "replace" => some .replace
  | "abort" => some .abort
  | _ => none

def replyOf : Except ε Unit → Reply ε
  | .ok () => .ok
  | .error e => .failure e

def changesetApply (isOpen : Bool) (changesetBinary : List UInt8) (conflictStrategy : String)
    (db : δ) : δ × Reply ε :=
  match strategyOf conflictStrategy with
  | none => (db,.invalidConflictStrategy)
  | some strategy =>
    if isOpen then
      ((Q.apply (conflictAction strategy) changesetBinary db).1,
        replyOf (Q.apply (conflictAction strategy) changesetBinary db).2)
    else (db,.connectionClosed)

end Source

section Rules
variable {δ χ ρ ε : Type*}

/-- What SQLite documents of an apply, for a changeset with each row once and a database
whose triggers and foreign key actions leave those rows alone. A failure is rolled back. A
change is left out or overrides a row only on the handler's word, which may be REPLACE only
where a row is in the way; an apply that leaves a foreign key dangling where none was needs its
word, too. -/
structure Sqlite.Follows (Q : Sqlite δ χ ρ ε) (changeset : List UInt8) (db : δ) : Prop where
  atomic : ∀ {handler e}, (Q.apply handler changeset db).2 = .error e →
    (Q.apply handler changeset db).1 = db
  misuse : ∀ {handler}, (Q.apply handler changeset db).2 = .error Q.misuse →
    ∃ type, type ∉ [ConflictType.data,.conflict] ∧ handler type = .replace
  clean : ∀ {handler c}, (Q.apply handler changeset db).2 = .ok () → c ∈ Q.changes changeset →
    Q.ending handler changeset db c = .clean → Q.recorded c (Q.row db c) ∧
      Q.row (Q.apply handler changeset db).1 c = Q.result c (Q.row db c)
  replaced : ∀ {handler c type}, (Q.apply handler changeset db).2 = .ok () →
    c ∈ Q.changes changeset → Q.ending handler changeset db c = .replaced type →
    handler type = .replace ∧
      Q.row (Q.apply handler changeset db).1 c = Q.result c (Q.row db c)
  omitted : ∀ {handler c type}, (Q.apply handler changeset db).2 = .ok () →
    c ∈ Q.changes changeset → Q.ending handler changeset db c = .omitted type →
    handler type = .omit ∧ ((∀ type', handler type' ≠ .replace) →
      Q.row (Q.apply handler changeset db).1 c = Q.row db c)
  skipped : ∀ {handler c}, (Q.apply handler changeset db).2 = .ok () → c ∈ Q.changes changeset →
    Q.ending handler changeset db c = .skipped →
    Q.row (Q.apply handler changeset db).1 c = Q.row db c
  keys : ∀ {handler}, (Q.apply handler changeset db).2 = .ok () → Q.dangling db = false →
    Q.dangling (Q.apply handler changeset db).1 = true → handler .foreignKey = .omit

/-- What becomes of a change under each strategy, from its row before the call. -/
def Fate (Q : Sqlite δ χ ρ ε) (strategy : ConflictAction) (c : χ) (row row' : Option ρ) : Prop :=
  match strategy with
  | .omit => row' = row ∨ Q.recorded c row ∧ row' = Q.result c row
  | .replace => row' = Q.result c row
  | .abort => Q.recorded c row ∧ row' = Q.result c row

theorem conflictAction_replace {strategy : ConflictAction} {type : ConflictType}
    (h : conflictAction strategy type = .replace) :
    strategy = .replace ∧ type ∈ [ConflictType.data,.conflict] := by
  cases strategy <;> cases type <;> simp_all [conflictAction]

theorem conflictAction_omit {strategy : ConflictAction} {type : ConflictType} :
    conflictAction strategy type = .omit ↔ strategy = .omit := by
  cases strategy <;> cases type <;> simp [conflictAction]

variable {Q : Sqlite δ χ ρ ε} {changeset : List UInt8} {db : δ} {strategy : ConflictAction}

theorem Sqlite.Follows.fate (hQ : Q.Follows changeset db)
    (hok : (Q.apply (conflictAction strategy) changeset db).2 = .ok ()) {c : χ}
    (hc : c ∈ Q.changes changeset)
    (hused : Q.ending (conflictAction strategy) changeset db c ≠ .skipped) :
    Fate Q strategy c (Q.row db c)
      (Q.row (Q.apply (conflictAction strategy) changeset db).1 c) := by
  cases hending : Q.ending (conflictAction strategy) changeset db c with
  | clean =>
    obtain ⟨hrecorded,hrow⟩ := hQ.clean hok hc hending
    cases strategy
    · exact .inr ⟨hrecorded,hrow⟩
    · exact hrow
    · exact ⟨hrecorded,hrow⟩
  | replaced type =>
    obtain ⟨hanswer,hrow⟩ := hQ.replaced hok hc hending
    obtain ⟨rfl,-⟩ := conflictAction_replace hanswer
    exact hrow
  | omitted type =>
    obtain ⟨hanswer,hrow⟩ := hQ.omitted hok hc hending
    obtain rfl := conflictAction_omit.mp hanswer
    refine .inl (hrow fun type' hreplace => ?_)
    cases (conflictAction_replace hreplace).1
  | skipped => exact absurd hending hused

theorem Sqlite.Follows.not_misuse (hQ : Q.Follows changeset db) :
    (Q.apply (conflictAction strategy) changeset db).2 ≠ .error Q.misuse := by
  intro hmisuse
  obtain ⟨type,hother,hreplace⟩ := hQ.misuse hmisuse
  exact hother (conflictAction_replace hreplace).2

end Rules

section Calls
variable {δ χ ρ ε : Type*} (Q : Sqlite δ χ ρ ε) (changeset : List UInt8) (db : δ)

theorem changesetApply_cases (isOpen : Bool) (conflictStrategy : String) :
    (∃ reply, changesetApply Q isOpen changeset conflictStrategy db = (db,reply) ∧ reply ≠ .ok ∧
      ∀ e, reply ≠ .failure e) ∨
    ∃ strategy, strategyOf conflictStrategy = some strategy ∧
      changesetApply Q isOpen changeset conflictStrategy db =
        ((Q.apply (conflictAction strategy) changeset db).1,
          replyOf (Q.apply (conflictAction strategy) changeset db).2) := by
  unfold changesetApply
  cases hstrategy : strategyOf conflictStrategy with
  | none => exact .inl ⟨_,rfl,nofun,nofun⟩
  | some strategy =>
    cases isOpen with
    | false => exact .inl ⟨_,rfl,nofun,nofun⟩
    | true => exact .inr ⟨strategy,rfl,rfl⟩

end Calls

section Example

def oneRow : Sqlite (Option Nat) (Nat × Nat) Nat String where
  apply handler _ db :=
    match db with
    | none =>
      match handler .notFound with
      | .omit => (db,.ok ())
      | .replace => (db,.error "misuse")
      | .abort => (db,.error "abort")
    | some v =>
      if v = 5 then (some 9,.ok ())
      else
        match handler .data with
        | .omit => (db,.ok ())
        | .replace => (some 9,.ok ())
        | .abort => (db,.error "abort")
  changes _ := [(5,9)]
  ending handler _ db _ :=
    match db with
    | none => .omitted .notFound
    | some v =>
      if v = 5 then .clean
      else if handler .data = .replace then .replaced .data else .omitted .data
  row db _ := db
  recorded c row := row = some c.1
  result c row := row.map fun _ => c.2
  dangling _ := false
  misuse := "misuse"

theorem oneRow_follows : oneRow.Follows [] (some 7) where
  atomic {handler e} h := by
    cases ha : handler .data <;> simp_all [oneRow]
  misuse {handler} h := by
    cases ha : handler .data <;> simp_all [oneRow]
  clean {handler c} h _ hending := by
    cases ha : handler .data <;> simp_all [oneRow]
  replaced {handler c type} h hc hending := by
    cases ha : handler .data <;> simp_all [oneRow]
  omitted {handler c type} h hc hending := by
    cases ha : handler .data <;> simp_all [oneRow]
  skipped {handler c} h _ hending := by
    cases ha : handler .data <;> simp_all [oneRow]
  keys h _ hdangling := by cases hdangling

end Example

end Xqlite.Changesets

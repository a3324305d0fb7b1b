import Mathlib.Data.List.Basic
set_option autoImplicit false

/-! A store with one level of transaction. Statements act on the working contents;
while a transaction is open the session keeps what a rollback goes back to. A
statement that is refused has no effect. -/

namespace Transaction

@[ext] structure Session (δ : Type) where
  db : δ
  saved : Option δ
  deriving DecidableEq

inductive Command (κ : Type) where
  | begin
  | commit
  | stmt (s : κ)

/-- What the store does. The answer to a statement may depend on its place in the
script, since other parties act in between. -/
structure Store (δ κ ε : Type) where
  run : Nat → κ → δ → Except ε δ
  refuseBegin : δ → Option ε
  refuseCommit : δ → Option ε
  alreadyOpen : ε
  notOpen : ε

variable {δ κ ε : Type} (S : Store δ κ ε)

def exec (n : Nat) (c : Session δ) : Command κ → Except ε (Session δ)
  | .begin =>
    match c.saved with
    | some _ => .error S.alreadyOpen
    | none =>
      match S.refuseBegin c.db with
      | some e => .error e
      | none => .ok ⟨c.db,some c.db⟩
  | .commit =>
    match c.saved with
    | none => .error S.notOpen
    | some _ =>
      match S.refuseCommit c.db with
      | some e => .error e
      | none => .ok ⟨c.db,none⟩
  | .stmt s =>
    match S.run n s c.db with
    | .error e => .error e
    | .ok db => .ok ⟨db,c.saved⟩

def script : Nat → List (Command κ) → Session δ → Session δ × Option ε
  | _, [], c => (c,none)
  | n, x :: xs, c =>
    match exec S n c x with
    | .error e => (c,some e)
    | .ok c' => script (n+1) xs c'

/-- Outside a transaction a rollback is refused and changes nothing. -/
def rollback (c : Session δ) : Session δ :=
  match c.saved with
  | none => c
  | some db => ⟨db,none⟩

def runAll : Nat → List κ → δ → Except ε δ
  | _, [], db => .ok db
  | n, s :: ss, db =>
    match S.run n s db with
    | .error e => .error e
    | .ok db' => runAll (n+1) ss db'

theorem runAll_cons {n : Nat} {s : κ} {ss : List κ} {db db' : δ} :
    runAll S n (s :: ss) db = .ok db' ↔
      ∃ mid, S.run n s db = .ok mid ∧ runAll S (n+1) ss mid = .ok db' := by
  cases h : S.run n s db <;> simp [runAll,h]

def body (ss : List κ) : List (Command κ) := ss.map .stmt ++ [.commit]

theorem script_body_refused {n : Nat} {ss : List κ} {db old : δ} {c : Session δ} {e : ε}
    (h : script S n (body ss) ⟨db,some old⟩ = (c,some e)) : c.saved = some old := by
  induction ss generalizing n db with
  | nil =>
    simp only [body,List.map_nil,List.nil_append,script,exec] at h
    cases hr : S.refuseCommit db with
    | none => simp [hr] at h
    | some e' =>
      simp only [hr,Prod.mk.injEq] at h
      rw [← h.1]
  | cons s ss ih =>
    simp only [body,List.map_cons,List.cons_append,script,exec] at h
    cases hr : S.run n s db with
    | error e' =>
      simp only [hr,Prod.mk.injEq] at h
      rw [← h.1]
    | ok db' =>
      simp only [hr] at h
      exact ih h

theorem script_body_done {n : Nat} {ss : List κ} {db old : δ} {c : Session δ}
    (h : script S n (body ss) ⟨db,some old⟩ = (c,none)) :
    runAll S n ss db = .ok c.db ∧ c.saved = none := by
  induction ss generalizing n db with
  | nil =>
    simp only [body,List.map_nil,List.nil_append,script,exec] at h
    cases hr : S.refuseCommit db with
    | some e' => simp [hr] at h
    | none =>
      simp only [hr,Prod.mk.injEq,and_true] at h
      subst h
      exact ⟨rfl,rfl⟩
  | cons s ss ih =>
    simp only [body,List.map_cons,List.cons_append,script,exec] at h
    cases hr : S.run n s db with
    | error e' => simp [hr] at h
    | ok db' =>
      simp only [hr] at h
      simpa [runAll,hr] using ih h

/-- One transaction around the statements, rolled back at the first refusal. -/
def transact (ss : List κ) (c : Session δ) : Session δ × Option ε :=
  match script S 0 (.begin :: body ss) c with
  | (c',none) => (c',none)
  | (c',some e) => (rollback c',some e)

/-- Outside a transaction, a refused one leaves no trace. -/
theorem transact_refused {ss : List κ} {c : Session δ} {e : ε} (hs : c.saved = none)
    (h : (transact S ss c).2 = some e) : (transact S ss c).1 = c := by
  obtain ⟨db,saved⟩ := c
  subst hs
  cases hb : S.refuseBegin db with
  | some e' => simp [transact,script,exec,hb,rollback]
  | none =>
    cases hrest : script S 1 (body ss) ⟨db,some db⟩ with
    | mk c' r =>
      cases r with
      | none => simp [transact,script,exec,hb,hrest] at h
      | some e' =>
        have hsaved := script_body_refused S hrest
        simp [transact,script,exec,hb,hrest,rollback,hsaved]

/-- Inside one, it takes the transaction that was open with it. -/
theorem transact_nested {ss : List κ} {c : Session δ} {old : δ} (hs : c.saved = some old) :
    transact S ss c = (⟨old,none⟩,some S.alreadyOpen) := by
  simp [transact,script,exec,hs,rollback]

theorem transact_done {ss : List κ} {c : Session δ} (h : (transact S ss c).2 = none) :
    c.saved = none ∧ ∃ db, runAll S 1 ss c.db = .ok db ∧ (transact S ss c).1 = ⟨db,none⟩ := by
  obtain ⟨db,saved⟩ := c
  cases saved with
  | some old =>
    rw [transact_nested S (rfl : (⟨db,some old⟩ : Session δ).saved = some old)] at h
    cases h
  | none =>
    refine ⟨rfl,?_⟩
    cases hb : S.refuseBegin db with
    | some e => simp [transact,script,exec,hb] at h
    | none =>
      cases hrest : script S 1 (body ss) ⟨db,some db⟩ with
      | mk c' r =>
        cases r with
        | some e => simp [transact,script,exec,hb,hrest] at h
        | none =>
          obtain ⟨hrun,hsaved⟩ := script_body_done S hrest
          refine ⟨c'.db,hrun,?_⟩
          obtain ⟨db',saved'⟩ := c'
          subst hsaved
          simp [transact,script,exec,hb,hrest]

end Transaction

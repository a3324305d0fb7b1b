import Xqlite.StatementBind
import Xqlite.StreamFetch
set_option autoImplicit false

namespace Xqlite.Prepared
open Runs Xqlite.Stream Statement

/-- The statement behind the pointer. `rest` is what the execution in progress will still
answer, `none` before the first step; `executions` counts those that were begun. -/
structure Vdbe where
  params : Statement.Stmt
  rest : Option (List StepResult)
  executions : Nat

section Sqlite

variable (plan : Nat → List Value → List StepResult)

/-- A statement that has not begun, or whose execution is over, begins with the values it is
bound to. `plan` is what each execution answers. -/
def sqlite3Step (v : Vdbe) : StepResult × Vdbe :=
  match v.rest with
  | some (r :: rest) => (r,{ v with rest := some rest })
  | _ =>
    match plan v.executions v.params.values with
    | [] => (.done,{ v with rest := some [], executions := v.executions+1 })
    | r :: rest => (r,{ v with rest := some rest, executions := v.executions+1 })

def sqlite3Reset (v : Vdbe) : Vdbe := { v with rest := none }

theorem nulls_bound (s : Statement.Stmt) :
    (List.replicate s.names.length Value.null).length = s.names.length :=
  List.length_replicate

/-- An execution in progress goes on with the cleared values. -/
def sqlite3ClearBindings (goesOn : List StepResult) (v : Vdbe) : Vdbe :=
  { v with
    params := { v.params with
      values := List.replicate v.params.names.length .null, bound := nulls_bound v.params }
    rest := v.rest.map fun _ => goesOn }

def misuse : BindReply := ⟨21,some "bad parameter or other API misuse",false⟩

/-- SQLite refuses to bind a statement that was stepped and not reset. -/
def Vdbe.replies (v : Vdbe) (replies : Nat → BindReply) (i : Nat) : BindReply :=
  if v.rest.isNone then replies i else misuse

end Sqlite

inductive Reason where
  | lockError (text : String)
  | xqlite (e : XqliteError)
  deriving Repr

def poisonedText : String := "poisoned lock: another task failed inside"

/-- The pointer is null once the statement was taken for finalizing. `connOpen` and
`poisoned` are the connection's. -/
structure XqliteStatement where
  atomicRawStmt : Option Vdbe
  connOpen : Bool
  poisoned : Bool
  columnNames : List String

/-- The closure may panic while it has the mutex. -/
def withLiveStmt {R : Type} (h : XqliteStatement)
    (f : Vdbe → Vdbe × Outcome XqliteError R) : XqliteStatement × Outcome Reason R :=
  if h.poisoned then (h,.error (.lockError poisonedText))
  else if !h.connOpen then (h,.error (.xqlite .connectionClosed))
  else
    match h.atomicRawStmt with
    | none => (h,.error (.xqlite .statementFinalized))
    | some v =>
      match f v with
      | (v',.ok r) => ({ h with atomicRawStmt := some v' },.ok r)
      | (v',.error e) => ({ h with atomicRawStmt := some v' },.error (.xqlite e))
      | (v',.crash) => ({ h with atomicRawStmt := some v', poisoned := true },.crash)

def stmtBind (replies : Nat → BindReply) (params : Term) (h : XqliteStatement) :
    XqliteStatement × Outcome Reason Unit :=
  withLiveStmt h fun v =>
    ({ v with params := (bindLive (v.replies replies) params v.params).1 },
      (bindLive (v.replies replies) params v.params).2)

section Steps

variable (plan : Nat → List Value → List StepResult)

def ofResult {R : Type} : Except XqliteError R → Outcome XqliteError R
  | .ok r => .ok r
  | .error e => .error e

def processSingleStep (v : Vdbe) : Vdbe × Except XqliteError (Option (List Term)) :=
  ((sqlite3Step plan v).2,stepTerms (sqlite3Step plan v).1)

inductive StepReply where
  | row (terms : List Term)
  | done
  | error (reason : Reason)
  | panicked

def StepReply.ofOutcome : Outcome Reason (Option (List Term)) → StepReply
  | .ok (some terms) => .row terms
  | .ok none => .done
  | .error reason => .error reason
  | .crash => .panicked

def stmtStep (h : XqliteStatement) : XqliteStatement × StepReply :=
  let result := withLiveStmt h fun v =>
    ((processSingleStep plan v).1,ofResult (processSingleStep plan v).2)
  (result.1,.ofOutcome result.2)

/-- The rows already taken are dropped on an error. -/
def stepLoop : Nat → Vdbe → List (List Term) → Vdbe × Except XqliteError (List (List Term) × Bool)
  | 0, v, rows => (v,.ok (rows,false))
  | n+1, v, rows =>
    match processSingleStep plan v with
    | (v',.ok (some row)) => stepLoop n v' (rows ++ [row])
    | (v',.ok none) => (v',.ok (rows,true))
    | (v',.error e) => (v',.error e)

inductive MultiReply where
  | rows (rows : List (List Term)) (done : Bool)
  | invalidBatchSize (provided : Int) (minimum : Nat)
  | error (reason : Reason)
  | panicked

def MultiReply.ofOutcome : Outcome Reason (List (List Term) × Bool) → MultiReply
  | .ok (batch,finished) => .rows batch finished
  | .error reason => .error reason
  | .crash => .panicked

def stmtMultiStep (batchSize : Int) (h : XqliteStatement) : XqliteStatement × MultiReply :=
  if batchSize < 1 then (h,.invalidBatchSize batchSize 1)
  else
    let result := withLiveStmt h fun v =>
      ((stepLoop plan batchSize.toNat v []).1,ofResult (stepLoop plan batchSize.toNat v []).2)
    (result.1,.ofOutcome result.2)

end Steps

def stmtReset (h : XqliteStatement) : XqliteStatement × Outcome Reason Unit :=
  withLiveStmt h fun v => (sqlite3Reset v,.ok ())

def stmtClearBindings (goesOn : List StepResult) (h : XqliteStatement) :
    XqliteStatement × Outcome Reason Unit :=
  withLiveStmt h fun v => (sqlite3ClearBindings goesOn v,.ok ())

/-- SQLite answers a null pointer for a name it has no memory for. -/
def liveNames (i : Nat) : List (Option String) → Except XqliteError (List String)
  | [] => .ok []
  | none :: _ =>
    .error (.internalEncodingError ("SQLite returned null column name for index " ++ toString i))
  | some name :: names => (liveNames (i+1) names).map (name :: ·)

def stmtColumnNames (names : List (Option String)) (h : XqliteStatement) :
    XqliteStatement × Outcome Reason (List String) :=
  match withLiveStmt h fun v => (v,ofResult (liveNames 0 names)) with
  | (h',.error (.xqlite .statementFinalized)) => (h',.ok h.columnNames)
  | (h',.error (.xqlite .connectionClosed)) => (h',.ok h.columnNames)
  | result => result

/-- `take_and_finalize_raw`. The pointer is taken first: on a poisoned mutex the statement
is leaked. -/
def stmtFinalize (h : XqliteStatement) : XqliteStatement × Outcome Reason Unit :=
  match h.atomicRawStmt with
  | none => (h,.ok ())
  | some _ =>
    ({ h with atomicRawStmt := none },
      if h.poisoned then .error (.lockError poisonedText) else .ok ())

/-- `stmt_step` as often as asked, up to the first that answers no row. -/
def stepUntil (plan : Nat → List Value → List StepResult) :
    Nat → XqliteStatement → XqliteStatement × List StepReply
  | 0, h => (h,[])
  | n+1, h =>
    match stmtStep plan h with
    | (h',.row terms) => ((stepUntil plan n h').1,.row terms :: (stepUntil plan n h').2)
    | (h',reply) => (h',[reply])

def summary (rows : List (List Term)) : List StepReply → MultiReply
  | [] => .rows rows false
  | .row terms :: replies => summary (rows ++ [terms]) replies
  | .done :: _ => .rows rows true
  | .error reason :: _ => .error reason
  | .panicked :: _ => .panicked

/-- Why the statement cannot be used, in the order in which the code finds out. -/
def XqliteStatement.blocked (h : XqliteStatement) : Option Reason :=
  if h.poisoned then some (.lockError poisonedText)
  else if !h.connOpen then some (.xqlite .connectionClosed)
  else if h.atomicRawStmt.isNone then some (.xqlite .statementFinalized)
  else none

theorem withLiveStmt_blocked {R : Type} {h : XqliteStatement} {reason : Reason}
    (hb : h.blocked = some reason) (f : Vdbe → Vdbe × Outcome XqliteError R) :
    withLiveStmt h f = (h,.error reason) := by
  unfold XqliteStatement.blocked at hb
  unfold withLiveStmt
  split at hb
  · next hp =>
    cases hb
    rw [if_pos hp]
  · next hp =>
    rw [if_neg hp]
    split at hb
    · next hc =>
      cases hb
      rw [if_pos hc]
    · next hc =>
      rw [if_neg hc]
      cases hv : h.atomicRawStmt with
      | none =>
        simp only [hv,Option.isNone_none,if_true] at hb
        cases hb
        rfl
      | some v => simp [hv] at hb

structure Live (h : XqliteStatement) (v : Vdbe) : Prop where
  sound : h.poisoned = false
  connOpen : h.connOpen = true
  pointer : h.atomicRawStmt = some v

theorem live_of_unblocked {h : XqliteStatement} (hb : h.blocked = none) : ∃ v, Live h v := by
  unfold XqliteStatement.blocked at hb
  cases hp : h.poisoned with
  | true => simp [hp] at hb
  | false =>
    cases hc : h.connOpen with
    | false => simp [hp,hc] at hb
    | true =>
      cases hv : h.atomicRawStmt with
      | none => simp [hp,hc,hv] at hb
      | some v => exact ⟨v,hp,hc,hv⟩

theorem Live.next {h : XqliteStatement} {v : Vdbe} (hl : Live h v) (v' : Vdbe) :
    Live { h with atomicRawStmt := some v' } v' :=
  ⟨hl.sound,hl.connOpen,rfl⟩

theorem withLiveStmt_live {R : Type} {h : XqliteStatement} {v : Vdbe} (hl : Live h v)
    (f : Vdbe → Vdbe × Outcome XqliteError R) :
    withLiveStmt h f =
      match f v with
      | (v',.ok r) => ({ h with atomicRawStmt := some v' },.ok r)
      | (v',.error e) => ({ h with atomicRawStmt := some v' },.error (.xqlite e))
      | (v',.crash) => ({ h with atomicRawStmt := some v', poisoned := true },.crash) := by
  simp [withLiveStmt,hl.sound,hl.connOpen,hl.pointer]

def twoRows : Nat → List Value → List StepResult
  | _, _ => [.row ["a"] [.integer 1],.row ["a"] [.integer 2],.done]

def fresh : XqliteStatement := ⟨some ⟨⟨[],[],rfl,Nat.zero_le _⟩,none,0⟩,true,false,["a"]⟩

section Multi

variable (plan : Nat → List Value → List StepResult) {h : XqliteStatement} {v : Vdbe}

theorem stmtStep_blocked {reason : Reason} (hb : h.blocked = some reason) :
    stmtStep plan h = (h,.error reason) := by
  simp only [stmtStep,withLiveStmt_blocked hb]
  rfl

theorem stmtStep_live (hl : Live h v) :
    stmtStep plan h =
      ({ h with atomicRawStmt := some (processSingleStep plan v).1 },
        match (processSingleStep plan v).2 with
        | .ok (some terms) => .row terms
        | .ok none => .done
        | .error e => .error (.xqlite e)) := by
  simp only [stmtStep,withLiveStmt_live hl]
  cases (processSingleStep plan v).2 with
  | error e => rfl
  | ok row =>
    cases row with
    | none => rfl
    | some terms => rfl

def MultiReply.ofLoop : Except XqliteError (List (List Term) × Bool) → MultiReply
  | .ok (batch,finished) => .rows batch finished
  | .error e => .error (.xqlite e)

theorem stmtMultiStep_live (hl : Live h v) {batchSize : Int} (hn : 1 ≤ batchSize) :
    stmtMultiStep plan batchSize h =
      ({ h with atomicRawStmt := some (stepLoop plan batchSize.toNat v []).1 },
        .ofLoop (stepLoop plan batchSize.toNat v []).2) := by
  have hvalid : ¬ batchSize < 1 := by omega
  simp only [stmtMultiStep,hvalid,if_false,withLiveStmt_live hl]
  cases (stepLoop plan batchSize.toNat v []).2 with
  | error e => rfl
  | ok result => rfl

theorem stepUntil_live (n : Nat) (hl : Live h v) (rows : List (List Term)) :
    (stepUntil plan n h).1 = { h with atomicRawStmt := some (stepLoop plan n v rows).1 } ∧
      summary rows (stepUntil plan n h).2 = .ofLoop (stepLoop plan n v rows).2 := by
  induction n generalizing h v rows with
  | zero => exact ⟨by rw [stepUntil,stepLoop,← hl.pointer],rfl⟩
  | succ n ih =>
    have hstep := stmtStep_live plan hl
    cases hp : processSingleStep plan v with
    | mk v' result =>
      rw [hp] at hstep
      cases result with
      | error e =>
        simp only [stepUntil,stepLoop,hstep,hp]
        exact ⟨trivial,rfl⟩
      | ok row =>
        cases row with
        | none =>
          simp only [stepUntil,stepLoop,hstep,hp]
          exact ⟨trivial,rfl⟩
        | some terms =>
          simp only [stepUntil,stepLoop,hstep,hp,summary]
          exact ih (hl.next v') (rows ++ [terms])

/-- `stmt_multi_step` is `stmt_step` up to the first that answers no row, in every state of
the statement and its connection: it leaves what those steps leave, and it answers their rows
and whether they came to the end. An error among them hides the rows before it. -/
theorem multi_step_eq_steps (h : XqliteStatement) (batchSize : Int) (hn : 1 ≤ batchSize) :
    stmtMultiStep plan batchSize h =
      ((stepUntil plan batchSize.toNat h).1,summary [] (stepUntil plan batchSize.toNat h).2) := by
  cases hb : h.blocked with
  | some reason =>
    obtain ⟨n,hsize⟩ : ∃ n, batchSize.toNat = n+1 := ⟨batchSize.toNat-1,by omega⟩
    have hvalid : ¬ batchSize < 1 := by omega
    simp only [stmtMultiStep,hvalid,if_false,withLiveStmt_blocked hb,hsize,stepUntil,
      stmtStep_blocked plan hb]
    rfl
  | none =>
    obtain ⟨v,hl⟩ := live_of_unblocked hb
    obtain ⟨hstate,hreply⟩ := stepUntil_live plan batchSize.toNat hl []
    rw [stmtMultiStep_live plan hl hn,hstate,hreply]

theorem multi_step_eq_steps_three :
    stmtMultiStep twoRows 3 fresh =
      ((stepUntil twoRows 3 fresh).1,.rows [[.int 1],[.int 2]] true) :=
  multi_step_eq_steps twoRows fresh 3 (by omega)

end Multi

inductive Call where
  | bind (replies : Nat → BindReply) (params : Term)
  | step
  | multiStep (batchSize : Int)
  | reset
  | clearBindings (goesOn : List StepResult)
  | columnNames (names : List (Option String))
  | finalize
  | closeConnection
  | panicElsewhere

inductive Reply where
  | unit (outcome : Outcome Reason Unit)
  | step (reply : StepReply)
  | multi (reply : MultiReply)
  | names (outcome : Outcome Reason (List String))

/-- One call. The last two are what others do to the connection. -/
def call (plan : Nat → List Value → List StepResult) (h : XqliteStatement) :
    Call → XqliteStatement × Reply
  | .bind replies params => ((stmtBind replies params h).1,.unit (stmtBind replies params h).2)
  | .step => ((stmtStep plan h).1,.step (stmtStep plan h).2)
  | .multiStep n => ((stmtMultiStep plan n h).1,.multi (stmtMultiStep plan n h).2)
  | .reset => ((stmtReset h).1,.unit (stmtReset h).2)
  | .clearBindings goesOn =>
    ((stmtClearBindings goesOn h).1,.unit (stmtClearBindings goesOn h).2)
  | .columnNames names => ((stmtColumnNames names h).1,.names (stmtColumnNames names h).2)
  | .finalize => ((stmtFinalize h).1,.unit (stmtFinalize h).2)
  | .closeConnection => ({ h with connOpen := if h.poisoned then h.connOpen else false },.unit (.ok ()))
  | .panicElsewhere => ({ h with poisoned := true },.unit (.ok ()))

def Call.reads : Call → Bool
  | .step | .multiStep _ | .columnNames _ => true
  | _ => false

def Call.asked : Call → Nat
  | .step => 1
  | .multiStep n => n.toNat
  | _ => 0

def asked (calls : List Call) : Nat := (calls.map Call.asked).sum

def Reply.carried : Reply → List (List Term)
  | .step (.row terms) => [terms]
  | .multi (.rows batch _) => batch
  | _ => []

def Reply.ends : Reply → Option Ending
  | .step .done | .multi (.rows _ true) => some (.ok ())
  | .step (.error (.xqlite e)) | .multi (.error (.xqlite e)) => some (.error e)
  | _ => none

/-- The rows that came through, if those of the failing batch are lost. -/
def carriedAtEnd (last : Ending) (rows before : List (List Term)) : List (List Term) :=
  match last with
  | .ok () => rows
  | .error _ => before

def delivered (replies : List Reply) : List (List Term) := replies.flatMap Reply.carried

section Delivery

variable {plan : Nat → List Value → List StepResult} {h : XqliteStatement} {v : Vdbe}
  {rows : List (List Term)} {last : Ending}

def Vdbe.upcoming (plan : Nat → List Value → List StepResult) (v : Vdbe) : List StepResult :=
  match v.rest with
  | some (r :: rest) => r :: rest
  | _ => plan v.executions v.params.values

theorem sqlite3Step_upcoming {r : StepResult} {rest : List StepResult}
    (hu : v.upcoming plan = r :: rest) :
    (sqlite3Step plan v).1 = r ∧ (sqlite3Step plan v).2.rest = some rest := by
  cases hrest : v.rest with
  | none =>
    simp only [Vdbe.upcoming,hrest] at hu
    simp only [sqlite3Step,hrest,hu]
    exact ⟨trivial,trivial⟩
  | some left =>
    cases left with
    | nil =>
      simp only [Vdbe.upcoming,hrest] at hu
      simp only [sqlite3Step,hrest,hu]
      exact ⟨trivial,trivial⟩
    | cons r' rest' =>
      simp only [Vdbe.upcoming,hrest] at hu
      cases hu
      simp only [sqlite3Step,hrest]
      exact ⟨trivial,trivial⟩

/-- The statement will answer `rows` and then stop. After a row that cannot be decoded there
may be more to come. -/
def Vdbe.Serves (plan : Nat → List Value → List StepResult) (v : Vdbe) (rows : List (List Term))
    (last : Ending) : Prop :=
  ∃ script more, v.upcoming plan = script ++ more ∧ Executes script rows last

theorem executes_ne_nil {script : List StepResult} (hex : Executes script rows last) :
    script ≠ [] := by
  intro hnil
  rw [hnil] at hex
  simp [Executes] at hex

theorem processSingleStep_serves {row : List Term} (hs : v.Serves plan (row :: rows) last) :
    (processSingleStep plan v).2 = .ok (some row) ∧
      (processSingleStep plan v).1.Serves plan rows last := by
  obtain ⟨script,more,hu,hex⟩ := hs
  obtain ⟨r,rest,rfl,hr,hrest⟩ := executes_cons hex
  obtain ⟨hresult,hnext⟩ := sqlite3Step_upcoming hu
  refine ⟨by rw [processSingleStep,hresult,hr],rest,more,?_,hrest⟩
  cases rest with
  | nil => exact absurd rfl (executes_ne_nil hrest)
  | cons r' rest' =>
    simp only [Vdbe.upcoming,processSingleStep,hnext]
    rfl

theorem processSingleStep_stops (hs : v.Serves plan [] last) :
    (processSingleStep plan v).2 = last.outcome := by
  obtain ⟨script,more,hu,hex⟩ := hs
  obtain ⟨r,rfl,hr⟩ := executes_nil hex
  rw [processSingleStep,(sqlite3Step_upcoming hu).1,hr]

theorem stepLoop_row {n : Nat} {row : List Term} {taken : List (List Term)}
    (hrow : (processSingleStep plan v).2 = .ok (some row)) :
    stepLoop plan (n+1) v taken =
      stepLoop plan n (processSingleStep plan v).1 (taken ++ [row]) := by
  conv_lhs => rw [stepLoop,← Prod.eta (processSingleStep plan v),hrow]

def lastBatch (batch : List (List Term)) : Ending → Except XqliteError (List (List Term) × Bool)
  | .ok () => .ok (batch,true)
  | .error e => .error e

theorem stepLoop_last {n : Nat} {taken : List (List Term)}
    (hlast : (processSingleStep plan v).2 = last.outcome) :
    stepLoop plan (n+1) v taken = ((processSingleStep plan v).1,lastBatch taken last) := by
  cases last with
  | ok _ => rw [stepLoop,← Prod.eta (processSingleStep plan v),hlast]; rfl
  | error e => rw [stepLoop,← Prod.eta (processSingleStep plan v),hlast]; rfl

theorem stepLoop_within (n : Nat) (hs : v.Serves plan rows last) (hn : n ≤ rows.length)
    (taken : List (List Term)) :
    (stepLoop plan n v taken).2 = .ok (taken ++ rows.take n,false) ∧
      (stepLoop plan n v taken).1.Serves plan (rows.drop n) last := by
  induction n generalizing v rows taken with
  | zero => exact ⟨by simp [stepLoop],hs⟩
  | succ n ih =>
    cases rows with
    | nil => simp at hn
    | cons row rows =>
      obtain ⟨hrow,hnext⟩ := processSingleStep_serves hs
      obtain ⟨hreply,hserves⟩ := ih hnext (by simpa using hn) (taken ++ [row])
      rw [stepLoop_row hrow]
      exact ⟨by rw [hreply]; simp,hserves⟩

theorem stepLoop_beyond (n : Nat) (hs : v.Serves plan rows last) (hn : rows.length < n)
    (taken : List (List Term)) :
    (stepLoop plan n v taken).2 = lastBatch (taken ++ rows) last := by
  induction n generalizing v rows taken with
  | zero => omega
  | succ n ih =>
    cases rows with
    | nil => rw [stepLoop_last (processSingleStep_stops hs),List.append_nil]
    | cons row rows =>
      obtain ⟨hrow,hnext⟩ := processSingleStep_serves hs
      rw [stepLoop_row hrow,ih hnext (by simpa using hn) (taken ++ [row])]
      simp

theorem stmtColumnNames_handle (names : List (Option String)) :
    (stmtColumnNames names h).1 =
      (withLiveStmt h fun v => (v,ofResult (liveNames 0 names))).1 := by
  unfold stmtColumnNames
  split
  · next heq => rw [heq]
  · next heq => rw [heq]
  · rfl

theorem stmtColumnNames_live (hl : Live h v) (names : List (Option String)) :
    (stmtColumnNames names h).1 = h := by
  have hsame : { h with atomicRawStmt := some v } = h := by rw [← hl.pointer]
  rw [stmtColumnNames_handle,withLiveStmt_live hl]
  cases liveNames 0 names with
  | ok names => exact hsame
  | error e => exact hsame

theorem call_within (hl : Live h v) (hs : v.Serves plan rows last) {c : Call}
    (hc : c.reads = true) (hn : c.asked ≤ rows.length) :
    ∃ v', Live (call plan h c).1 v' ∧ v'.Serves plan (rows.drop c.asked) last ∧
      (call plan h c).2.carried = rows.take c.asked ∧ (call plan h c).2.ends = none := by
  cases c with
  | step =>
    cases rows with
    | nil => simp [Call.asked] at hn
    | cons row rows =>
      obtain ⟨hrow,hnext⟩ := processSingleStep_serves hs
      refine ⟨(processSingleStep plan v).1,?_,hnext,?_,?_⟩
      · simp only [call,stmtStep_live plan hl]
        exact hl.next _
      · simp only [call,stmtStep_live plan hl,hrow]
        rfl
      · simp only [call,stmtStep_live plan hl,hrow]
        rfl
  | multiStep n =>
    by_cases hvalid : 1 ≤ n
    · obtain ⟨hreply,hserves⟩ := stepLoop_within n.toNat hs hn []
      refine ⟨(stepLoop plan n.toNat v []).1,?_,hserves,?_,?_⟩
      · simp only [call,stmtMultiStep_live plan hl hvalid]
        exact hl.next _
      · simp only [call,stmtMultiStep_live plan hl hvalid,hreply]
        rfl
      · simp only [call,stmtMultiStep_live plan hl hvalid,hreply]
        rfl
    · have hzero : n.toNat = 0 := by omega
      have hrefused : stmtMultiStep plan n h = (h,.invalidBatchSize n 1) := by
        rw [stmtMultiStep,if_pos (by omega)]
      refine ⟨v,?_,?_,?_,?_⟩
      · simp only [call,hrefused]
        exact hl
      · simpa [Call.asked,hzero] using hs
      · simp only [call,hrefused,Call.asked,hzero,Reply.carried,List.take_zero]
      · simp only [call,hrefused]
        rfl
  | columnNames names =>
    refine ⟨v,?_,hs,?_,?_⟩
    · simp only [call,stmtColumnNames_live hl]
      exact hl
    · rfl
    · rfl
  | bind _ _ | reset | clearBindings _ | finalize | closeConnection | panicElsewhere => cases hc

theorem call_beyond (hl : Live h v) (hs : v.Serves plan rows last) {c : Call}
    (hc : c.reads = true) (hn : rows.length < c.asked) :
    (call plan h c).2.ends = some last ∧
      (call plan h c).2.carried = carriedAtEnd last rows [] := by
  cases c with
  | step =>
    obtain rfl : rows = [] := List.length_eq_zero_iff.mp (by simpa [Call.asked] using hn)
    have hlast := processSingleStep_stops hs
    simp only [call,stmtStep_live plan hl,hlast]
    cases last with
    | ok _ => exact ⟨rfl,rfl⟩
    | error e => exact ⟨rfl,rfl⟩
  | multiStep n =>
    have hvalid : 1 ≤ n := by
      simp only [Call.asked] at hn
      omega
    have hreply := stepLoop_beyond n.toNat hs hn []
    simp only [call,stmtMultiStep_live plan hl hvalid,hreply,List.nil_append]
    cases last with
    | ok _ => exact ⟨rfl,rfl⟩
    | error e => exact ⟨rfl,rfl⟩
  | columnNames names => simp [Call.asked] at hn
  | bind _ _ | reset | clearBindings _ | finalize | closeConnection | panicElsewhere => cases hc

theorem run_within (calls : List Call) (hl : Live h v) (hs : v.Serves plan rows last)
    (hc : ∀ c ∈ calls, c.reads = true) (hn : asked calls ≤ rows.length) :
    (∃ v', Live (run (call plan) h calls).1 v' ∧ v'.Serves plan (rows.drop (asked calls)) last) ∧
      delivered (run (call plan) h calls).2 = rows.take (asked calls) ∧
      ∀ r ∈ (run (call plan) h calls).2, r.ends = none := by
  induction calls generalizing h v rows with
  | nil => exact ⟨⟨v,hl,hs⟩,by simp [delivered,asked],by simp⟩
  | cons c calls ih =>
    have hsplit : asked (c :: calls) = c.asked + asked calls := by simp [asked]
    rw [hsplit] at hn ⊢
    obtain ⟨v',hl',hs',hcarried,hends⟩ := call_within hl hs (hc c List.mem_cons_self) (by omega)
    obtain ⟨hstate,hrest,hnone⟩ := ih hl' hs' (fun c' hc' => hc c' (List.mem_cons_of_mem c hc'))
      (by rw [List.length_drop]; omega)
    rw [List.drop_drop] at hstate
    refine ⟨hstate,?_,?_⟩
    · have hcons : delivered (run (call plan) h (c :: calls)).2 =
          (call plan h c).2.carried ++ delivered (run (call plan) (call plan h c).1 calls).2 := rfl
      rw [hcons,hcarried,hrest,List.take_add]
    · intro r hr
      obtain heq | htail := List.mem_cons.mp hr
      · rw [heq]
        exact hends
      · exact hnone r htail

theorem exists_crossing (calls : List Call) {n : Nat} (hn : n < asked calls) :
    ∃ before c after, calls = before ++ c :: after ∧ asked before ≤ n ∧
      n - asked before < c.asked := by
  induction calls generalizing n with
  | nil => simp [asked] at hn
  | cons c calls ih =>
    have hsplit : asked (c :: calls) = c.asked + asked calls := by simp [asked]
    by_cases hc : n < c.asked
    · exact ⟨[],c,calls,rfl,Nat.zero_le n,by simpa [asked] using hc⟩
    · obtain ⟨before,c',after,rfl,hle,hlt⟩ := ih (n := n - c.asked) (by omega)
      have hbefore : asked (c :: before) = c.asked + asked before := by simp [asked]
      exact ⟨c :: before,c',after,rfl,by omega,by omega⟩

theorem stmtReset_serves {script more : List StepResult} (hl : Live h v)
    (hplan : plan v.executions v.params.values = script ++ more) (hex : Executes script rows last) :
    ∃ v', Live (stmtReset h).1 v' ∧ v'.Serves plan rows last :=
  ⟨sqlite3Reset v,by rw [stmtReset,withLiveStmt_live hl]; exact hl.next _,script,more,hplan,hex⟩

theorem run_crossing (before : List Call) {c : Call} (hl : Live h v)
    (hs : v.Serves plan rows last) (hreads : ∀ c' ∈ before ++ [c], c'.reads = true)
    (hle : asked before ≤ rows.length) (hlt : rows.length < asked before + c.asked) :
    ∃ reply, (run (call plan) h (before ++ [c])).2 = (run (call plan) h before).2 ++ [reply] ∧
      (∀ r ∈ (run (call plan) h before).2, r.ends = none) ∧ reply.ends = some last ∧
      delivered (run (call plan) h (before ++ [c])).2 =
        carriedAtEnd last rows (rows.take (asked before)) := by
  obtain ⟨⟨v',hl',hs'⟩,hrows,hnone⟩ := run_within before hl hs
    (fun c' hc' => hreads c' (List.mem_append_left _ hc')) hle
  obtain ⟨hends,hcarried⟩ := call_beyond hl' hs' (hreads c (by simp))
    (by rw [List.length_drop]; omega)
  have hreplies := congrArg Prod.snd (run_append (call plan) h before [c])
  refine ⟨_,hreplies,hnone,hends,?_⟩
  have happend : delivered (run (call plan) h (before ++ [c])).2 =
      delivered (run (call plan) h before).2 ++
        (call plan (run (call plan) h before).1 c).2.carried := by
    rw [hreplies]
    simp [delivered]
  rw [happend,hrows,hcarried]
  cases last with
  | ok _ => exact List.take_append_drop _ _
  | error e => exact List.append_nil _

def repliesAfterReset (plan : Nat → List Value → List StepResult) (h : XqliteStatement)
    (calls : List Call) : List Reply :=
  (run (call plan) (stmtReset h).1 calls).2

/-- Whatever was done to a live statement before, a reset and then any calls of `stmt_step`
and `stmt_multi_step`, of any sizes and with other reading calls between them, deliver the
rows of one execution with the values now bound: each row once and in order, and the end only
with the call that asks beyond the last row. If the execution fails there, the rows of that
last batch are lost and no others. -/
theorem statement_delivers_every_row (plan : Nat → List Value → List StepResult)
    (h : XqliteStatement) (v : Vdbe) (hl : Live h v) (script more : List StepResult)
    (hplan : plan v.executions v.params.values = script ++ more) (rows : List (List Term))
    (last : Ending) (hex : Executes script rows last) (calls : List Call)
    (hreads : ∀ c ∈ calls, c.reads = true) :
    (asked calls ≤ rows.length →
      delivered (repliesAfterReset plan h calls) = rows.take (asked calls) ∧
      ∀ r ∈ repliesAfterReset plan h calls, r.ends = none) ∧
    (rows.length < asked calls → ∃ before c after reply, calls = before ++ c :: after ∧
      repliesAfterReset plan h (before ++ [c]) = repliesAfterReset plan h before ++ [reply] ∧
      (∀ r ∈ repliesAfterReset plan h before, r.ends = none) ∧ reply.ends = some last ∧
      delivered (repliesAfterReset plan h (before ++ [c])) =
        carriedAtEnd last rows (rows.take (asked before))) := by
  obtain ⟨v₀,hl₀,hs₀⟩ := stmtReset_serves hl hplan hex
  refine ⟨fun hn => (run_within calls hl₀ hs₀ hreads hn).2,?_⟩
  intro hn
  obtain ⟨before,c,after,rfl,hle,hlt⟩ := exists_crossing calls hn
  have hreads' : ∀ c' ∈ before ++ [c], c'.reads = true := by
    intro c' hc'
    apply hreads
    simp only [List.mem_append,List.mem_cons,List.not_mem_nil,or_false] at hc' ⊢
    exact hc'.imp_right .inl
  obtain ⟨reply,hreplies,hnone,hends,hdelivered⟩ :=
    run_crossing before hl₀ hs₀ hreads' hle (by omega)
  exact ⟨before,c,after,reply,rfl,hreplies,hnone,hends,hdelivered⟩

theorem statement_delivers_two_rows :
    delivered (repliesAfterReset twoRows fresh [.step,.multiStep 1]) = [[.int 1],[.int 2]] := by
  have hl : Live fresh ⟨⟨[],[],rfl,Nat.zero_le _⟩,none,0⟩ := ⟨rfl,rfl,rfl⟩
  have h := statement_delivers_every_row twoRows fresh _ hl (twoRows 0 []) []
    (List.append_nil _).symm [[.int 1],[.int 2]] (.ok ()) rfl [.step,.multiStep 1]
    (by simp [Call.reads])
  exact (h.1 (by decide)).1

end Delivery

section Poison

variable (plan : Nat → List Value → List StepResult) {h : XqliteStatement}

def Call.refusal (reason : Reason) : Call → Option Reply
  | .bind _ _ | .reset | .clearBindings _ => some (.unit (.error reason))
  | .step => some (.step (.error reason))
  | .multiStep n => some (.multi (if n < 1 then .invalidBatchSize n 1 else .error reason))
  | .columnNames _ => some (.names (.error reason))
  | .finalize | .closeConnection | .panicElsewhere => none

theorem withLiveStmt_poisoned {R : Type} (hp : h.poisoned = true)
    (f : Vdbe → Vdbe × Outcome XqliteError R) :
    withLiveStmt h f = (h,.error (.lockError poisonedText)) :=
  withLiveStmt_blocked (by simp [XqliteStatement.blocked,hp]) f

theorem call_poisoned (hp : h.poisoned = true) (c : Call) :
    (call plan h c).1.poisoned = true ∧
      ∀ reply, c.refusal (.lockError poisonedText) = some reply → (call plan h c).2 = reply := by
  cases c with
  | bind replies params =>
    simp only [call,stmtBind,withLiveStmt_poisoned hp]
    exact ⟨hp,fun _ hr => Option.some.inj hr⟩
  | step =>
    simp only [call,stmtStep,withLiveStmt_poisoned hp]
    exact ⟨hp,fun _ hr => Option.some.inj hr⟩
  | multiStep n =>
    by_cases hn : n < 1
    · simp only [call,stmtMultiStep,Call.refusal,hn,if_true]
      exact ⟨hp,fun _ hr => Option.some.inj hr⟩
    · simp only [call,stmtMultiStep,Call.refusal,hn,if_false,withLiveStmt_poisoned hp]
      exact ⟨hp,fun _ hr => Option.some.inj hr⟩
  | reset =>
    simp only [call,stmtReset,withLiveStmt_poisoned hp]
    exact ⟨hp,fun _ hr => Option.some.inj hr⟩
  | clearBindings goesOn =>
    simp only [call,stmtClearBindings,withLiveStmt_poisoned hp]
    exact ⟨hp,fun _ hr => Option.some.inj hr⟩
  | columnNames names =>
    simp only [call,stmtColumnNames,withLiveStmt_poisoned hp]
    exact ⟨hp,fun _ hr => Option.some.inj hr⟩
  | finalize =>
    refine ⟨?_,fun _ hr => by cases hr⟩
    simp only [call,stmtFinalize]
    split
    · exact hp
    · exact hp
  | closeConnection => exact ⟨hp,fun _ hr => by cases hr⟩
  | panicElsewhere => exact ⟨rfl,fun _ hr => by cases hr⟩

theorem decodeItems_improper {items : List Term}
    (hconv : ∀ t ∈ items, ∃ v, elixirTermToRusqliteValue t = .ok v) :
    decodeItems elixirTermToRusqliteValue false items = .crash := by
  induction items with
  | nil => rfl
  | cons t items ih =>
    obtain ⟨v,hv⟩ := hconv t List.mem_cons_self
    have hrest := ih (fun t' ht' => hconv t' (List.mem_cons_of_mem t ht'))
    simp only [decodeItems,hv,hrest]

theorem bindLive_improper {items : List Term} {tail : Term} (hne : items ≠ [])
    (hconv : ∀ t ∈ items, ∃ v, elixirTermToRusqliteValue t = .ok v) (replies : Nat → BindReply)
    (s : Statement.Stmt) : bindLive replies (.improper items tail) s = (s,.crash) := by
  cases items with
  | nil => exact absurd rfl hne
  | cons t items =>
    obtain ⟨v,hv⟩ := hconv t List.mem_cons_self
    have hkeyword : isKeyword (.improper (t :: items) tail) = false :=
      isKeyword_of_convertible hv items
    have hdecode : decodePlainListParams (.improper (t :: items) tail) = .crash :=
      decodeItems_improper hconv
    simp only [bindLive,Term.getType,Term.isEmptyList,hkeyword,hdecode,Bool.false_eq_true,if_false]

/-- An improper parameter list takes the connection with it: its decoder panics under the
mutex, and from then on, whatever is called, every call that needs the statement answers the
lock error. -/
theorem improper_params_poison (h : XqliteStatement) (v : Vdbe) (hl : Live h v)
    (replies : Nat → BindReply) (items : List Term) (tail : Term) (hne : items ≠ [])
    (hconv : ∀ t ∈ items, ∃ v, elixirTermToRusqliteValue t = .ok v) (calls : List Call) (c : Call)
    (reply : Reply) (hc : c.refusal (.lockError poisonedText) = some reply) :
    (call plan h (.bind replies (.improper items tail))).2 = .unit .crash ∧
      (call plan (run (call plan) (call plan h (.bind replies (.improper items tail))).1
        calls).1 c).2 = reply := by
  have hbind : call plan h (.bind replies (.improper items tail)) =
      ({ h with atomicRawStmt := some v, poisoned := true },.unit .crash) := by
    simp only [call,stmtBind,withLiveStmt_live hl,bindLive_improper hne hconv]
  rw [hbind]
  have hpoisoned : (run (call plan) { h with atomicRawStmt := some v, poisoned := true }
      calls).1.poisoned = true :=
    run_inv_total (call plan) (I := fun h => h.poisoned = true)
      (fun h c hp => (call_poisoned plan hp c).1) calls rfl
  exact ⟨rfl,(call_poisoned plan hpoisoned c).2 reply hc⟩

theorem improper_params_poison_one :
    (call twoRows (run (call twoRows)
      (call twoRows fresh (.bind (fun _ => ⟨0,none,false⟩) (.improper [.int 1] (.int 2)))).1
      [.reset,.finalize]).1 .step).2 = .step (.error (.lockError poisonedText)) := by
  have hconv : ∀ t ∈ [Term.int 1], ∃ v, elixirTermToRusqliteValue t = .ok v := by
    intro t ht
    rw [List.mem_singleton.mp ht]
    exact ⟨.integer 1,rfl⟩
  exact (improper_params_poison twoRows fresh _ ⟨rfl,rfl,rfl⟩ (fun _ => ⟨0,none,false⟩) [.int 1]
    (.int 2) (by simp) hconv [.reset,.finalize] .step _ rfl).2

end Poison

end Xqlite.Prepared

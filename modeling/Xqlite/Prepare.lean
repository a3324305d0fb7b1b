import Xqlite.Params
set_option autoImplicit false

/-! The three entry points that hold a raw prepared statement between
`sqlite3_prepare_v2` and an owner: `stmt_prepare`, `stream_open` and
`core_explain_analyze`. The answers of SQLite are inputs, and each computation
logs when a statement is prepared and when it is finalized. -/

namespace Xqlite.Prepare
open Logged

inductive StmtId where
  | main | plan
  deriving DecidableEq, Repr

inductive Ev where
  | prepared (id : StmtId)
  | finalized (id : StmtId)
  deriving DecidableEq, Repr

abbrev Native (α : Type) := Logged Ev XqliteError α

/-- The answer of `sqlite3_prepare_v2`: an error code with the message on the
connection, or whether there is a statement and what follows it. -/
inductive PrepareAnswer where
  | failed (code : Int) (errmsg : Option String)
  | ok (statement : Bool) (tail : Option String)
  deriving DecidableEq, Repr

structure QueryPlanRow where
  id : Int
  parent : Int
  detail : String
  deriving DecidableEq, Repr

/-- What `rusqlite` answers for the query plan. A failing prepare may have compiled
a statement first; `rusqlite` then drops it. -/
inductive PlanAnswer where
  | failed (compiled : Bool) (e : XqliteError)
  | ok (columnCount : Nat) (rows : List (Except XqliteError QueryPlanRow))

structure ScanStatus where
  loops : Int
  rowsVisited : Int
  estimatedRows : UInt64
  name : String
  explain : String
  selectid : Int
  parentid : Int
  deriving DecidableEq, Repr

/-- Everything SQLite answers during one call. A column name is `none` where
SQLite returns a null pointer; `rowSteps` steps answer `SQLITE_ROW` and the one
after them answers `lastStep`. -/
structure Answers where
  prepare : PrepareAnswer
  columnNames : List (Option String)
  binds : BindAnswers
  plan : PlanAnswer
  rowSteps : Nat
  lastStep : Int × Option String
  wallTimeNs : Nat
  stmtCounters : List Int
  scans : List ScanStatus

structure Resource where
  atomicRawStmt : Option StmtId
  columnNames : List String
  deriving DecidableEq, Repr

structure ExplainAnalyze where
  wallTimeNs : Nat
  rowsProduced : Nat
  stmtCounters : List Int
  scans : List ScanStatus
  queryPlan : List QueryPlanRow

def sqlHasNul (sql : String) : Bool := sql.toList.contains '\x00'

def prepareError (code : Int) (errmsg : Option String) (sql : String) : XqliteError :=
  .sqliteFailure code (some (errmsg.getD ("SQLite preparation error (code " ++ toString code ++
    ") but no message available. SQL: " ++ sql)))

def isWhitespace (c : Char) : Bool :=
  let n := c.toNat
  (0x09 ≤ n && n ≤ 0x0D) || n == 0x20 || n == 0x85 || n == 0xA0 || n == 0x1680 ||
    (0x2000 ≤ n && n ≤ 0x200A) || n == 0x2028 || n == 0x2029 || n == 0x202F || n == 0x205F ||
    n == 0x3000

def trimIsEmpty (s : String) : Bool := s.toList.all isWhitespace

/-- Copy the column names; a null name finalizes the statement. -/
def readColumnNames (occasion : String) (i : Nat) : List (Option String) → Native (List String)
  | [] => pure []
  | none :: _ => do
      note [.finalized .main]
      stop (.internalEncodingError ("SQLite returned null column name for index " ++ toString i ++
        " during " ++ occasion))
  | some name :: rest => do
      let names ← readColumnNames occasion (i+1) rest
      pure (name :: names)

def stmtPrepare (a : Answers) (connOpen : Bool) (sql : String) : Native Resource :=
  if !connOpen then stop .connectionClosed
  else if sqlHasNul sql then stop .nulErrorInString
  else if sql.utf8ByteSize > cIntMax then
    stop (.cannotExecute "SQL string length exceeds c_int range")
  else
    match a.prepare with
    | .failed code errmsg => stop (prepareError code errmsg sql)
    | .ok false _ => stop (.cannotExecute "SQL contains no statement")
    | .ok true tail => do
        note [.prepared .main]
        if (tail.map trimIsEmpty).getD true then
          let columnNames ← readColumnNames "statement prepare" 0 a.columnNames
          pure ⟨some .main,columnNames⟩
        else do
          note [.finalized .main]
          stop .multipleStatements

/-- The decoding steps leave the function at once on an error; only the result of
binding is kept to be looked at. -/
def streamBindResult (a : Answers) (params : Term) : Native (Except XqliteError Unit) :=
  match params.getType with
  | .list =>
      if params.isEmptyList then pure (.ok ())
      else if isKeyword params then do
        let named ← lift (decodeExecKeywordParams params)
        pure (bindNamedParamsFfi a.binds named)
      else do
        let positional ← lift (decodePlainListParams params)
        pure (bindPositionalParamsFfi a.binds positional)
  | _ =>
      match params with
      | .atom "nil" => pure (.ok ())
      | _ => pure (.error (.expectedList "Parameters term was not a list: " params))

def streamOpen (a : Answers) (connOpen : Bool) (sql : String) (params : Term) : Native Resource :=
  if !connOpen then stop .connectionClosed
  else if sqlHasNul sql then stop .nulErrorInString
  else if sql.utf8ByteSize > cIntMax then
    stop (.cannotExecute "SQL string length exceeds c_int range")
  else
    match a.prepare with
    | .failed code errmsg => stop (prepareError code errmsg sql)
    | .ok false _ => pure ⟨none,[]⟩
    | .ok true _ => do
        note [.prepared .main]
        let bindResult ← streamBindResult a params
        match bindResult with
        | .error e => do
            note [.finalized .main]
            stop e
        | .ok () => do
            let columnNames ← readColumnNames "stream open" 0 a.columnNames
            pure ⟨some .main,columnNames⟩

def planRows : List (Except XqliteError QueryPlanRow) → Except XqliteError (List QueryPlanRow)
  | [] => .ok []
  | row :: rest => do
      let row ← row
      let rest ← planRows rest
      pure (row :: rest)

def planResult (columnCount : Nat) (rows : List (Except XqliteError QueryPlanRow)) :
    Except XqliteError (List QueryPlanRow) :=
  if columnCount ≠ 4 then
    .error (.cannotExecute ("EXPLAIN QUERY PLAN returned " ++ toString columnCount ++
      " columns; expected 4"))
  else planRows rows

/-- The plan's statement belongs to `rusqlite`, which finalizes it on every exit. -/
def collectQueryPlan (a : Answers) : Native (List QueryPlanRow) :=
  match a.plan with
  | .failed compiled e => do
      note (if compiled then [.prepared .plan,.finalized .plan] else [])
      stop e
  | .ok columnCount rows => do
      note [.prepared .plan,.finalized .plan]
      match planResult columnCount rows with
      | .ok rows => pure rows
      | .error e => stop e

def bindParams (a : Answers) (params : Term) : Native Unit :=
  match params.getType with
  | .list =>
      if params.isEmptyList then pure ()
      else if isKeyword params then do
        let named ← lift (decodeExecKeywordParams params)
        match bindNamedParamsFfi a.binds named with
        | .ok () => pure ()
        | .error e => stop e
      else do
        let positional ← lift (decodePlainListParams params)
        match bindPositionalParamsFfi a.binds positional with
        | .ok () => pure ()
        | .error e => stop e
  | _ =>
      match params with
      | .atom "nil" => pure ()
      | _ => stop (.expectedList "" params)

def ffiError (code : Int) (errmsg : Option String) : XqliteError :=
  .sqliteFailure code (some (errmsg.getD ("SQLite error (code " ++ toString code ++
    ") but no message available")))

/-- Step until the first answer that is not `SQLITE_ROW`. -/
def stepLoop (last : Int × Option String) (rowsProduced : Nat) : Nat → Except XqliteError Nat
  | 0 => if last.1 = Ffi.sqliteDone then .ok rowsProduced else .error (ffiError last.1 last.2)
  | rows+1 => stepLoop last (rowsProduced+1) rows

def runAndCollect (a : Answers) (params : Term) (queryPlan : List QueryPlanRow) :
    Native ExplainAnalyze := do
  bindParams a params
  match stepLoop a.lastStep 0 a.rowSteps with
  | .error e => stop e
  | .ok rowsProduced => pure ⟨a.wallTimeNs,rowsProduced,a.stmtCounters,a.scans,queryPlan⟩

/-- A result held in a variable: the call goes on after an error, not after a panic. -/
def caught {α : Type} (x : Native α) : Native (Except XqliteError α) :=
  match x.out with
  | .ok r => ⟨x.log,.ok (.ok r)⟩
  | .error e => ⟨x.log,.ok (.error e)⟩
  | .crash => ⟨x.log,.crash⟩

def coreExplainAnalyze (a : Answers) (sql : String) (params : Term) : Native ExplainAnalyze :=
  if sqlHasNul sql then stop .nulErrorInString
  else if sql.utf8ByteSize > cIntMax then stop (.cannotExecute "SQL too long")
  else
    match a.prepare with
    | .failed code errmsg => stop (ffiError code errmsg)
    | .ok false _ => pure ⟨0,0,List.replicate 9 0,[],[]⟩
    | .ok true _ => do
        note [.prepared .main]
        let queryPlan ← collectQueryPlan a
        let result ← caught (runAndCollect a params queryPlan)
        note [.finalized .main]
        match result with
        | .ok r => pure r
        | .error e => stop e

/-- Every prepared statement is owned and not finalized, or finalized once. -/
def Settled (log : List Ev) (owned : Option StmtId) : Prop :=
  ∀ id, .prepared id ∈ log →
    if owned = some id then .finalized id ∉ log else log.count (.finalized id) = 1

def owner : Outcome XqliteError Resource → Option StmtId
  | .ok r => r.atomicRawStmt
  | _ => none

def Compiles (a : Answers) (sql : String) : Prop :=
  sqlHasNul sql = false ∧ sql.utf8ByteSize ≤ cIntMax ∧ ∃ tail, a.prepare = .ok true tail

def decodeOutcome (params : Term) : Outcome XqliteError Unit :=
  match params.getType with
  | .list =>
      if params.isEmptyList then .ok ()
      else if isKeyword params then
        match decodeExecKeywordParams params with
        | .ok _ => .ok ()
        | .error e => .error e
        | .crash => .crash
      else
        match decodePlainListParams params with
        | .ok _ => .ok ()
        | .error e => .error e
        | .crash => .crash
  | _ => .ok ()

theorem settled_nil (owned : Option StmtId) : Settled [] owned := by
  intro id h
  cases h

theorem settled_owned : Settled [.prepared .main] (some .main) := by
  intro id h
  cases id <;> simp_all

theorem settled_finalized : Settled [.prepared .main,.finalized .main] none := by
  intro id h
  cases id <;> simp_all

theorem not_settled_leaked (log : List Ev) (h : .prepared .main ∈ log)
    (hf : .finalized .main ∉ log) : ¬ Settled log none := by
  intro hs
  have hcount := hs .main h
  rw [if_neg (by simp),List.count_eq_zero.mpr hf] at hcount
  cases hcount

theorem readColumnNames_cases (occasion : String) (i : Nat) (names : List (Option String)) :
    (∃ read, readColumnNames occasion i names = ⟨[],.ok read⟩) ∨
      ∃ e, readColumnNames occasion i names = ⟨[.finalized .main],.error e⟩ := by
  induction names generalizing i with
  | nil => exact .inl ⟨[],rfl⟩
  | cons name rest ih =>
    cases name with
    | none => exact .inr ⟨_,rfl⟩
    | some name =>
      rcases ih (i+1) with ⟨read,hread⟩ | ⟨e,he⟩
      · exact .inl ⟨name :: read,by simp [readColumnNames,hread,bind,andThen]⟩
      · exact .inr ⟨e,by simp [readColumnNames,he,bind,andThen]⟩

/-- The tail of `stmt_prepare` and `stream_open`: the statement ends up in the
resource, or it was finalized. -/
theorem settled_owning (occasion : String) (names : List (Option String)) :
    let x : Native Resource := do
      let columnNames ← readColumnNames occasion 0 names
      pure ⟨some .main,columnNames⟩
    Settled (.prepared .main :: x.log) (owner x.out) := by
  rcases readColumnNames_cases occasion 0 names with ⟨read,hread⟩ | ⟨e,he⟩
  · simpa [hread,bind,andThen,owner] using settled_owned
  · simpa [he,bind,andThen,owner] using settled_finalized

theorem stmtPrepare_settled (a : Answers) (connOpen : Bool) (sql : String) :
    Settled (stmtPrepare a connOpen sql).log (owner (stmtPrepare a connOpen sql).out) := by
  unfold stmtPrepare
  split
  · exact settled_nil _
  split
  · exact settled_nil _
  split
  · exact settled_nil _
  split
  · exact settled_nil _
  · exact settled_nil _
  · rw [note_bind]
    split
    · exact settled_owning "statement prepare" a.columnNames
    · exact settled_finalized

theorem streamBindResult_cases (a : Answers) (params : Term) :
    (decodeOutcome params = .ok () ∧ ∃ r, streamBindResult a params = ⟨[],.ok r⟩) ∨
      (∃ e, decodeOutcome params = .error e ∧ streamBindResult a params = ⟨[],.error e⟩) ∨
      (decodeOutcome params = .crash ∧ streamBindResult a params = ⟨[],.crash⟩) := by
  unfold decodeOutcome streamBindResult
  split
  · by_cases hempty : params.isEmptyList = true
    · exact .inl ⟨by rw [if_pos hempty],_,by rw [if_pos hempty]; rfl⟩
    rw [if_neg hempty,if_neg hempty]
    by_cases hkey : isKeyword params = true
    · rw [if_pos hkey,if_pos hkey]
      cases decodeExecKeywordParams params with
      | ok named => exact .inl ⟨rfl,_,rfl⟩
      | error e => exact .inr (.inl ⟨e,rfl,rfl⟩)
      | crash => exact .inr (.inr ⟨rfl,rfl⟩)
    · rw [if_neg hkey,if_neg hkey]
      cases decodePlainListParams params with
      | ok positional => exact .inl ⟨rfl,_,rfl⟩
      | error e => exact .inr (.inl ⟨e,rfl,rfl⟩)
      | crash => exact .inr (.inr ⟨rfl,rfl⟩)
  · refine .inl ⟨rfl,?_⟩
    split
    · exact ⟨_,rfl⟩
    · exact ⟨_,rfl⟩

theorem bindParams_cases (a : Answers) (params : Term) :
    (decodeOutcome params ≠ .crash ∧ (bindParams a params = ⟨[],.ok ()⟩ ∨
        ∃ e, bindParams a params = ⟨[],.error e⟩)) ∨
      (decodeOutcome params = .crash ∧ bindParams a params = ⟨[],.crash⟩) := by
  unfold decodeOutcome bindParams
  split
  · by_cases hempty : params.isEmptyList = true
    · rw [if_pos hempty,if_pos hempty]
      exact .inl ⟨by simp,.inl rfl⟩
    rw [if_neg hempty,if_neg hempty]
    by_cases hkey : isKeyword params = true
    · rw [if_pos hkey,if_pos hkey]
      cases decodeExecKeywordParams params with
      | ok named =>
        refine .inl ⟨by simp,?_⟩
        rw [lift_ok_bind]
        cases bindNamedParamsFfi a.binds named with
        | ok u => exact .inl rfl
        | error e => exact .inr ⟨e,rfl⟩
      | error e => exact .inl ⟨by simp,.inr ⟨e,rfl⟩⟩
      | crash => exact .inr ⟨rfl,rfl⟩
    · rw [if_neg hkey,if_neg hkey]
      cases decodePlainListParams params with
      | ok positional =>
        refine .inl ⟨by simp,?_⟩
        rw [lift_ok_bind]
        cases bindPositionalParamsFfi a.binds positional with
        | ok u => exact .inl rfl
        | error e => exact .inr ⟨e,rfl⟩
      | error e => exact .inl ⟨by simp,.inr ⟨e,rfl⟩⟩
      | crash => exact .inr ⟨rfl,rfl⟩
  · refine .inl ⟨by simp,?_⟩
    split
    · exact .inl rfl
    · exact .inr ⟨_,rfl⟩

theorem runAndCollect_caught (a : Answers) (params : Term) (plan : List QueryPlanRow) :
    (decodeOutcome params ≠ .crash ∧ ∃ r, caught (runAndCollect a params plan) = ⟨[],.ok r⟩) ∨
      (decodeOutcome params = .crash ∧ caught (runAndCollect a params plan) = ⟨[],.crash⟩) := by
  unfold runAndCollect
  rcases bindParams_cases a params with ⟨hdecode,hok | ⟨e,he⟩⟩ | ⟨hdecode,hcrash⟩
  · refine .inl ⟨hdecode,?_⟩
    rw [hok]
    cases hloop : stepLoop a.lastStep 0 a.rowSteps with
    | ok n => exact ⟨_,rfl⟩
    | error e => exact ⟨_,rfl⟩
  · refine .inl ⟨hdecode,?_⟩
    rw [he]
    exact ⟨_,rfl⟩
  · refine .inr ⟨hdecode,?_⟩
    rw [hcrash]
    rfl

theorem collectQueryPlan_cases (a : Answers) :
    ((collectQueryPlan a).log = [] ∨
        (collectQueryPlan a).log = [.prepared .plan,.finalized .plan]) ∧
      ((∃ rows, (collectQueryPlan a).out = .ok rows) ∨ ∃ e, (collectQueryPlan a).out = .error e) := by
  unfold collectQueryPlan
  cases a.plan with
  | failed compiled e =>
    cases compiled with
    | true => exact ⟨.inr rfl,.inr ⟨e,rfl⟩⟩
    | false => exact ⟨.inl rfl,.inr ⟨e,rfl⟩⟩
  | ok columnCount rows =>
    cases hrows : planResult columnCount rows with
    | ok rows => exact ⟨.inr (by simp [hrows]),.inl ⟨rows,by simp [hrows]⟩⟩
    | error e => exact ⟨.inr (by simp [hrows,stop]),.inr ⟨e,by simp [hrows,stop]⟩⟩

theorem collectQueryPlan_keeps_main (a : Answers) : .finalized .main ∉ (collectQueryPlan a).log := by
  rcases (collectQueryPlan_cases a).1 with hlog | hlog <;> simp [hlog]

theorem streamOpen_log_nil {a : Answers} {connOpen : Bool} {sql : String}
    (h : ¬ (connOpen = true ∧ Compiles a sql)) (params : Term) :
    (streamOpen a connOpen sql params).log = [] := by
  unfold streamOpen
  split
  · rfl
  rename_i hopen
  split
  · rfl
  rename_i hnul
  split
  · rfl
  rename_i hlen
  split
  · rfl
  · rfl
  · rename_i tail hprepare
    exact absurd ⟨by simpa using hopen,by simpa using hnul,by omega,tail,hprepare⟩ h

def streamOwn (a : Answers) (params : Term) : Native Resource := do
  let bindResult ← streamBindResult a params
  match bindResult with
  | .error e => do
      note [.finalized .main]
      stop e
  | .ok () => do
      let columnNames ← readColumnNames "stream open" 0 a.columnNames
      pure ⟨some .main,columnNames⟩

theorem streamOpen_of_compiles {a : Answers} {connOpen : Bool} {sql : String}
    (h : connOpen = true ∧ Compiles a sql) (params : Term) :
    streamOpen a connOpen sql params =
      ⟨.prepared .main :: (streamOwn a params).log,(streamOwn a params).out⟩ := by
  obtain ⟨hopen,hnul,hlen,tail,hprepare⟩ := h
  have hlen' : ¬ sql.utf8ByteSize > cIntMax := by omega
  simp only [streamOpen,hopen,hnul,hlen',hprepare,Bool.not_true,Bool.false_eq_true,if_false,
    note_bind]
  rfl

/-- The decoding steps are the only exits that forget the statement. -/
theorem streamOpen_settled_iff (a : Answers) (connOpen : Bool) (sql : String) (params : Term) :
    Settled (streamOpen a connOpen sql params).log (owner (streamOpen a connOpen sql params).out) ↔
      ¬ (connOpen = true ∧ Compiles a sql ∧ decodeOutcome params ≠ .ok ()) := by
  by_cases hreach : connOpen = true ∧ Compiles a sql
  · rw [streamOpen_of_compiles hreach]
    rcases streamBindResult_cases a params with ⟨hdecode,r,hr⟩ | ⟨e,hdecode,he⟩ | ⟨hdecode,hcrash⟩
    · refine iff_of_true ?_ (fun h => h.2.2 hdecode)
      cases r with
      | error e => simpa [streamOwn,hr,bind,andThen,note,stop,owner] using settled_finalized
      | ok u =>
        have hown : streamOwn a params = (do
            let columnNames ← readColumnNames "stream open" 0 a.columnNames
            pure ⟨some .main,columnNames⟩) := by
          rw [streamOwn,hr]
          rfl
        rw [hown]
        exact settled_owning "stream open" a.columnNames
    · refine iff_of_false ?_ (fun h => h ⟨hreach.1,hreach.2,by simp [hdecode]⟩)
      have hown : streamOwn a params = ⟨[],.error e⟩ := by rw [streamOwn,he]; rfl
      rw [hown]
      exact not_settled_leaked _ (by simp) (by simp)
    · refine iff_of_false ?_ (fun h => h ⟨hreach.1,hreach.2,by simp [hdecode]⟩)
      have hown : streamOwn a params = ⟨[],.crash⟩ := by rw [streamOwn,hcrash]; rfl
      rw [hown]
      exact not_settled_leaked _ (by simp) (by simp)
  · rw [streamOpen_log_nil hreach]
    exact iff_of_true (settled_nil _) (fun h => hreach ⟨h.1,h.2.1⟩)

theorem explain_log_nil {a : Answers} {sql : String} (h : ¬ Compiles a sql) (params : Term) :
    (coreExplainAnalyze a sql params).log = [] := by
  unfold coreExplainAnalyze
  split
  · rfl
  rename_i hnul
  split
  · rfl
  rename_i hlen
  split
  · rfl
  · rfl
  · rename_i tail hprepare
    exact absurd ⟨by simpa using hnul,by omega,tail,hprepare⟩ h

def explainOwn (a : Answers) (params : Term) : Native ExplainAnalyze := do
  let queryPlan ← collectQueryPlan a
  let result ← caught (runAndCollect a params queryPlan)
  note [.finalized .main]
  match result with
  | .ok r => pure r
  | .error e => stop e

theorem explain_of_compiles {a : Answers} {sql : String} (h : Compiles a sql) (params : Term) :
    coreExplainAnalyze a sql params =
      ⟨.prepared .main :: (explainOwn a params).log,(explainOwn a params).out⟩ := by
  obtain ⟨hnul,hlen,tail,hprepare⟩ := h
  have hlen' : ¬ sql.utf8ByteSize > cIntMax := by omega
  simp only [coreExplainAnalyze,hnul,hlen',hprepare,Bool.false_eq_true,if_false,note_bind]
  rfl

theorem explain_settled_iff (a : Answers) (sql : String) (params : Term) :
    Settled (coreExplainAnalyze a sql params).log none ↔
      ¬ (Compiles a sql ∧
        ((∃ e, (collectQueryPlan a).out = .error e) ∨ decodeOutcome params = .crash)) := by
  by_cases hreach : Compiles a sql
  · rw [explain_of_compiles hreach]
    obtain ⟨hlog,hout⟩ := collectQueryPlan_cases a
    rcases hout with ⟨rows,hrows⟩ | ⟨e,he⟩
    · have hplan : ∀ e, (collectQueryPlan a).out ≠ .error e := by simp [hrows]
      rcases runAndCollect_caught a params rows with ⟨hdecode,r,hr⟩ | ⟨hdecode,hcrash⟩
      · have hown : (explainOwn a params).log = (collectQueryPlan a).log ++ [.finalized .main] := by
          rw [explainOwn,bind_eq_of_ok hrows,hr]
          cases r <;> rfl
        rw [hown]
        refine iff_of_true ?_ ?_
        · intro id hid
          rcases hlog with hlog | hlog <;> rw [hlog] at hid ⊢ <;> cases id <;> simp_all
        · rintro ⟨-,⟨e,he⟩ | hc⟩
          · exact hplan e he
          · exact hdecode hc
      · have hown : (explainOwn a params).log = (collectQueryPlan a).log := by
          rw [explainOwn,bind_eq_of_ok hrows,hcrash]
          exact List.append_nil _
        rw [hown]
        refine iff_of_false (not_settled_leaked _ (by simp) ?_) (fun h => h ⟨hreach,.inr hdecode⟩)
        simpa using collectQueryPlan_keeps_main a
    · have hown : (explainOwn a params).log = (collectQueryPlan a).log := by
        rw [explainOwn,bind_eq_of_error he]
      rw [hown]
      refine iff_of_false (not_settled_leaked _ (by simp) ?_) (fun h => h ⟨hreach,.inl ⟨e,he⟩⟩)
      simpa using collectQueryPlan_keeps_main a
  · rw [explain_log_nil hreach]
    exact iff_of_true (settled_nil _) (fun h => hreach h.1)

/-- `stmt_prepare` always settles its statement. `stream_open` does unless the
parameters of a compiled statement fail to decode, `core_explain_analyze` unless
the query plan of a compiled statement fails or decoding panics. -/
theorem prepared_statements_settled_iff (a : Answers) (connOpen : Bool) (sql : String)
    (params : Term) :
    Settled (stmtPrepare a connOpen sql).log (owner (stmtPrepare a connOpen sql).out) ∧
    (Settled (streamOpen a connOpen sql params).log
        (owner (streamOpen a connOpen sql params).out) ↔
      ¬ (connOpen = true ∧ Compiles a sql ∧ decodeOutcome params ≠ .ok ())) ∧
    (Settled (coreExplainAnalyze a sql params).log none ↔
      ¬ (Compiles a sql ∧
        ((∃ e, (collectQueryPlan a).out = .error e) ∨ decodeOutcome params = .crash))) :=
  ⟨stmtPrepare_settled a connOpen sql,streamOpen_settled_iff a connOpen sql params,
    explain_settled_iff a sql params⟩

def leakAnswers : Answers where
  prepare := .ok true none
  columnNames := [some "?1"]
  binds := ⟨fun _ => 1,fun _ => (Ffi.sqliteOk,none)⟩
  plan := .failed true .multipleStatements
  rowSteps := 1
  lastStep := (Ffi.sqliteDone,none)
  wallTimeNs := 0
  stmtCounters := List.replicate 9 0
  scans := []

/-- `stream_open` with a parameter that is no SQLite value, and an explain of two
statements: both return an error and neither finalizes what it prepared. -/
theorem prepared_statements_leak :
    streamOpen leakAnswers true "SELECT ?1" (.list [.list []]) =
        ⟨[.prepared .main],.error (.unsupportedDataType .list)⟩ ∧
      coreExplainAnalyze leakAnswers "SELECT 1; SELECT 2" (.list []) =
        ⟨[.prepared .main,.prepared .plan,.finalized .plan],.error .multipleStatements⟩ := by
  constructor
  · rfl
  · rfl

end Xqlite.Prepare

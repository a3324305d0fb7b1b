import Xqlite.Prepare
set_option autoImplicit false

/-! The entry points that take one statement: `query`, `execute`, `stmt_prepare`,
`stream_open` and `explain_analyze`, given a text with more in it. SQLite answers by
the text it is given, and a computation logs what it executes of the text. -/

namespace Xqlite.Single
open Logged Prepare

inductive Piece where
  | space (c : Char) (h : c ∈ [' ','\t','\n','\x0c','\r'])
  | semicolon
  | line (text : List Char) (h : '\n' ∉ text)
  | block (text : List Char) (h : ¬ ['*','/'] <:+: text)

def Piece.chars : Piece → List Char
  | .space c _ => [c]
  | .semicolon => [';']
  | .line text _ => '-' :: '-' :: text ++ ['\n']
  | .block text _ => '/' :: '*' :: text ++ ['*','/']

def Piece.isSpace : Piece → Bool
  | .space _ _ => true
  | _ => false

/-- A text without a statement: pieces, and perhaps a comment up to the end of the text. -/
structure Trail where
  pieces : List Piece
  last : Option {text : List Char // '\n' ∉ text}

def Trail.chars (t : Trail) : List Char :=
  t.pieces.flatMap Piece.chars ++
    match t.last with
    | none => []
    | some text => '-' :: '-' :: text.val

def Trail.text (t : Trail) : String := String.ofList t.chars

def afterSemicolon : List Piece → Option (List Piece)
  | [] => none
  | .semicolon :: rest => some rest
  | _ :: rest => afterSemicolon rest

/-- Behind a statement, its first semicolon belongs to the statement. -/
def Trail.tail (t : Trail) : Trail :=
  match afterSemicolon t.pieces with
  | none => ⟨[],none⟩
  | some rest => ⟨rest,t.last⟩

def Trail.spaces (t : Trail) : Bool := t.pieces.all Piece.isSpace && t.last.isNone

def explainText (sql : String) : String := "EXPLAIN QUERY PLAN " ++ sql

/-- `sqlite3_prepare_v2` on a connection, and how `rusqlite` reports its failure. A text
over the connection's limit, a C `int`, does not compile. Behind `EXPLAIN QUERY PLAN` the
first statement ends where it ends without. A pragma that sets a flag sets it while it is
compiled: `acts` are the texts whose first statement is one, whether or not the parser
then stumbles over what follows. -/
structure Compiler where
  prepare : String → PrepareAnswer
  acts : String → Bool
  limit : Nat
  rusqliteError : Int → Option String → XqliteError
  limit_le : limit ≤ cIntMax
  within : ∀ {sql : String} {statement : Bool} {tail : Option String},
    prepare sql = .ok statement tail → sql.utf8ByteSize ≤ limit
  blank : ∀ t : Trail, t.text.utf8ByteSize ≤ limit → ∃ tail, prepare t.text = .ok false tail
  explain : ∀ {sql : String} {tail tail' : Option String} {statement : Bool},
    prepare sql = .ok true tail → prepare (explainText sql) = .ok statement tail' → tail' = tail
  acts_within : ∀ {sql : String}, acts sql = true → sql.utf8ByteSize ≤ limit
  acts_statement : ∀ {sql : String} {tail : Option String},
    prepare sql = .ok false tail → acts sql = false

/-- `rusqlite` compiles what follows the first statement too, and refuses a second one. -/
def rusqlitePrepare (Q : Compiler) (sql : String) : Except XqliteError Bool :=
  match Q.prepare sql with
  | .failed code errmsg => .error (Q.rusqliteError code errmsg)
  | .ok statement none => .ok statement
  | .ok statement (some rest) =>
    if rest = "" then .ok statement
    else
      match Q.prepare rest with
      | .failed code errmsg => .error (Q.rusqliteError code errmsg)
      | .ok true _ => .error .multipleStatements
      | .ok false _ => .ok statement

/-- What the raw entry points log, a statement that acts while it is compiled, and a step
of the caller's statement. -/
inductive Act where
  | native (e : Ev)
  | onCompile
  | step
  deriving DecidableEq, Repr

def Compiler.compileActs (Q : Compiler) (sql : String) : List Act :=
  if Q.acts sql then [.onCompile] else []

/-- What `rusqlite` compiles, and so sets off: the text and what follows its first statement. -/
def Compiler.prepareActs (Q : Compiler) (sql : String) : List Act :=
  Q.compileActs sql ++
    match Q.prepare sql with
    | .ok _ (some rest) => if rest = "" then [] else Q.compileActs rest
    | _ => []

abbrev Traced (α : Type) := Logged Act XqliteError α

def embed {α : Type} (x : Native α) : Traced α := ⟨x.log.map .native,x.out⟩

def ofExcept {α : Type} : Except XqliteError α → Traced α
  | .ok a => pure a
  | .error e => stop e

inductive Bound where
  | none
  | named (params : List (String × Value))
  | positional (params : List Value)

/-- What `rusqlite` answers once there is a statement: the names of its columns, how
binding ends, and what stepping it to the end gives. -/
structure RunAnswers where
  columnNames : List String
  bind : Bound → Except XqliteError Unit
  rows : Except XqliteError (List (List Term))
  affected : Except XqliteError Nat

structure QueryResult where
  columns : List String
  rows : List (List Term)
  numRows : Nat

def rejectInteriorNul (sql : String) : Traced Unit :=
  if sqlHasNul sql then stop .nulErrorInString else pure ()

/-- How `core_query` and `core_execute` begin. -/
def checkedPrepare (Q : Compiler) (sql : String) : Traced Bool := do
  rejectInteriorNul sql
  note (Q.prepareActs sql)
  ofExcept (rusqlitePrepare Q sql)

def decodeBound (params : Term) : Outcome XqliteError Bound :=
  match params.getType with
  | .list =>
      if params.isEmptyList then .ok .none
      else if isKeyword params then
        match decodeExecKeywordParams params with
        | .ok named => .ok (.named named)
        | .error e => .error e
        | .crash => .crash
      else
        match decodePlainListParams params with
        | .ok positional => .ok (.positional positional)
        | .error e => .error e
        | .crash => .crash
  | _ =>
      match params with
      | .atom "nil" => .ok .none
      | _ => .error (.expectedList "" params)

def coreQuery (Q : Compiler) (r : RunAnswers) (sql : String) (params : Term) :
    Traced QueryResult := do
  let _ ← checkedPrepare Q sql
  let bound ← lift (decodeBound params)
  ofExcept (r.bind bound)
  note [.step]
  let rows ← ofExcept r.rows
  pure ⟨r.columnNames,rows,rows.length⟩

def coreExecute (Q : Compiler) (r : RunAnswers) (sql : String) (params : Term) : Traced Nat := do
  let _ ← checkedPrepare Q sql
  let bound ← lift (decodeBound params)
  ofExcept (r.bind bound)
  note [.step]
  ofExcept r.affected

def withConn {α : Type} (connOpen : Bool) (x : Traced α) : Traced α :=
  if !connOpen then stop .connectionClosed else x

/-- The plan's prepare goes through `rusqlite`, which may have a statement to drop when
what follows it is refused. -/
def planAnswer (Q : Compiler) (a : Answers) (sql : String) : PlanAnswer :=
  match rusqlitePrepare Q (explainText sql) with
  | .ok _ => a.plan
  | .error e =>
    match Q.prepare (explainText sql) with
    | .ok statement _ => .failed statement e
    | .failed _ _ => .failed false e

def answersFor (Q : Compiler) (a : Answers) (sql : String) : Answers :=
  { a with prepare := Q.prepare sql, plan := planAnswer Q a sql }

/-- The raw entry points compile the text once their checks have let it through. -/
def rawActs (Q : Compiler) (connOpen : Bool) (sql : String) : List Act :=
  if connOpen && !sqlHasNul sql && decide (sql.utf8ByteSize ≤ cIntMax) then Q.compileActs sql
  else []

def tracedPrepare (Q : Compiler) (a : Answers) (connOpen : Bool) (sql : String) :
    Traced Resource := do
  note (rawActs Q connOpen sql)
  embed (stmtPrepare (answersFor Q a sql) connOpen sql)

def tracedStream (Q : Compiler) (a : Answers) (connOpen : Bool) (sql : String) (params : Term) :
    Traced Resource := do
  note (rawActs Q connOpen sql)
  embed (streamOpen (answersFor Q a sql) connOpen sql params)

/-- `run_and_collect` with its steps. -/
def runAndCollect (a : Answers) (params : Term) (queryPlan : List QueryPlanRow) :
    Traced ExplainAnalyze := do
  embed (bindParams a params)
  note (List.replicate (a.rowSteps+1) .step)
  match stepLoop a.lastStep 0 a.rowSteps with
  | .error e => stop e
  | .ok rowsProduced => pure ⟨a.wallTimeNs,rowsProduced,a.stmtCounters,a.scans,queryPlan⟩

def caught {α : Type} (x : Traced α) : Traced (Except XqliteError α) :=
  match x.out with
  | .ok r => ⟨x.log,.ok (.ok r)⟩
  | .error e => ⟨x.log,.ok (.error e)⟩
  | .crash => ⟨x.log,.crash⟩

/-- What `core_explain_analyze` does once it holds a statement. The plan's text goes
through `rusqlite`. -/
def explainOwn (Q : Compiler) (a : Answers) (sql : String) (params : Term) :
    Traced ExplainAnalyze := do
  note (Q.prepareActs (explainText sql))
  let queryPlan ← embed (collectQueryPlan a)
  let result ← caught (runAndCollect a params queryPlan)
  note [.native (.finalized .main)]
  match result with
  | .ok r => pure r
  | .error e => stop e

/-- `core_explain_analyze` with what it executes. -/
def explainAnalyze (Q : Compiler) (a : Answers) (sql : String) (params : Term) :
    Traced ExplainAnalyze :=
  if sqlHasNul sql then stop .nulErrorInString
  else if sql.utf8ByteSize > cIntMax then stop (.cannotExecute "SQL too long")
  else do
    note (Q.compileActs sql)
    match Q.prepare sql with
    | .failed code errmsg => stop (ffiError code errmsg)
    | .ok false _ => pure ⟨0,0,List.replicate 9 0,[],[]⟩
    | .ok true _ => do
        note [.native (.prepared .main)]
        explainOwn Q (answersFor Q a sql) sql params

def Act.native? : Act → Option Ev
  | .native e => some e
  | .onCompile | .step => none

def erase {α : Type} (x : Traced α) : Native α := ⟨x.log.filterMap Act.native?,x.out⟩

/-- Nothing of the caller's text is executed: its statement is not stepped, and none acted
while it was compiled. -/
def Quiet (log : List Act) : Prop := .step ∉ log ∧ .onCompile ∉ log

def Refused {α : Type} (x : Traced α) : Prop := (∃ e, x.out = .error e) ∧ Quiet x.log

def bindOutcome (b : BindAnswers) (params : Term) : Outcome XqliteError (Except XqliteError Unit) :=
  match decodeBound params with
  | .ok .none => .ok (.ok ())
  | .ok (.named named) => .ok (bindNamedParamsFfi b named)
  | .ok (.positional positional) => .ok (bindPositionalParamsFfi b positional)
  | .error e => .error e
  | .crash => .crash

section Erase
variable {α β : Type}

@[simp] theorem erase_embed (x : Native α) : erase (embed x) = x := by
  have hlog : (x.log.map Act.native).filterMap Act.native? = x.log := by
    rw [List.filterMap_map]
    exact List.filterMap_some
  rw [erase,embed,hlog]

@[simp] theorem erase_stop (e : XqliteError) : erase (stop e : Traced α) = stop e := rfl

@[simp] theorem erase_pure (v : α) : erase (pure v : Traced α) = pure v := rfl

theorem erase_bind (x : Traced α) (f : α → Traced β) :
    erase (x >>= f) = (erase x >>= fun v => erase (f v)) := by
  obtain ⟨log,out⟩ := x
  cases out with
  | ok v => simp [erase,bind,andThen]
  | error e => rfl
  | crash => rfl

theorem erase_caught (x : Traced α) : erase (caught x) = Prepare.caught (erase x) := by
  obtain ⟨log,out⟩ := x
  cases out <;> rfl

theorem erase_steps (n : Nat) : erase (note (List.replicate n .step)) = note [] := by
  have hnone : Act.native? .step = none := rfl
  simp [erase,note,List.filterMap_replicate_of_none hnone]

theorem compileActs_native (Q : Compiler) (sql : String) :
    (Q.compileActs sql).filterMap Act.native? = [] := by
  unfold Compiler.compileActs
  split <;> rfl

theorem erase_compileActs (Q : Compiler) (sql : String) :
    erase (note (Q.compileActs sql)) = note [] := by
  simp only [erase,note,compileActs_native]

theorem erase_prepareActs (Q : Compiler) (sql : String) :
    erase (note (Q.prepareActs sql)) = note [] := by
  have hrest : (Q.prepareActs sql).filterMap Act.native? = [] := by
    rw [Compiler.prepareActs,List.filterMap_append,compileActs_native]
    split
    · split
      · rfl
      · exact compileActs_native Q _
    · rfl
  simp only [erase,note,hrest]

theorem erase_rawActs (Q : Compiler) (connOpen : Bool) (sql : String) :
    erase (note (rawActs Q connOpen sql)) = note [] := by
  unfold rawActs
  split
  · exact erase_compileActs Q sql
  · rfl

theorem erase_tracedPrepare (Q : Compiler) (a : Answers) (connOpen : Bool) (sql : String) :
    erase (tracedPrepare Q a connOpen sql) = stmtPrepare (answersFor Q a sql) connOpen sql := by
  rw [tracedPrepare,erase_bind,erase_rawActs,erase_embed]
  rfl

theorem erase_tracedStream (Q : Compiler) (a : Answers) (connOpen : Bool) (sql : String)
    (params : Term) :
    erase (tracedStream Q a connOpen sql params) =
      streamOpen (answersFor Q a sql) connOpen sql params := by
  rw [tracedStream,erase_bind,erase_rawActs,erase_embed]
  rfl

theorem erase_runAndCollect (a : Answers) (params : Term) (queryPlan : List QueryPlanRow) :
    erase (runAndCollect a params queryPlan) = Prepare.runAndCollect a params queryPlan := by
  unfold runAndCollect Prepare.runAndCollect
  rw [erase_bind,erase_embed]
  refine congrArg (bindParams a params >>= ·) (funext fun _ => ?_)
  rw [erase_bind,erase_steps]
  cases stepLoop a.lastStep 0 a.rowSteps with
  | ok n => rfl
  | error e => rfl

/-- Without what it executes the traced computation is `core_explain_analyze`. -/
theorem erase_explainAnalyze (Q : Compiler) (a : Answers) (sql : String) (params : Term) :
    erase (explainAnalyze Q a sql params) =
      coreExplainAnalyze (answersFor Q a sql) sql params := by
  have hown : ∀ a : Answers, erase (explainOwn Q a sql params) = Prepare.explainOwn a params := by
    intro a
    unfold explainOwn Prepare.explainOwn
    rw [erase_bind,erase_prepareActs,erase_bind,erase_embed]
    refine congrArg (collectQueryPlan a >>= ·) (funext fun queryPlan => ?_)
    rw [erase_bind,erase_caught,erase_runAndCollect]
    refine congrArg (Prepare.caught _ >>= ·) (funext fun result => ?_)
    cases result <;> rfl
  have hanswer : (answersFor Q a sql).prepare = Q.prepare sql := rfl
  unfold explainAnalyze coreExplainAnalyze
  split
  · rfl
  split
  · rfl
  rw [erase_bind,erase_compileActs,hanswer]
  cases Q.prepare sql with
  | failed code errmsg => rfl
  | ok statement tail =>
    cases statement with
    | false => rfl
    | true =>
      show erase (note [.native (.prepared .main)] >>= fun _ =>
        explainOwn Q (answersFor Q a sql) sql params) = _
      rw [erase_bind,hown]
      rfl

end Erase

theorem Piece.all_isWhitespace (p : Piece) : p.chars.all isWhitespace = p.isSpace := by
  cases p with
  | space c h =>
    simp only [List.mem_cons,List.not_mem_nil,or_false] at h
    rcases h with h | h | h | h | h <;> subst h <;> rfl
  | semicolon => rfl
  | line text h => rfl
  | block text h => rfl

theorem Trail.trimIsEmpty_text (t : Trail) : trimIsEmpty t.text = t.spaces := by
  have hpieces : (t.pieces.flatMap Piece.chars).all isWhitespace = t.pieces.all Piece.isSpace := by
    rw [List.all_flatMap]
    exact congrArg t.pieces.all (funext Piece.all_isWhitespace)
  unfold trimIsEmpty Trail.text Trail.chars Trail.spaces
  rw [String.toList_ofList,List.all_append,hpieces]
  cases t.last with
  | none => rfl
  | some text => rfl

theorem afterSemicolon_suffix {pieces rest : List Piece} (h : afterSemicolon pieces = some rest) :
    rest <:+ pieces := by
  induction pieces with
  | nil => cases h
  | cons p pieces ih =>
    cases p with
    | semicolon =>
      cases h
      exact List.suffix_cons _ _
    | space c hc => exact (ih h).trans (List.suffix_cons _ _)
    | line text ht => exact (ih h).trans (List.suffix_cons _ _)
    | block text ht => exact (ih h).trans (List.suffix_cons _ _)

theorem Trail.tail_suffix (t : Trail) : t.tail.chars <:+ t.chars := by
  unfold Trail.tail
  cases h : afterSemicolon t.pieces with
  | none => exact List.nil_suffix
  | some rest =>
    obtain ⟨before,hbefore⟩ := afterSemicolon_suffix h
    refine ⟨before.flatMap Piece.chars,?_⟩
    unfold Trail.chars
    rw [← hbefore,List.flatMap_append,List.append_assoc]

theorem Trail.tail_size (t : Trail) : t.tail.text.utf8ByteSize ≤ t.text.utf8ByteSize := by
  obtain ⟨before,hbefore⟩ := t.tail_suffix
  unfold Trail.text
  rw [← hbefore,String.ofList_append,String.utf8ByteSize_append]
  omega

theorem readColumnNames_ok (occasion : String) (i : Nat) {names : List (Option String)}
    (h : none ∉ names) : ∃ read, readColumnNames occasion i names = ⟨[],.ok read⟩ := by
  induction names generalizing i with
  | nil => exact ⟨[],rfl⟩
  | cons name names ih =>
    cases name with
    | none => exact absurd List.mem_cons_self h
    | some name =>
      obtain ⟨read,hread⟩ := ih (i+1) (List.not_mem_of_not_mem_cons h)
      exact ⟨name :: read,by rw [readColumnNames,hread]; rfl⟩

theorem readColumnNames_error (occasion : String) (i : Nat) {names : List (Option String)}
    (h : none ∈ names) :
    ∃ e, readColumnNames occasion i names = ⟨[.finalized .main],.error e⟩ := by
  induction names generalizing i with
  | nil => cases h
  | cons name names ih =>
    cases name with
    | none => exact ⟨_,rfl⟩
    | some name =>
      obtain ⟨e,he⟩ := ih (i+1) (by simpa using h)
      exact ⟨e,by rw [readColumnNames,he]; rfl⟩

section Compiled
variable {Q : Compiler} {sql tail : String}

theorem Compiler.size_le (h : Q.prepare sql = .ok true (some tail)) :
    ¬ sql.utf8ByteSize > cIntMax := by
  have hwithin := Q.within h
  have hlimit := Q.limit_le
  omega

theorem checkedPrepare_nul (h : sqlHasNul sql = true) :
    checkedPrepare Q sql = stop .nulErrorInString := by
  rw [checkedPrepare,rejectInteriorNul,if_pos h]
  rfl

theorem checkedPrepare_of_not_nul (h : sqlHasNul sql = false) :
    checkedPrepare Q sql =
      (note (Q.prepareActs sql) >>= fun _ => ofExcept (rusqlitePrepare Q sql)) := by
  rw [checkedPrepare,rejectInteriorNul,h]
  rfl

theorem rusqlitePrepare_blank (h : Q.prepare sql = .ok true (some tail))
    (hblank : ∃ rest, Q.prepare tail = .ok false rest) : rusqlitePrepare Q sql = .ok true := by
  obtain ⟨rest,hrest⟩ := hblank
  simp only [rusqlitePrepare,h,hrest,ite_self]

variable {a : Answers}

theorem stmtPrepare_compiled (h : Q.prepare sql = .ok true (some tail))
    (hnul : sqlHasNul sql = false) :
    stmtPrepare (answersFor Q a sql) true sql =
      if trimIsEmpty tail then (do
        note [.prepared .main]
        let columnNames ← readColumnNames "statement prepare" 0 a.columnNames
        pure ⟨some .main,columnNames⟩)
      else ⟨[.prepared .main,.finalized .main],.error .multipleStatements⟩ := by
  have hsize := Q.size_le h
  have hanswer : (answersFor Q a sql).prepare = .ok true (some tail) := h
  simp only [stmtPrepare,Bool.not_true,Bool.false_eq_true,if_false,hnul,hsize,hanswer,
    Option.map_some,Option.getD_some]
  by_cases htrim : trimIsEmpty tail = true
  · rw [if_pos htrim,if_pos htrim]
    rfl
  · rw [if_neg htrim,if_neg htrim]
    rfl

end Compiled

/-- One statement and nothing after it but blanks, semicolons and comments: `query`
takes it, `stmt_prepare` only if there are just blanks behind the first semicolon. -/
theorem one_statement_accepted_iff (Q : Compiler) (a : Answers) (stmt : String) (t : Trail)
    (hprepare : Q.prepare (stmt ++ t.text) = .ok true (some t.tail.text))
    (hnames : none ∉ a.columnNames) :
    let sql := stmt ++ t.text
    let prepared := (stmtPrepare (answersFor Q a sql) true sql).out
    ((checkedPrepare Q sql).out = .ok true ↔ sqlHasNul sql = false) ∧
    ((∃ resource, prepared = .ok resource) ↔ sqlHasNul sql = false ∧ t.tail.spaces = true) ∧
    (prepared = .error .multipleStatements ↔ sqlHasNul sql = false ∧ t.tail.spaces = false) := by
  intro sql prepared
  have hsize : t.tail.text.utf8ByteSize ≤ Q.limit := by
    have hsql := Q.within hprepare
    have htail := t.tail_size
    rw [String.utf8ByteSize_append] at hsql
    omega
  have hrusqlite := rusqlitePrepare_blank hprepare (Q.blank t.tail hsize)
  cases hnul : sqlHasNul sql with
  | true =>
    have hprepared : prepared = .error .nulErrorInString := by
      simp [prepared,stmtPrepare,hnul,stop]
    rw [checkedPrepare_nul hnul,hprepared]
    simp [stop]
  | false =>
    have hstmt := stmtPrepare_compiled (a := a) hprepare hnul
    obtain ⟨read,hread⟩ := readColumnNames_ok "statement prepare" 0 hnames
    rw [checkedPrepare_of_not_nul hnul,hrusqlite]
    rw [Trail.trimIsEmpty_text,hread] at hstmt
    cases hspaces : t.tail.spaces with
    | true =>
      have hprepared : prepared = .ok ⟨some .main,read⟩ := by
        simp only [prepared,sql,hstmt,hspaces,if_true]
        rfl
      rw [hprepared]
      simp [ofExcept]
    | false =>
      have hprepared : prepared = .error .multipleStatements := by
        simp only [prepared,sql,hstmt,hspaces,Bool.false_eq_true,if_false]
      rw [hprepared]
      simp [ofExcept]

def semicolonRest : List Char → List Char
  | [] => []
  | c :: rest => if c = ';' then rest else semicolonRest rest

theorem semicolonRest_append {before : List Char} (h : ';' ∉ before) (rest : List Char) :
    semicolonRest (before ++ rest) = semicolonRest rest := by
  induction before with
  | nil => rfl
  | cons c before ih =>
    have hc : c ≠ ';' := fun hc => h (hc ▸ List.mem_cons_self)
    rw [List.cons_append,semicolonRest,if_neg hc]
    exact ih (List.not_mem_of_not_mem_cons h)

def startsWithLetter : List Char → Bool
  | [] => false
  | c :: _ => c.isAlpha

theorem Trail.not_startsWithLetter (t : Trail) : startsWithLetter t.chars = false := by
  unfold Trail.chars
  cases t.pieces with
  | nil =>
    cases t.last with
    | none => rfl
    | some text => rfl
  | cons p pieces =>
    cases p with
    | space c h =>
      simp only [List.mem_cons,List.not_mem_nil,or_false] at h
      rcases h with h | h | h | h | h <;> subst h <;> rfl
    | semicolon => rfl
    | line text h => rfl
    | block text h => rfl

/-- A language in which a statement runs from a letter to the next semicolon. -/
def letterPrepare (sql : String) : PrepareAnswer :=
  if sql.utf8ByteSize > 1000000 then .failed 18 none
  else if startsWithLetter sql.toList then
    .ok true (some (String.ofList (semicolonRest sql.toList)))
  else .ok false (some "")

theorem letterPrepare_ok {sql : String} {statement : Bool} {tail : Option String}
    (h : letterPrepare sql = .ok statement tail) : sql.utf8ByteSize ≤ 1000000 := by
  unfold letterPrepare at h
  split at h
  · cases h
  · omega

theorem letterPrepare_statement {sql : String} {tail : Option String}
    (h : letterPrepare sql = .ok true tail) :
    tail = some (String.ofList (semicolonRest sql.toList)) := by
  unfold letterPrepare at h
  split at h
  · cases h
  split at h
  · cases h
    rfl
  · cases h

theorem letterPrepare_explain {sql : String} {statement : Bool} {tail : Option String}
    (h : letterPrepare (explainText sql) = .ok statement tail) :
    tail = some (String.ofList (semicolonRest sql.toList)) := by
  have htext : (explainText sql).toList = "EXPLAIN QUERY PLAN ".toList ++ sql.toList :=
    String.toList_append
  have hstart : startsWithLetter (explainText sql).toList = true := by
    rw [htext]
    rfl
  unfold letterPrepare at h
  split at h
  · cases h
  cases h
  rw [htext,semicolonRest_append (by decide)]

def setsFlag (chars : List Char) : Bool := "PRAGMA foreign_keys".toList.isPrefixOf chars

theorem startsWithLetter_of_setsFlag {chars : List Char} (h : setsFlag chars = true) :
    startsWithLetter chars = true := by
  obtain ⟨rest,rfl⟩ := List.isPrefixOf_iff_prefix.mp h
  rfl

theorem letterPrepare_blank {sql : String} {tail : Option String}
    (h : letterPrepare sql = .ok false tail) : startsWithLetter sql.toList = false := by
  unfold letterPrepare at h
  split at h
  · cases h
  split at h
  · cases h
  · simp_all

def letterActs (sql : String) : Bool :=
  decide (sql.utf8ByteSize ≤ 1000000) && setsFlag sql.toList

def letterCompiler : Compiler where
  prepare := letterPrepare
  acts := letterActs
  limit := 1000000
  rusqliteError := fun code errmsg => .sqliteFailure code errmsg
  limit_le := by decide
  within := letterPrepare_ok
  blank := by
    intro t hsize
    refine ⟨some "",?_⟩
    rw [letterPrepare,if_neg (by omega),Trail.text,String.toList_ofList,t.not_startsWithLetter]
    rfl
  explain := fun h h' => (letterPrepare_explain h').trans (letterPrepare_statement h).symm
  acts_within := by
    intro sql h
    simp only [letterActs,Bool.and_eq_true,decide_eq_true_eq] at h
    exact h.1
  acts_statement := by
    intro sql tail h
    have hstart := letterPrepare_blank h
    cases hpragma : setsFlag sql.toList with
    | true => simp [startsWithLetter_of_setsFlag hpragma] at hstart
    | false => simp [letterActs,hpragma]

def commentTrail : Trail := ⟨[.semicolon,.space ' ' (by decide)],some ⟨"done".toList,by decide⟩⟩

theorem one_statement_accepted_plain :
    ∃ resource, (stmtPrepare (answersFor letterCompiler leakAnswers "SELECT 1; ") true
      "SELECT 1; ").out = .ok resource :=
  (one_statement_accepted_iff letterCompiler leakAnswers "SELECT 1"
    ⟨[.semicolon,.space ' ' (by decide)],none⟩ (by rfl) (by decide)).2.1.mpr
      ⟨by decide,by decide⟩

/-- `SELECT 1; --done` is one statement, and `query` takes it. -/
theorem one_statement_refused :
    "SELECT 1" ++ commentTrail.text = "SELECT 1; --done" ∧
    (checkedPrepare letterCompiler "SELECT 1; --done").out = .ok true ∧
    (stmtPrepare (answersFor letterCompiler leakAnswers "SELECT 1; --done") true
      "SELECT 1; --done").out = .error .multipleStatements := by
  refine ⟨by decide,?_,?_⟩
  · rfl
  · rfl

def Unbindable (b : BindAnswers) (params : Term) : Prop :=
  ∃ e, bindOutcome b params = .error e ∨ bindOutcome b params = .ok (.error e)

def AllRefuse (Q : Compiler) (a : Answers) (r : RunAnswers) (connOpen : Bool) (sql : String)
    (params : Term) : Prop :=
  Refused (withConn connOpen (coreQuery Q r sql params)) ∧
  Refused (withConn connOpen (coreExecute Q r sql params)) ∧
  Refused (tracedPrepare Q a connOpen sql) ∧
  Refused (tracedStream Q a connOpen sql params) ∧
  Refused (withConn connOpen (explainAnalyze Q a sql params))

section Refusing
variable {α β : Type} {e : XqliteError}

theorem refused_stop : Refused (stop e : Traced α) :=
  ⟨⟨e,rfl⟩,List.not_mem_nil,List.not_mem_nil⟩

theorem refused_bind_iff {x : Traced α} (h : x.out = .error e) (f : α → Traced β) :
    Refused (x >>= f) ↔ Quiet x.log := by
  rw [bind_eq_of_error h]
  exact and_iff_right ⟨e,rfl⟩

theorem quiet_append_iff (acts log : List Act) :
    Quiet (acts ++ log) ↔ Quiet acts ∧ Quiet log := by
  simp only [Quiet,List.mem_append]
  tauto

theorem refused_note_iff (acts : List Act) (x : Traced α) :
    Refused (note acts >>= fun _ => x) ↔ Quiet acts ∧ Refused x := by
  simp only [Refused,note_bind,quiet_append_iff]
  tauto

theorem quiet_embed (x : Native α) : Quiet (embed x).log := by
  simp [Quiet,embed]

theorem refused_embed_iff (x : Native α) : Refused (embed x) ↔ ∃ e, x.out = .error e :=
  and_iff_left (quiet_embed x)

theorem quiet_compileActs_iff (Q : Compiler) (sql : String) :
    Quiet (Q.compileActs sql) ↔ Q.acts sql = false := by
  unfold Compiler.compileActs
  cases Q.acts sql <;> simp [Quiet]

end Refusing

theorem streamBindResult_of_list (a : Answers) {params : Term} (h : params.getType = .list) :
    streamBindResult a params = lift (bindOutcome a.binds params) := by
  simp only [streamBindResult,bindOutcome,decodeBound,h]
  by_cases hempty : params.isEmptyList = true
  · rw [if_pos hempty,if_pos hempty]
    rfl
  rw [if_neg hempty,if_neg hempty]
  by_cases hkey : isKeyword params = true
  · rw [if_pos hkey,if_pos hkey]
    cases decodeExecKeywordParams params <;> rfl
  · rw [if_neg hkey,if_neg hkey]
    cases decodePlainListParams params <;> rfl

theorem streamBindResult_of_not_list (a : Answers) {params : Term} (h : params.getType ≠ .list) :
    (bindOutcome a.binds params = .ok (.ok ()) ∧ streamBindResult a params = ⟨[],.ok (.ok ())⟩) ∨
      ∃ e e', bindOutcome a.binds params = .error e ∧
        streamBindResult a params = ⟨[],.ok (.error e')⟩ := by
  by_cases hnil : params = .atom "nil"
  · subst hnil
    exact .inl ⟨rfl,rfl⟩
  · have hdecode : decodeBound params = .error (.expectedList "" params) := by
      unfold decodeBound
      split
      · contradiction
      split
      · contradiction
      · rfl
    have hstream : streamBindResult a params =
        ⟨[],.ok (.error (.expectedList "Parameters term was not a list: " params))⟩ := by
      unfold streamBindResult
      split
      · contradiction
      split
      · contradiction
      · rfl
    exact .inr ⟨_,_,by rw [bindOutcome,hdecode],hstream⟩

/-- A statement that compiled, with something after it that SQLite does not skip. -/
structure Trailing (Q : Compiler) (sql tail : String) : Prop where
  compiled : Q.prepare sql = .ok true (some tail)
  more : ∀ rest, Q.prepare tail ≠ .ok false rest

section Trailing
variable {Q : Compiler} {sql tail : String}

theorem Compiler.empty (Q : Compiler) : ∃ rest, Q.prepare "" = .ok false rest :=
  Q.blank ⟨[],none⟩ (Nat.zero_le _)

theorem ne_empty_of_more (h : ∀ rest, Q.prepare tail ≠ .ok false rest) : tail ≠ "" := by
  intro htail
  obtain ⟨rest,hrest⟩ := Q.empty
  exact h rest (htail ▸ hrest)

theorem Trailing.tail_ne (h : Trailing Q sql tail) : tail ≠ "" := ne_empty_of_more h.more

theorem rusqlitePrepare_more {text : String} {statement : Bool}
    (h : Q.prepare text = .ok statement (some tail))
    (hmore : ∀ rest, Q.prepare tail ≠ .ok false rest) :
    ∃ e, rusqlitePrepare Q text = .error e := by
  have htail := ne_empty_of_more hmore
  cases hrest : Q.prepare tail with
  | failed code errmsg => exact ⟨_,by simp only [rusqlitePrepare,h,if_neg htail,hrest]; rfl⟩
  | ok more rest =>
    cases more with
    | true => exact ⟨_,by simp only [rusqlitePrepare,h,if_neg htail,hrest]; rfl⟩
    | false => exact absurd hrest (hmore rest)

theorem Trailing.explainText_refused (h : Trailing Q sql tail) :
    ∃ e, rusqlitePrepare Q (explainText sql) = .error e := by
  cases hexplain : Q.prepare (explainText sql) with
  | failed code errmsg => exact ⟨_,by simp only [rusqlitePrepare,hexplain]; rfl⟩
  | ok statement tail' =>
    have htail := Q.explain h.compiled hexplain
    exact rusqlitePrepare_more (htail ▸ hexplain) h.more

theorem Trailing.quiet_prepareActs_iff (h : Trailing Q sql tail) :
    Quiet (Q.prepareActs sql) ↔ Q.acts sql = false ∧ Q.acts tail = false := by
  rw [Compiler.prepareActs,h.compiled]
  simp only [if_neg h.tail_ne,quiet_append_iff,quiet_compileActs_iff]

theorem Trailing.quiet_explainText_iff (h : Trailing Q sql tail) (htail : Q.acts tail = false) :
    Quiet (Q.prepareActs (explainText sql)) ↔ Q.acts (explainText sql) = false := by
  rw [Compiler.prepareActs,quiet_append_iff,quiet_compileActs_iff]
  refine and_iff_left ?_
  split
  · rename_i statement rest hexplain
    have hrest : rest = tail := Option.some.inj (Q.explain h.compiled hexplain)
    rw [hrest,if_neg h.tail_ne,quiet_compileActs_iff]
    exact htail
  · exact ⟨List.not_mem_nil,List.not_mem_nil⟩

variable {a : Answers}

theorem Trailing.checkedPrepare_iff {α : Type} (h : Trailing Q sql tail)
    (hnul : sqlHasNul sql = false) (f : Bool → Traced α) :
    Refused (checkedPrepare Q sql >>= f) ↔ Q.acts sql = false ∧ Q.acts tail = false := by
  obtain ⟨e,he⟩ := rusqlitePrepare_more h.compiled h.more
  have hlog : checkedPrepare Q sql = ⟨Q.prepareActs sql,.error e⟩ := by
    rw [checkedPrepare_of_not_nul hnul,he,note_bind]
    simp [ofExcept,stop]
  rw [hlog,refused_bind_iff rfl,h.quiet_prepareActs_iff]

/-- The plan is collected before the statement is bound or stepped. -/
theorem Trailing.explain_iff (h : Trailing Q sql tail) (a : Answers) (params : Term)
    (hnul : sqlHasNul sql = false) :
    Refused (explainAnalyze Q a sql params) ↔
      Q.acts sql = false ∧ Quiet (Q.prepareActs (explainText sql)) := by
  obtain ⟨e,he⟩ := h.explainText_refused
  have hplan : ∃ compiled, (answersFor Q a sql).plan = .failed compiled e := by
    show ∃ compiled, planAnswer Q a sql = .failed compiled e
    simp only [planAnswer,he]
    split
    · exact ⟨_,rfl⟩
    · exact ⟨_,rfl⟩
  obtain ⟨compiled,hplan⟩ := hplan
  have hcollect : (embed (collectQueryPlan (answersFor Q a sql))).out = .error e := by
    rw [collectQueryPlan,hplan]
    rfl
  have hown : Refused (explainOwn Q (answersFor Q a sql) sql params) ↔
      Quiet (Q.prepareActs (explainText sql)) := by
    rw [explainOwn,refused_note_iff,refused_bind_iff hcollect]
    exact and_iff_left (quiet_embed _)
  have hprepared : Quiet [.native (.prepared .main)] := by simp [Quiet]
  rw [explainAnalyze,hnul,if_neg Bool.false_ne_true,if_neg (Q.size_le h.compiled),
    refused_note_iff,quiet_compileActs_iff,h.compiled]
  simp only [refused_note_iff,hprepared,true_and,hown]

theorem Trailing.stmtPrepare_error_iff (h : Trailing Q sql tail) (hnul : sqlHasNul sql = false) :
    (∃ e, (stmtPrepare (answersFor Q a sql) true sql).out = .error e) ↔
      trimIsEmpty tail = false ∨ none ∈ a.columnNames := by
  rw [stmtPrepare_compiled h.compiled hnul]
  by_cases htrim : trimIsEmpty tail = true
  · rw [if_pos htrim,note_bind]
    by_cases hnames : none ∈ a.columnNames
    · obtain ⟨e,he⟩ := readColumnNames_error "statement prepare" 0 hnames
      rw [he]
      exact iff_of_true ⟨e,rfl⟩ (.inr hnames)
    · obtain ⟨read,hread⟩ := readColumnNames_ok "statement prepare" 0 hnames
      rw [hread]
      exact iff_of_false (by simp [bind,andThen]) (by simp [htrim,hnames])
  · rw [if_neg htrim]
    exact iff_of_true ⟨_,rfl⟩ (.inl (by simpa using htrim))

end Trailing

/-- `stream_open` never looks at what follows its statement. -/
theorem streamOwn_error_iff (a : Answers) (params : Term) :
    (∃ e, (streamOwn a params).out = .error e) ↔
      Unbindable a.binds params ∨
        (bindOutcome a.binds params = .ok (.ok ()) ∧ none ∈ a.columnNames) := by
  have hbound : streamBindResult a params = ⟨[],.ok (.ok ())⟩ →
      ((∃ e, (streamOwn a params).out = .error e) ↔ none ∈ a.columnNames) := by
    intro hbind
    by_cases hnames : none ∈ a.columnNames
    · obtain ⟨e,he⟩ := readColumnNames_error "stream open" 0 hnames
      refine iff_of_true ⟨e,?_⟩ hnames
      simp [streamOwn,hbind,he,bind,andThen]
    · obtain ⟨read,hread⟩ := readColumnNames_ok "stream open" 0 hnames
      refine iff_of_false ?_ hnames
      simp [streamOwn,hbind,hread,bind,andThen]
  by_cases hlist : params.getType = .list
  · have hbind := streamBindResult_of_list a hlist
    cases houtcome : bindOutcome a.binds params with
    | ok result =>
      rw [houtcome] at hbind
      cases result with
      | ok u =>
        rw [hbound hbind]
        simp [Unbindable,houtcome]
      | error e =>
        refine iff_of_true ⟨e,?_⟩ (.inl ⟨e,.inr houtcome⟩)
        rw [streamOwn,hbind]
        rfl
    | error e =>
      rw [houtcome] at hbind
      refine iff_of_true ⟨e,?_⟩ (.inl ⟨e,.inl houtcome⟩)
      rw [streamOwn,hbind]
      rfl
    | crash =>
      rw [houtcome] at hbind
      refine iff_of_false ?_ (by simp [Unbindable,houtcome])
      rw [streamOwn,hbind]
      simp [lift,bind,andThen]
  · rcases streamBindResult_of_not_list a hlist with ⟨houtcome,hbind⟩ | ⟨e,e',houtcome,hbind⟩
    · rw [hbound hbind]
      simp [Unbindable,houtcome]
    · refine iff_of_true ⟨e',?_⟩ (.inl ⟨e,.inl houtcome⟩)
      rw [streamOwn,hbind]
      rfl

section Raw
variable {Q : Compiler} {a : Answers} {sql : String}

theorem quiet_rawActs_iff (h : sqlHasNul sql = false) :
    Quiet (rawActs Q true sql) ↔ Q.acts sql = false := by
  by_cases hsize : sql.utf8ByteSize ≤ cIntMax
  · simp only [rawActs,h,hsize,Bool.not_false,Bool.and_self,decide_true,if_true,
      quiet_compileActs_iff]
  · have hacts : Q.acts sql = false := by
      cases hacts : Q.acts sql with
      | false => rfl
      | true => exact absurd ((Q.acts_within hacts).trans Q.limit_le) hsize
    simp [rawActs,hsize,hacts,Quiet]

theorem tracedPrepare_iff (h : sqlHasNul sql = false) :
    Refused (tracedPrepare Q a true sql) ↔
      Q.acts sql = false ∧ ∃ e, (stmtPrepare (answersFor Q a sql) true sql).out = .error e := by
  rw [tracedPrepare,refused_note_iff,quiet_rawActs_iff h,refused_embed_iff]

theorem tracedStream_iff (h : sqlHasNul sql = false) (params : Term) :
    Refused (tracedStream Q a true sql params) ↔
      Q.acts sql = false ∧
        ∃ e, (streamOpen (answersFor Q a sql) true sql params).out = .error e := by
  rw [tracedStream,refused_note_iff,quiet_rawActs_iff h,refused_embed_iff]

/-- The checks come before the compiler. -/
theorem allRefuse_unread (Q : Compiler) (a : Answers) (r : RunAnswers) {connOpen : Bool}
    {sql : String} (h : connOpen = false ∨ sqlHasNul sql = true) (params : Term) :
    AllRefuse Q a r connOpen sql params := by
  cases connOpen with
  | false => exact ⟨refused_stop,refused_stop,refused_stop,refused_stop,refused_stop⟩
  | true =>
    have hnul : sqlHasNul sql = true := h.resolve_left (by decide)
    refine ⟨?_,?_,?_,?_,?_⟩
    · show Refused (coreQuery Q r sql params)
      rw [coreQuery,checkedPrepare_nul hnul]
      exact refused_stop
    · show Refused (coreExecute Q r sql params)
      rw [coreExecute,checkedPrepare_nul hnul]
      exact refused_stop
    · rw [tracedPrepare,rawActs,stmtPrepare,hnul]
      exact refused_stop
    · rw [tracedStream,rawActs,streamOpen,hnul]
      exact refused_stop
    · show Refused (explainAnalyze Q a sql params)
      rw [explainAnalyze,if_pos hnul]
      exact refused_stop

/-- Every entry point refuses a text whose first statement does not compile, if the
compiler did nothing before it failed. -/
theorem allRefuse_failed_iff {code : Int} {errmsg : Option String}
    (h : Q.prepare sql = .failed code errmsg) (hnul : sqlHasNul sql = false) (a : Answers)
    (r : RunAnswers) (params : Term) : AllRefuse Q a r true sql params ↔ Q.acts sql = false := by
  have hanswer : (answersFor Q a sql).prepare = .failed code errmsg := h
  have hprepare : ∃ e, (stmtPrepare (answersFor Q a sql) true sql).out = .error e := by
    rw [stmtPrepare,hanswer]
    split_ifs <;> exact ⟨_,rfl⟩
  have hstream : ∃ e, (streamOpen (answersFor Q a sql) true sql params).out = .error e := by
    rw [streamOpen,hanswer]
    split_ifs <;> exact ⟨_,rfl⟩
  have hchecked : checkedPrepare Q sql =
      ⟨Q.compileActs sql,.error (Q.rusqliteError code errmsg)⟩ := by
    rw [checkedPrepare_of_not_nul hnul,note_bind]
    simp [rusqlitePrepare,Compiler.prepareActs,h,ofExcept,stop]
  have hexplain : Q.acts sql = false → Refused (explainAnalyze Q a sql params) := by
    intro hacts
    rw [explainAnalyze,hnul,if_neg Bool.false_ne_true,h]
    split_ifs
    · exact refused_stop
    · exact (refused_note_iff _ _).mpr ⟨(quiet_compileActs_iff Q sql).mpr hacts,refused_stop⟩
  constructor
  · intro hall
    exact ((tracedPrepare_iff hnul).mp hall.2.2.1).1
  · intro hacts
    have hquiet := (quiet_compileActs_iff Q sql).mpr hacts
    refine ⟨?_,?_,(tracedPrepare_iff hnul).mpr ⟨hacts,hprepare⟩,
      (tracedStream_iff hnul params).mpr ⟨hacts,hstream⟩,hexplain hacts⟩
    · show Refused (coreQuery Q r sql params)
      rw [coreQuery,hchecked]
      exact (refused_bind_iff rfl _).mpr hquiet
    · show Refused (coreExecute Q r sql params)
      rw [coreExecute,hchecked]
      exact (refused_bind_iff rfl _).mpr hquiet

end Raw

/-- None of the texts the five calls compile acts while it is compiled. -/
def ActsNowhere (Q : Compiler) (sql tail : String) : Prop :=
  Q.acts sql = false ∧ Q.acts tail = false ∧ Q.acts (explainText sql) = false

def noRows : RunAnswers := ⟨[],fun _ => .ok (),.ok [],.ok 0⟩

theorem letterCompiler_trailing : Trailing letterCompiler "SELECT 1;SELECT 2" "SELECT 2" := by
  refine ⟨by rfl,?_⟩
  intro rest h
  have hsecond : letterCompiler.prepare "SELECT 2" = .ok true (some "") := by rfl
  rw [hsecond] at h
  cases h

/-- The same parameter behind a pragma: `query` answers with an error and has switched the
flag. -/
example : ¬ AllRefuse letterCompiler leakAnswers noRows true "PRAGMA foreign_keys = OFF;SELECT 2"
    (.list [.list []]) := by
  rintro ⟨⟨-,-,hacts⟩,-⟩
  exact hacts (by decide)

end Xqlite.Single

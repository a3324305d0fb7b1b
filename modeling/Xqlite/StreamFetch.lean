import Xqlite.RowTerms
import Xqlite.Lib.Runs
set_option autoImplicit false

/-! Fetching batches of rows from a stream. A statement is the list of results
its execution will answer; stepping it past the end starts the execution over,
as an auto-resetting SQLite statement does. -/

namespace Xqlite.Stream
open Runs

inductive StepResult where
  | row (names : List String) (cells : List Cell)
  | done
  | error (code : Int) (errmsg : Option String)
  deriving DecidableEq, Repr

structure Stmt where
  script : List StepResult
  rest : List StepResult
  deriving DecidableEq, Repr

def Stmt.prepared (script : List StepResult) : Stmt := ⟨script,script⟩

def sqlite3Step (stmt : Stmt) : StepResult × Stmt :=
  match stmt.rest, stmt.script with
  | r :: rest, _ => (r, { stmt with rest })
  | [], r :: rest => (r, { stmt with rest })
  | [], [] => (.done, stmt)

def stepTerms : StepResult → Except XqliteError (Option (List Term))
  | .row _ cells => (sqliteRowToElixirTerms cells).map some
  | .done => .ok none
  | .error code errmsg =>
      .error (.sqliteFailure code (some (errmsg.getD
        ("SQLite error " ++ toString code ++ " during step; no specific message."))))

/-- The pointer cell is `none` once the statement was taken and finalized.
`stepped` is the record of what `sqlite3_step` answered; the code does not read it. -/
structure XqliteStream where
  atomicRawStmt : Option Stmt
  connOpen : Bool
  columnNames : List String
  stepped : List StepResult
  deriving DecidableEq, Repr

def XqliteStream.opened (columnNames : List String) (script : List StepResult) : XqliteStream :=
  ⟨some (.prepared script),true,columnNames,[]⟩

def processSingleStep (s : XqliteStream) (stmt : Stmt) :
    Except XqliteError (Option (List Term)) × XqliteStream :=
  (stepTerms (sqlite3Step stmt).1,
    { s with
      atomicRawStmt := some (sqlite3Step stmt).2
      stepped := s.stepped ++ [(sqlite3Step stmt).1] })

def XqliteStream.takeAndFinalize (s : XqliteStream) : XqliteStream :=
  { s with atomicRawStmt := none }

def taggedElixirValue (term : Term) : Term :=
  match term.getType with
  | .atom => .tuple [.atom "atom",term]
  | .binary =>
      match term with
      | .binary bytes =>
          if fromUtf8 bytes = none then .tuple [.atom "string",term]
          else .tuple [.atom "binary",term]
      | _ => .tuple [.atom "binary",term]
  | .integer => .tuple [.atom "integer",term]
  | .float => .tuple [.atom "float",term]
  | .list => .tuple [.atom "list",term]
  | .map => .tuple [.atom "map",term]
  | .function => .tuple [.atom "function",term]
  | .pid => .tuple [.atom "pid",term]
  | .port => .tuple [.atom "port",term]
  | .ref => .tuple [.atom "reference",term]
  | .tuple => .tuple [.atom "tuple",term]

inductive FetchError where
  | invalidBatchSize (provided : Term) (minimum : Nat)
  | xqlite (reason : XqliteError)
  deriving Repr

inductive FetchReply where
  | rows (rows : List (List Term))
  | done
  | error (reason : FetchError)
  deriving Repr

structure FetchState where
  stream : XqliteStream
  fetchedRows : List (List Term)
  exhausted : Bool
  error : Option XqliteError

def fetchLoop : Nat → XqliteStream → List (List Term) → FetchState
  | 0, s, fetched => ⟨s,fetched,false,none⟩
  | n+1, s, fetched =>
    match s.atomicRawStmt with
    | none => ⟨s,fetched,true,none⟩
    | some stmt =>
      match processSingleStep s stmt with
      | (.ok (some row),s') => fetchLoop n s' (fetched ++ [row])
      | (.ok none,s') => ⟨s'.takeAndFinalize,fetched,true,none⟩
      | (.error e,s') => ⟨s'.takeAndFinalize,fetched,true,some e⟩

def FetchState.reply (f : FetchState) : FetchReply :=
  match f.error with
  | some e => .error (.xqlite e)
  | none =>
    if f.fetchedRows ≠ [] then .rows f.fetchedRows
    else if f.exhausted then .done
    else .rows []

def fetchBatch (s : XqliteStream) (batchSize : Nat) : XqliteStream × FetchReply :=
  match s.atomicRawStmt with
  | none => (s,.done)
  | some _ =>
    if s.connOpen then
      ((fetchLoop batchSize s []).stream,(fetchLoop batchSize s []).reply)
    else (s,.error (.xqlite .connectionClosed))

def streamFetch (s : XqliteStream) (batchSizeTerm : Term) : XqliteStream × FetchReply :=
  match batchSizeTerm.decodeI64 with
  | some val =>
    if 1 ≤ val then fetchBatch s val.toNat
    else (s,.error (.invalidBatchSize (taggedElixirValue (.int val)) 1))
  | none => (s,.error (.invalidBatchSize (taggedElixirValue batchSizeTerm) 1))

section Execution

/-- How an execution stops: at `SQLITE_DONE`, or at a row that cannot be stepped
to or decoded. -/
abbrev Ending := Except XqliteError Unit

def Ending.outcome : Ending → Except XqliteError (Option (List Term))
  | .ok () => .ok none
  | .error e => .error e

def Ending.error? : Ending → Option XqliteError
  | .ok () => none
  | .error e => some e

/-- The script answers the decodable `rows` and then stops. -/
def Executes (script : List StepResult) (rows : List (List Term)) (last : Ending) : Prop :=
  script.map stepTerms = rows.map (fun row => .ok (some row)) ++ [last.outcome]

theorem executes_nil {script : List StepResult} {last : Ending}
    (h : Executes script [] last) : ∃ r, script = [r] ∧ stepTerms r = last.outcome := by
  unfold Executes at h
  cases script with
  | nil => simp at h
  | cons r rest =>
    simp only [List.map_cons,List.map_nil,List.nil_append,List.cons.injEq,
      List.map_eq_nil_iff] at h
    exact ⟨r,by rw [h.2],h.1⟩

theorem executes_cons {script : List StepResult} {row : List Term} {rows : List (List Term)}
    {last : Ending} (h : Executes script (row :: rows) last) :
    ∃ r rest, script = r :: rest ∧ stepTerms r = .ok (some row) ∧ Executes rest rows last := by
  unfold Executes at h
  cases script with
  | nil => simp at h
  | cons r rest =>
    simp only [List.map_cons,List.cons_append,List.cons.injEq] at h
    exact ⟨r,rest,rfl,h.1,h.2⟩

end Execution

/-- A live stream that has `rest` still to deliver out of an execution of `script`. -/
structure Serving (script : List StepResult) (s : XqliteStream) (rest : List (List Term))
    (last : Ending) : Prop where
  connOpen : s.connOpen = true
  live : ∃ stmt, s.atomicRawStmt = some stmt ∧ s.stepped ++ stmt.rest = script ∧
    Executes stmt.rest rest last

/-- The execution was stepped to its end, once, and the statement is gone. -/
structure Spent (script : List StepResult) (s : XqliteStream) : Prop where
  gone : s.atomicRawStmt = none
  stepped : s.stepped = script

theorem opened_serving {script : List StepResult} {rows : List (List Term)} {last : Ending}
    (h : Executes script rows last) (columnNames : List String) :
    Serving script (.opened columnNames script) rows last :=
  ⟨rfl,.prepared script,rfl,rfl,h⟩

theorem processSingleStep_row {script : List StepResult} {s : XqliteStream}
    {row : List Term} {rest : List (List Term)} {last : Ending} {stmt : Stmt}
    (hc : s.connOpen = true) (hs : s.stepped ++ stmt.rest = script)
    (he : Executes stmt.rest (row :: rest) last) :
    ∃ s', processSingleStep s stmt = (.ok (some row),s') ∧ Serving script s' rest last := by
  obtain ⟨r,rs,hrest,hr,hrs⟩ := executes_cons he
  have hstep : sqlite3Step stmt = (r, { stmt with rest := rs }) := by
    simp [sqlite3Step,hrest]
  let s' : XqliteStream :=
    { s with atomicRawStmt := some { stmt with rest := rs }, stepped := s.stepped ++ [r] }
  have hlog : s'.stepped ++ rs = script := by
    rw [← hs,hrest]
    simp [s']
  refine ⟨s',?_,hc,{ stmt with rest := rs },rfl,hlog,hrs⟩
  simp [processSingleStep,hstep,hr,s']

theorem processSingleStep_last {script : List StepResult} {s : XqliteStream}
    {last : Ending} {stmt : Stmt} (hs : s.stepped ++ stmt.rest = script)
    (he : Executes stmt.rest [] last) :
    ∃ s', processSingleStep s stmt = (last.outcome,s') ∧ Spent script s'.takeAndFinalize := by
  obtain ⟨r,hrest,hr⟩ := executes_nil he
  have hstep : sqlite3Step stmt = (r, { stmt with rest := [] }) := by
    simp [sqlite3Step,hrest]
  let s' : XqliteStream :=
    { s with atomicRawStmt := some { stmt with rest := [] }, stepped := s.stepped ++ [r] }
  have hlog : s'.stepped = script := by rw [← hs,hrest]
  refine ⟨s',?_,rfl,hlog⟩
  simp [processSingleStep,hstep,hr,s']

theorem fetchLoop_within {script : List StepResult} {s : XqliteStream}
    {rest : List (List Term)} {last : Ending} {n : Nat} (fetched : List (List Term))
    (h : Serving script s rest last) (hn : n ≤ rest.length) :
    ∃ s', fetchLoop n s fetched = ⟨s',fetched ++ rest.take n,false,none⟩ ∧
      Serving script s' (rest.drop n) last := by
  induction n generalizing s rest fetched with
  | zero => exact ⟨s,by simp [fetchLoop],h⟩
  | succ n ih =>
    cases rest with
    | nil => simp at hn
    | cons row rest =>
      obtain ⟨stmt,hstmt,hs,he⟩ := h.live
      obtain ⟨s',hstep,hs'⟩ := processSingleStep_row h.connOpen hs he
      have hn' : n ≤ rest.length := by simp only [List.length_cons] at hn; omega
      obtain ⟨t,ht,hserving⟩ := ih (fetched ++ [row]) hs' hn'
      refine ⟨t,?_,hserving⟩
      simp [fetchLoop,hstmt,hstep,ht]

theorem fetchLoop_beyond {script : List StepResult} {s : XqliteStream}
    {rest : List (List Term)} {last : Ending} {n : Nat} (fetched : List (List Term))
    (h : Serving script s rest last) (hn : rest.length < n) :
    ∃ s', fetchLoop n s fetched = ⟨s',fetched ++ rest,true,last.error?⟩ ∧ Spent script s' := by
  induction n generalizing s rest fetched with
  | zero => omega
  | succ n ih =>
    obtain ⟨stmt,hstmt,hs,he⟩ := h.live
    cases rest with
    | nil =>
      obtain ⟨s',hstep,hspent⟩ := processSingleStep_last hs he
      refine ⟨_,?_,hspent⟩
      cases last <;> simp [fetchLoop,hstmt,hstep,Ending.outcome,Ending.error?]
    | cons row rest =>
      obtain ⟨s',hstep,hs'⟩ := processSingleStep_row h.connOpen hs he
      have hn' : rest.length < n := by simp only [List.length_cons] at hn; omega
      obtain ⟨t,ht,hspent⟩ := ih (fetched ++ [row]) hs' hn'
      refine ⟨t,?_,hspent⟩
      simp [fetchLoop,hstmt,hstep,ht]

theorem fetchBatch_within {script : List StepResult} {s : XqliteStream}
    {rest : List (List Term)} {last : Ending} {b : Nat}
    (h : Serving script s rest last) (hb : 1 ≤ b) (hn : b ≤ rest.length) :
    ∃ s', fetchBatch s b = (s',.rows (rest.take b)) ∧ Serving script s' (rest.drop b) last := by
  obtain ⟨stmt,hstmt,-⟩ := h.live
  obtain ⟨s',hloop,hs'⟩ := fetchLoop_within [] h hn
  have hne : rest.take b ≠ [] := by
    intro hnil
    have := congrArg List.length hnil
    simp only [List.length_take,List.length_nil] at this
    omega
  refine ⟨s',?_,hs'⟩
  simp [fetchBatch,hstmt,h.connOpen,hloop,FetchState.reply,hne]

def lastReply (rest : List (List Term)) : Ending → FetchReply
  | .error e => .error (.xqlite e)
  | .ok () => if rest = [] then .done else .rows rest

theorem fetchBatch_beyond {script : List StepResult} {s : XqliteStream}
    {rest : List (List Term)} {last : Ending} {b : Nat}
    (h : Serving script s rest last) (hn : rest.length < b) :
    ∃ s', fetchBatch s b = (s',lastReply rest last) ∧ Spent script s' := by
  obtain ⟨stmt,hstmt,-⟩ := h.live
  obtain ⟨s',hloop,hs'⟩ := fetchLoop_beyond [] h hn
  refine ⟨s',?_,hs'⟩
  cases last with
  | error e => simp [fetchBatch,hstmt,h.connOpen,hloop,FetchState.reply,lastReply,Ending.error?]
  | ok u =>
    by_cases hrest : rest = []
    · simp [fetchBatch,hstmt,h.connOpen,hloop,FetchState.reply,lastReply,Ending.error?,hrest]
    · simp [fetchBatch,hstmt,h.connOpen,hloop,FetchState.reply,lastReply,Ending.error?,hrest]

theorem fetchBatch_spent {script : List StepResult} {s : XqliteStream} (h : Spent script s)
    (b : Nat) : fetchBatch s b = (s,.done) := by
  simp [fetchBatch,h.gone]

/-- The batch sizes that `stream_fetch` takes: positive 64-bit integers. -/
def batchSize : Term → Option Nat
  | .int n => if 1 ≤ n ∧ n < 2^63 then some n.toNat else none
  | _ => none

theorem batchSize_eq_some {arg : Term} {b : Nat} (h : batchSize arg = some b) :
    ∃ n : Int, arg = .int n ∧ 1 ≤ n ∧ n < 2^63 ∧ b = n.toNat := by
  cases arg with
  | int n =>
    by_cases hn : 1 ≤ n ∧ n < 2^63
    · rw [batchSize,if_pos hn,Option.some.injEq] at h
      exact ⟨n,rfl,hn.1,hn.2,h.symm⟩
    · rw [batchSize,if_neg hn] at h
      cases h
  | _ => cases h

theorem batchSize_pos {arg : Term} {b : Nat} (h : batchSize arg = some b) : 1 ≤ b := by
  obtain ⟨n,-,hn,-,hb⟩ := batchSize_eq_some h
  omega

theorem streamFetch_valid {arg : Term} {b : Nat} (h : batchSize arg = some b)
    (s : XqliteStream) : streamFetch s arg = fetchBatch s b := by
  obtain ⟨n,harg,hn,htop,hb⟩ := batchSize_eq_some h
  have hrange : -2^63 ≤ n ∧ n < 2^63 := by omega
  subst harg hb
  rw [streamFetch,Term.decodeI64,if_pos hrange]
  exact if_pos hn

theorem streamFetch_invalid {arg : Term} (h : batchSize arg = none) (s : XqliteStream) :
    streamFetch s arg = (s,.error (.invalidBatchSize (taggedElixirValue arg) 1)) := by
  cases arg with
  | int n =>
    by_cases hrange : -2^63 ≤ n ∧ n < 2^63
    · have hlow : ¬ 1 ≤ n := by
        intro hn
        rw [batchSize,if_pos ⟨hn,hrange.2⟩] at h
        cases h
      rw [streamFetch,Term.decodeI64,if_pos hrange]
      exact if_neg hlow
    · rw [streamFetch,Term.decodeI64,if_neg hrange]
  | _ => rfl

section Delivery

variable {script : List StepResult} {rows : List (List Term)}

/-- `k` rows were asked for so far. -/
def Progress (script : List StepResult) (rows : List (List Term)) (k : Nat)
    (s : XqliteStream) : Prop :=
  (k ≤ rows.length ∧ Serving script s (rows.drop k) (.ok ())) ∨
  (rows.length ≤ k ∧ Spent script s)

def batchReply (batch : List (List Term)) : FetchReply :=
  if batch = [] then .done else .rows batch

def FetchReply.delivered : FetchReply → List (List Term)
  | .rows rows => rows
  | _ => []

@[simp] theorem batchReply_delivered (batch : List (List Term)) :
    (batchReply batch).delivered = batch := by
  by_cases h : batch = [] <;> simp [batchReply,FetchReply.delivered,h]

def delivered (replies : List FetchReply) : List (List Term) :=
  replies.flatMap FetchReply.delivered

theorem progress_opened (h : Executes script rows (.ok ())) (columnNames : List String) :
    Progress script rows 0 (.opened columnNames script) :=
  .inl ⟨Nat.zero_le _,opened_serving h columnNames⟩

/-- One valid fetch delivers the next batch and moves on by its size. -/
theorem progress_fetch {k : Nat} {s : XqliteStream} (h : Progress script rows k s)
    {arg : Term} {b : Nat} (hb : batchSize arg = some b) :
    (streamFetch s arg).2 = batchReply ((rows.drop k).take b) ∧
      Progress script rows (k + b) (streamFetch s arg).1 := by
  have hpos := batchSize_pos hb
  rw [streamFetch_valid hb]
  rcases h with ⟨hk,hs⟩ | ⟨hk,hs⟩
  · by_cases hfit : b ≤ (rows.drop k).length
    · obtain ⟨s',hfetch,hs'⟩ := fetchBatch_within hs hpos hfit
      have hlen : ((rows.drop k).take b).length = b := by
        rw [List.length_take]
        omega
      have hne : (rows.drop k).take b ≠ [] := by
        intro hnil
        rw [hnil,List.length_nil] at hlen
        omega
      rw [hfetch]
      refine ⟨by simp only [batchReply,if_neg hne],.inl ⟨?_,?_⟩⟩
      · simp only [List.length_drop] at hfit
        omega
      · rw [List.drop_drop] at hs'
        exact hs'
    · obtain ⟨s',hfetch,hs'⟩ := fetchBatch_beyond hs (by omega : (rows.drop k).length < b)
      have htake : (rows.drop k).take b = rows.drop k := List.take_of_length_le (by omega)
      rw [hfetch,htake]
      refine ⟨rfl,.inr ⟨?_,hs'⟩⟩
      simp only [List.length_drop] at hfit
      omega
  · have hnil : rows.drop k = [] := List.drop_eq_nil_of_le hk
    rw [fetchBatch_spent hs,hnil]
    exact ⟨by simp [batchReply],.inr ⟨by omega,hs⟩⟩

def asked (args : List Term) : Nat := (args.filterMap batchSize).sum

theorem progress_run {k : Nat} {s : XqliteStream} (h : Progress script rows k s)
    (args : List Term) :
    delivered (run streamFetch s args).2 = (rows.drop k).take (asked args) ∧
      Progress script rows (k + asked args) (run streamFetch s args).1 := by
  induction args generalizing k s with
  | nil => exact ⟨by simp [delivered,asked],h⟩
  | cons arg args ih =>
    cases hb : batchSize arg with
    | none =>
      have hsame := streamFetch_invalid hb s
      obtain ⟨hrows,hprog⟩ := ih h
      have hasked : asked (arg :: args) = asked args := by simp [asked,hb]
      simp only [run_cons,hsame,hasked]
      exact ⟨by simpa [delivered,FetchReply.delivered] using hrows,hprog⟩
    | some b =>
      obtain ⟨hreply,hnext⟩ := progress_fetch h hb
      obtain ⟨hrows,hprog⟩ := ih hnext
      have hasked : asked (arg :: args) = b + asked args := by simp [asked,hb]
      rw [run_cons,hasked,← Nat.add_assoc]
      refine ⟨?_,hprog⟩
      calc delivered ((streamFetch s arg).2 :: (run streamFetch (streamFetch s arg).1 args).2)
          = (rows.drop k).take b ++ (rows.drop (k + b)).take (asked args) := by
            rw [← hrows,hreply]
            simp [delivered]
        _ = (rows.drop k).take (b + asked args) := by
            rw [List.take_add,List.drop_drop]

theorem progress_stepped {k : Nat} {s : XqliteStream} (h : Progress script rows k s) :
    s.stepped <+: script := by
  rcases h with ⟨-,hs⟩ | ⟨-,hs⟩
  · obtain ⟨stmt,-,hlog,-⟩ := hs.live
    exact ⟨_,hlog⟩
  · exact ⟨[],by rw [List.append_nil,hs.stepped]⟩

theorem executes_done_last (h : Executes script rows (.ok ())) {before after : List StepResult}
    (hs : script = before ++ .done :: after) : after = [] := by
  induction rows generalizing script before with
  | nil =>
    obtain ⟨r,hr,-⟩ := executes_nil h
    have hlen := congrArg List.length (hr.symm.trans hs)
    simp only [List.length_append,List.length_cons,List.length_nil] at hlen
    exact List.eq_nil_of_length_eq_zero (by omega)
  | cons row rows ih =>
    obtain ⟨r,rest,hr,hrow,hrest⟩ := executes_cons h
    rw [hr] at hs
    cases before with
    | nil =>
      simp only [List.nil_append,List.cons.injEq] at hs
      rw [hs.1] at hrow
      simp [stepTerms] at hrow
    | cons x before =>
      simp only [List.cons_append,List.cons.injEq] at hs
      exact ih hrest hs.2

/-- Whatever batch sizes are asked for, the rows of the execution come out once
each and in order, and the statement is never stepped past its end. -/
theorem stream_fetch_delivers_every_row (h : Executes script rows (.ok ()))
    (columnNames : List String) (args : List Term) :
    let opened := XqliteStream.opened columnNames script
    delivered (run streamFetch opened args).2 = rows.take (asked args) ∧
    (∀ before arg after, args = before ++ arg :: after →
      let s := (run streamFetch opened before).1
      (batchSize arg = none →
        streamFetch s arg = (s,.error (.invalidBatchSize (taggedElixirValue arg) 1))) ∧
      (∀ b, batchSize arg = some b →
        ((streamFetch s arg).2 = .done ∨
          ∃ batch, (streamFetch s arg).2 = .rows batch ∧ batch ≠ [] ∧ batch.length ≤ b) ∧
        (delivered (run streamFetch opened before).2 = rows → (streamFetch s arg).2 = .done))) ∧
    (∀ before after, (run streamFetch opened args).1.stepped = before ++ .done :: after →
      after = []) := by
  have hopened := progress_opened h columnNames
  refine ⟨?_,?_,?_⟩
  · simpa using (progress_run hopened args).1
  · intro before arg after _
    refine ⟨fun hb => streamFetch_invalid hb _,?_⟩
    intro b hb
    obtain ⟨hrows,hprog⟩ := progress_run hopened before
    obtain ⟨hreply,-⟩ := progress_fetch hprog hb
    simp only [Nat.zero_add,List.drop_zero] at hrows hreply
    rw [hreply]
    constructor
    · by_cases hnil : (rows.drop (asked before)).take b = []
      · exact .inl (by simp [batchReply,hnil])
      · refine .inr ⟨_,by simp only [batchReply,if_neg hnil],hnil,?_⟩
        exact List.length_take_le _ _
    · intro hall
      have hlen : rows.length ≤ asked before := by
        have := congrArg List.length (hrows.symm.trans hall)
        rw [List.length_take] at this
        omega
      simp [batchReply,List.drop_eq_nil_of_le hlen]
  · intro before after hlog
    obtain ⟨more,hmore⟩ := progress_stepped (progress_run hopened args).2
    have hscript : script = before ++ .done :: (after ++ more) := by
      rw [← hmore,hlog]
      simp
    have hnil := executes_done_last h hscript
    exact (List.append_eq_nil_iff.mp hnil).1

theorem stream_fetch_delivers_two_rows :
    Executes [.row ["a"] [.integer 1],.row ["a"] [.null],.done]
        [[.int 1],[.atom "nil"]] (.ok ()) ∧
      delivered (run streamFetch (.opened ["a"]
          [.row ["a"] [.integer 1],.row ["a"] [.null],.done])
        [.int 1,.int 0,.atom "all",.int 500,.int 3]).2 = [[.int 1],[.atom "nil"]] := by
  have h : Executes [.row ["a"] [.integer 1],.row ["a"] [.null],.done]
      [[.int 1],[.atom "nil"]] (.ok ()) := rfl
  exact ⟨h,(stream_fetch_delivers_every_row h ["a"]
    [.int 1,.int 0,.atom "all",.int 500,.int 3]).1⟩

end Delivery

end Xqlite.Stream

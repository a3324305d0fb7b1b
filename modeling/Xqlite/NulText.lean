import Xqlite.Quoting
import Xqlite.SingleStatement
set_option autoImplicit false

namespace Xqlite.NulText
open Logged Prepare Single Quoting Pragma

def nul : Char := '\x00'

def upToNul (sql : String) : String := String.ofList (sql.toList.takeWhile (· != nul))

def isPlain (c : Char) : Bool :=
  isAsciiAlphanumeric c || c == '_' || c == ' ' || c == '=' || c == '('

/-- The text starts with a word and breaks off inside its first quotes. -/
def BreaksOff (sql : String) : Prop :=
  ∃ before q content, sql.toList = before ++ q :: QueryText.escape q content ∧
    (q = '"' ∨ q = '\'') ∧ startsWithLetter before = true ∧ before.all isPlain = true

/-- The answer to a text, given for the text with a NUL and more behind it. -/
def answerBefore (rest : String) : PrepareAnswer → PrepareAnswer
  | .failed code errmsg => .failed code errmsg
  | .ok statement tail => .ok statement (some (tail.getD "" ++ String.ofList (nul :: rest.toList)))

/-- What is assumed of SQLite: it compiles a text up to the first NUL, says how far it got,
and takes no text that breaks off inside quotes; the tokenizer stops there, before any
pragma could act. -/
structure StopsAtNul (Q : Compiler) : Prop where
  cut : ∀ {sql rest : String}, nul ∉ sql.toList →
    (sql ++ String.ofList (nul :: rest.toList)).utf8ByteSize ≤ Q.limit →
    Q.prepare (sql ++ String.ofList (nul :: rest.toList)) = answerBefore rest (Q.prepare sql)
  actsCut : ∀ {sql rest : String}, nul ∉ sql.toList →
    (sql ++ String.ofList (nul :: rest.toList)).utf8ByteSize ≤ Q.limit →
    Q.acts (sql ++ String.ofList (nul :: rest.toList)) = Q.acts sql
  suffix : ∀ {sql tail : String} {statement : Bool},
    Q.prepare sql = .ok statement (some tail) → tail.toList <:+ sql.toList
  unterminated : ∀ {sql : String}, BreaksOff sql →
    (∃ code errmsg, Q.prepare sql = .failed code errmsg) ∧ Q.acts sql = false

/-- SQLite and `rusqlite`: the compiler, and the answers to a statement that was taken. -/
structure Env where
  compiler : Compiler
  floatText : UInt64 → String
  answers : Answers
  run : RunAnswers
  batch : Except XqliteError Unit
  schemaRows : Except XqliteError (List (List Value))
  pragmaRow : Except XqliteError (Option Value)
  isSqliteAuth : XqliteError → Bool
  display : XqliteError → String

structure ReadsUpToNul (E : Env) : Prop where
  compiler : StopsAtNul E.compiler
  floats : ∀ bits, nul ∉ (E.floatText bits).toList

def raise {τ α : Type} : Except XqliteError α → Logged τ XqliteError α
  | .ok a => ⟨[],.ok a⟩
  | .error e => ⟨[],.error e⟩

/-- `Connection::prepare`; `onError` is what the caller makes of its error. -/
def prepareActing (E : Env) (onError : XqliteError → XqliteError) (sql : String) :
    Traced Bool := do
  note (E.compiler.prepareActs sql)
  raise ((rusqlitePrepare E.compiler sql).mapError onError)

def onStatement {α : Type} (E : Env) (onError : XqliteError → XqliteError) (sql : String)
    (answer : Except XqliteError α) : Traced α := do
  let _ ← prepareActing E onError sql
  note [.step]
  raise answer

def coreExecuteBatch (E : Env) (sqlBatch : String) : Traced Unit :=
  if sqlHasNul sqlBatch then stop .nulErrorInString
  else do
    note [.step]
    raise E.batch

def decodeString (bytes : List UInt8) : String := (String.fromUTF8? ⟨bytes.toArray⟩).getD ""

def literalText (floatText : UInt64 → String) : Literal → String
  | .null => "NULL"
  | .on => "ON"
  | .off => "OFF"
  | .word name => name
  | .integer n => toString n
  | .float bits => floatText bits
  | .quoted bytes =>
      String.ofList ('\'' :: (QueryText.escape '\'' (decodeString bytes).toList ++ ['\'']))

def setText (floatText : UInt64 → String) (name : String) (literal : Literal) : String :=
  "PRAGMA " ++ name ++ " = " ++ literalText floatText literal ++ ";"

def pragmaExecError (E : Env) (pragma : String) (e : XqliteError) : XqliteError :=
  if E.isSqliteAuth e then e else .cannotExecutePragma pragma none (E.display e)

def set (E : Env) (name : String) (value : Term) : Traced Term :=
  match validateName name with
  | .error e => stop e
  | .ok () =>
    match formatTermForPragma value with
    | .error e => stop e
    | .ok literal => do
        let sql := setText E.floatText name literal
        let row ← onStatement E (pragmaExecError E sql) sql E.pragmaRow
        pure ((row.map encodeVal).getD (.atom "nil"))

inductive Call where
  | query (sql : String) (params : Term)
  | execute (sql : String) (params : Term)
  | executeBatch (sql : String)
  | stmtPrepare (sql : String)
  | streamOpen (sql : String) (params : Term)
  | explainAnalyze (sql : String) (params : Term)
  | savepoint (name : String)
  | rollbackToSavepoint (name : String)
  | releaseSavepoint (name : String)
  | schema (pragma : SchemaPragma) (name : String)
  | setPragma (name : String) (value : Term)

def Call.text (E : Env) : Call → Option String
  | .query sql _ | .execute sql _ | .executeBatch sql | .stmtPrepare sql | .streamOpen sql _
  | .explainAnalyze sql _ => some sql
  | .savepoint name => some (Quoting.savepoint name)
  | .rollbackToSavepoint name => some (Quoting.rollbackToSavepoint name)
  | .releaseSavepoint name => some (Quoting.releaseSavepoint name)
  | .schema pragma name => some (pragma.sql name)
  | .setPragma name value =>
    match validateName name, formatTermForPragma value with
    | .ok (), .ok literal => some (setText E.floatText name literal)
    | _, _ => none

/-- An error is returned and nothing has happened. -/
def Rejected {τ α : Type} (x : Logged τ XqliteError α) : Prop :=
  (∃ e, x.out = .error e) ∧ x.log = []

def onConn {τ α : Type} (connOpen : Bool) (x : Logged τ XqliteError α) :
    Logged τ XqliteError α :=
  if !connOpen then stop .connectionClosed else x

def Call.Rejects (E : Env) (connOpen : Bool) : Call → Prop
  | .query sql params => Rejected (onConn connOpen (coreQuery E.compiler E.run sql params))
  | .execute sql params => Rejected (onConn connOpen (coreExecute E.compiler E.run sql params))
  | .executeBatch sql => Rejected (onConn connOpen (coreExecuteBatch E sql))
  | .stmtPrepare sql => Rejected (tracedPrepare E.compiler E.answers connOpen sql)
  | .streamOpen sql params => Rejected (tracedStream E.compiler E.answers connOpen sql params)
  | .explainAnalyze sql params =>
      Rejected (onConn connOpen (Single.explainAnalyze E.compiler E.answers sql params))
  | .savepoint name =>
      Rejected (onConn connOpen (onStatement E id (Quoting.savepoint name) E.run.affected))
  | .rollbackToSavepoint name => Rejected (onConn connOpen
      (onStatement E id (Quoting.rollbackToSavepoint name) E.run.affected))
  | .releaseSavepoint name =>
      Rejected (onConn connOpen (onStatement E id (Quoting.releaseSavepoint name) E.run.affected))
  | .schema pragma name =>
      Rejected (onConn connOpen (onStatement E id (pragma.sql name) E.schemaRows))
  | .setPragma name value => Rejected (onConn connOpen (set E name value))

/-- The text or what follows its first statement acts while it is compiled, or `rusqlite`
has a statement to run. -/
def Takes (E : Env) (sql : String) : Prop :=
  E.compiler.prepareActs sql ≠ [] ∨ ∃ statement, rusqlitePrepare E.compiler sql = .ok statement

/-- The value is an atom with a NUL in it, and SQLite takes what stands before the NUL. -/
def Call.Slips (E : Env) (connOpen : Bool) : Call → Prop
  | .setPragma name (.atom value) =>
      connOpen = true ∧ validateName name = .ok () ∧ nul ∈ value.toList ∧
      (setText E.floatText name (.word value)).utf8ByteSize ≤ E.compiler.limit ∧
      Takes E (upToNul (setText E.floatText name (.word value)))
  | _ => False

section Rejection
variable {τ α : Type}

theorem rejected_stop (e : XqliteError) : Rejected (stop e : Logged τ XqliteError α) :=
  ⟨⟨e,rfl⟩,rfl⟩

theorem rejected_onConn_iff (connOpen : Bool) (x : Logged τ XqliteError α) :
    Rejected (onConn connOpen x) ↔ (connOpen = true → Rejected x) := by
  cases connOpen with
  | true => simp [onConn]
  | false => simp [onConn,rejected_stop]

variable {E : Env}

theorem prepareActing_eq (onError : XqliteError → XqliteError) (sql : String) :
    prepareActing E onError sql = ⟨E.compiler.prepareActs sql,
      (raise ((rusqlitePrepare E.compiler sql).mapError onError) : Traced Bool).out⟩ := by
  rw [prepareActing,note_bind]
  cases rusqlitePrepare E.compiler sql <;> simp [raise,Except.mapError]

theorem rejected_onStatement_iff (onError : XqliteError → XqliteError) (sql : String)
    (answer : Except XqliteError α) :
    Rejected (onStatement E onError sql answer) ↔ ¬ Takes E sql := by
  rw [onStatement,prepareActing_eq]
  cases hrusqlite : rusqlitePrepare E.compiler sql with
  | ok statement =>
    have htakes : Takes E sql := .inr ⟨statement,hrusqlite⟩
    simp only [htakes,not_true,iff_false]
    rintro ⟨-,hlog⟩
    simp [note,bind,andThen,raise,Except.mapError] at hlog
  | error e => simp [Rejected,Takes,hrusqlite,bind,andThen,raise,Except.mapError]

theorem compileActs_eq_nil_iff (Q : Compiler) (sql : String) :
    Q.compileActs sql = [] ↔ Q.acts sql = false := by
  unfold Compiler.compileActs
  cases Q.acts sql <;> simp

theorem not_takes_failed {sql : String} {code : Int} {errmsg : Option String}
    (h : E.compiler.prepare sql = .failed code errmsg) (hacts : E.compiler.acts sql = false) :
    ¬ Takes E sql := by
  have hquiet := (compileActs_eq_nil_iff E.compiler sql).mpr hacts
  simp [Takes,Compiler.prepareActs,rusqlitePrepare,h,hquiet]

end Rejection

section Cutting
variable {sql : String}

theorem takeWhile_cut {l : List Char} (h : nul ∈ l) :
    ∃ rest, l = l.takeWhile (· != nul) ++ nul :: rest := by
  induction l with
  | nil => cases h
  | cons c l ih =>
    by_cases hc : c = nul
    · subst hc
      exact ⟨l,by simp⟩
    · have hl : nul ∈ l := by simpa [Ne.symm hc] using h
      obtain ⟨rest,hrest⟩ := ih hl
      refine ⟨rest,?_⟩
      have hkeep : (c :: l).takeWhile (· != nul) = c :: l.takeWhile (· != nul) := by simp [hc]
      rw [hkeep,List.cons_append,← hrest]

theorem nul_not_mem_upToNul (sql : String) : nul ∉ (upToNul sql).toList := by
  rw [upToNul,String.toList_ofList]
  intro hmem
  simpa using List.mem_takeWhile_imp hmem

theorem upToNul_cut (h : nul ∈ sql.toList) :
    ∃ rest : String, sql = upToNul sql ++ String.ofList (nul :: rest.toList) := by
  obtain ⟨rest,hrest⟩ := takeWhile_cut h
  refine ⟨String.ofList rest,String.toList_inj.mp ?_⟩
  rw [String.toList_append,upToNul,String.toList_ofList,String.toList_ofList,String.toList_ofList]
  exact hrest

variable {Q : Compiler} {rest : String}

theorem prepare_nul (h : StopsAtNul Q)
    (hsize : (String.ofList (nul :: rest.toList)).utf8ByteSize ≤ Q.limit) :
    ∃ tail, Q.prepare ("" ++ String.ofList (nul :: rest.toList)) = .ok false tail := by
  obtain ⟨tail,htail⟩ := Q.empty
  have hcut : Q.prepare ("" ++ String.ofList (nul :: rest.toList)) =
      answerBefore rest (Q.prepare "") := by
    refine h.cut (by simp) ?_
    rwa [String.empty_append]
  rw [hcut,htail]
  exact ⟨_,rfl⟩

theorem tail_fits (h : StopsAtNul Q) (hfree : nul ∉ sql.toList)
    (hsize : (sql ++ String.ofList (nul :: rest.toList)).utf8ByteSize ≤ Q.limit)
    {statement : Bool} {tail : String} (hprepare : Q.prepare sql = .ok statement (some tail)) :
    nul ∉ tail.toList ∧ (tail ++ String.ofList (nul :: rest.toList)).utf8ByteSize ≤ Q.limit := by
  obtain ⟨before,hbefore⟩ := h.suffix hprepare
  have hsql : sql = String.ofList before ++ tail := by
    refine String.toList_inj.mp ?_
    rw [String.toList_append,String.toList_ofList,hbefore]
  refine ⟨fun hmem => hfree (hbefore ▸ List.mem_append_right _ hmem),?_⟩
  rw [hsql] at hsize
  simp only [String.utf8ByteSize_append] at hsize ⊢
  omega

theorem nul_tail_ne (tail rest : String) : tail ++ String.ofList (nul :: rest.toList) ≠ "" := by
  intro heq
  have hchars := congrArg String.toList heq
  simp at hchars

/-- `rusqlite` sees the text before the NUL and no more. -/
theorem rusqlitePrepare_cut (h : StopsAtNul Q) (hfree : nul ∉ sql.toList)
    (hsize : (sql ++ String.ofList (nul :: rest.toList)).utf8ByteSize ≤ Q.limit) :
    rusqlitePrepare Q (sql ++ String.ofList (nul :: rest.toList)) = rusqlitePrepare Q sql := by
  have hrest : (String.ofList (nul :: rest.toList)).utf8ByteSize ≤ Q.limit := by
    rw [String.utf8ByteSize_append] at hsize
    omega
  obtain ⟨none',hnone⟩ := prepare_nul h hrest
  cases hprepare : Q.prepare sql with
  | failed code errmsg => simp only [rusqlitePrepare,h.cut hfree hsize,hprepare,answerBefore]
  | ok statement tail =>
    cases tail with
    | none =>
      simp only [rusqlitePrepare,h.cut hfree hsize,hprepare,answerBefore,Option.getD_none,
        if_neg (nul_tail_ne _ _),hnone]
    | some tail =>
      obtain ⟨htail,hfits⟩ := tail_fits h hfree hsize hprepare
      simp only [rusqlitePrepare,h.cut hfree hsize,hprepare,answerBefore,Option.getD_some,
        if_neg (nul_tail_ne _ _)]
      by_cases hempty : tail = ""
      · subst hempty
        simp only [hnone,if_true]
      · rw [if_neg hempty,h.cut htail hfits]
        cases Q.prepare tail with
        | failed code errmsg => rfl
        | ok more rest' => cases more <;> rfl

theorem compileActs_cut (h : StopsAtNul Q) (hfree : nul ∉ sql.toList)
    (hsize : (sql ++ String.ofList (nul :: rest.toList)).utf8ByteSize ≤ Q.limit) :
    Q.compileActs (sql ++ String.ofList (nul :: rest.toList)) = Q.compileActs sql := by
  rw [Compiler.compileActs,h.actsCut hfree hsize,Compiler.compileActs]

theorem prepareActs_cut (h : StopsAtNul Q) (hfree : nul ∉ sql.toList)
    (hsize : (sql ++ String.ofList (nul :: rest.toList)).utf8ByteSize ≤ Q.limit) :
    Q.prepareActs (sql ++ String.ofList (nul :: rest.toList)) = Q.prepareActs sql := by
  have hempty : Q.compileActs "" = [] := by
    obtain ⟨tail,htail⟩ := Q.empty
    exact (compileActs_eq_nil_iff Q "").mpr (Q.acts_statement htail)
  have hrest : ("" ++ String.ofList (nul :: rest.toList)).utf8ByteSize ≤ Q.limit := by
    rw [String.utf8ByteSize_append] at hsize ⊢
    simp only [String.utf8ByteSize_empty]
    omega
  rw [Compiler.prepareActs,Compiler.prepareActs,compileActs_cut h hfree hsize,h.cut hfree hsize]
  congr 1
  cases hprepare : Q.prepare sql with
  | failed code errmsg => rfl
  | ok statement tail =>
    cases tail with
    | none =>
      simp only [answerBefore,Option.getD_none,if_neg (nul_tail_ne _ _)]
      rw [compileActs_cut h (by simp) hrest,hempty]
    | some tail =>
      obtain ⟨htail,hfits⟩ := tail_fits h hfree hsize hprepare
      simp only [answerBefore,Option.getD_some,if_neg (nul_tail_ne _ _)]
      rw [compileActs_cut h htail hfits]
      by_cases hnone : tail = ""
      · rw [if_pos hnone,hnone,hempty]
      · rw [if_neg hnone]

end Cutting

section Taking
variable {E : Env} {sql : String}

theorem takes_nul_iff (h : ReadsUpToNul E) (hnul : nul ∈ sql.toList) :
    Takes E sql ↔ sql.utf8ByteSize ≤ E.compiler.limit ∧ Takes E (upToNul sql) := by
  by_cases hsize : sql.utf8ByteSize ≤ E.compiler.limit
  · obtain ⟨rest,hrest⟩ := upToNul_cut hnul
    have hfree := nul_not_mem_upToNul sql
    have hfits : (upToNul sql ++ String.ofList (nul :: rest.toList)).utf8ByteSize ≤
        E.compiler.limit := hrest ▸ hsize
    have hrusqlite : rusqlitePrepare E.compiler sql = rusqlitePrepare E.compiler (upToNul sql) :=
      (congrArg (rusqlitePrepare E.compiler) hrest).trans
        (rusqlitePrepare_cut h.compiler hfree hfits)
    have hacts : E.compiler.prepareActs sql = E.compiler.prepareActs (upToNul sql) :=
      (congrArg E.compiler.prepareActs hrest).trans (prepareActs_cut h.compiler hfree hfits)
    simp only [Takes,hrusqlite,hacts,hsize,true_and]
  · simp only [hsize,false_and,iff_false]
    -- over the limit nothing compiles, and so nothing acts
    have hacts : E.compiler.acts sql = false := by
      cases hacts : E.compiler.acts sql with
      | false => rfl
      | true => exact absurd (E.compiler.acts_within hacts) hsize
    cases hprepare : E.compiler.prepare sql with
    | failed code errmsg => exact not_takes_failed hprepare hacts
    | ok statement tail => exact absurd (E.compiler.within hprepare) hsize

theorem nul_not_mem_of_plain {chars : List Char} (h : chars.all isPlain = true) : nul ∉ chars := by
  intro hmem
  have hplain := List.all_eq_true.mp h nul hmem
  have hnot : isPlain nul = false := by decide
  rw [hnot] at hplain
  cases hplain

theorem not_takes_quoted (h : ReadsUpToNul E) {head tail : String} {q : Char} (content : List Char)
    (hq : q = '"' ∨ q = '\'') (hstart : startsWithLetter head.toList = true)
    (hplain : head.toList.all isPlain = true) (htail : nul ∉ tail.toList)
    (hsql : sql.toList = head.toList ++ q :: (QueryText.escape q content ++ q :: tail.toList))
    (hnul : nul ∈ sql.toList) : ¬ Takes E sql := by
  have hqnul : nul ≠ q := by rcases hq with rfl | rfl <;> decide
  have hhead := nul_not_mem_of_plain hplain
  have hcontent : nul ∈ content := by
    rw [hsql] at hnul
    simpa [hhead,htail,hqnul,QueryText.mem_escape hqnul] using hnul
  have hseen : (upToNul sql).toList =
      head.toList ++ q :: QueryText.escape q (content.takeWhile (· != nul)) := by
    have hkeep : ∀ c ∈ head.toList, (c != nul) = true := by
      intro c hc
      have hne : c ≠ nul := fun heq => hhead (heq ▸ hc)
      simpa using hne
    have hquote : (q != nul) = true := by simpa using Ne.symm hqnul
    rw [upToNul,String.toList_ofList,hsql,List.takeWhile_append_of_pos hkeep,
      List.takeWhile_cons_of_pos (p := (· != nul)) hquote,QueryText.takeWhile_escape hqnul hcontent]
  rw [takes_nul_iff h hnul]
  rintro ⟨-,htakes⟩
  obtain ⟨⟨code,errmsg,hfailed⟩,hacts⟩ := h.compiler.unterminated
    ⟨head.toList,q,content.takeWhile (· != nul),hseen,hq,hstart,hplain⟩
  exact not_takes_failed hfailed hacts htakes

theorem not_takes_identifier (h : ReadsUpToNul E) {head tail name : String}
    (hstart : startsWithLetter head.toList = true) (hplain : head.toList.all isPlain = true)
    (htail : nul ∉ tail.toList) (hnul : nul ∈ (head ++ quoteIdentifier name ++ tail).toList) :
    ¬ Takes E (head ++ quoteIdentifier name ++ tail) := by
  refine not_takes_quoted h name.toList (.inl rfl) hstart hplain htail ?_ hnul
  rw [String.toList_append,String.toList_append,quoteIdentifier,String.toList_ofList]
  simp

end Taking

section Setting
variable {E : Env} {name : String}

theorem plain_of_validateName (h : validateName name = .ok ()) : name.toList.all isPlain = true := by
  unfold validateName at h
  split_ifs at h with hbad
  simp only [not_or,Bool.not_eq_false,List.all_eq_true] at hbad
  refine List.all_eq_true.mpr ?_
  intro c hc
  have hchar := hbad.2 c hc
  simp only [isPlain,hchar,Bool.true_or]

theorem nul_not_mem_repr (n : Nat) : nul ∉ (Nat.repr n).toList := by
  rw [Nat.repr,String.toList_ofList]
  intro hmem
  have hdigit := (toDigits_range hmem).1
  exact absurd hdigit (by decide)

theorem nul_not_mem_toString (n : Int) : nul ∉ (toString n).toList := by
  cases n with
  | ofNat n => exact nul_not_mem_repr n
  | negSucc n =>
    have htext : toString (Int.negSucc n) = "-" ++ Nat.repr (n+1) := rfl
    have hminus : nul ∉ "-".toList := by decide
    rw [htext,String.toList_append,List.mem_append]
    simp only [hminus,nul_not_mem_repr,or_self,not_false_iff]

theorem head_plain (h : validateName name = .ok ()) :
    startsWithLetter ("PRAGMA " ++ name ++ " = ").toList = true ∧
      ("PRAGMA " ++ name ++ " = ").toList.all isPlain = true := by
  have htext : ("PRAGMA " ++ name ++ " = ").toList =
      "PRAGMA ".toList ++ name.toList ++ " = ".toList := by
    rw [String.toList_append,String.toList_append]
  rw [htext]
  refine ⟨rfl,?_⟩
  rw [List.all_append,List.all_append,plain_of_validateName h]
  decide

theorem toList_setText (floatText : UInt64 → String) (name : String) (literal : Literal) :
    (setText floatText name literal).toList = ("PRAGMA " ++ name ++ " = ").toList ++
      (literalText floatText literal).toList ++ ";".toList := by
  rw [setText,String.toList_append,String.toList_append (s := "PRAGMA " ++ name ++ " = ")]

theorem nul_mem_setText_iff (h : validateName name = .ok ()) (literal : Literal) :
    nul ∈ (setText E.floatText name literal).toList ↔
      nul ∈ (literalText E.floatText literal).toList := by
  have hhead := nul_not_mem_of_plain (head_plain h).2
  have hsemi : nul ∉ ";".toList := by decide
  rw [toList_setText,List.mem_append,List.mem_append]
  simp only [hhead,hsemi,false_or,or_false]

theorem rejected_map_iff {τ α β : Type} (x : Logged τ XqliteError α) (f : α → β) :
    Rejected (do let a ← x; pure (f a)) ↔ Rejected x := by
  obtain ⟨log,out⟩ := x
  cases out <;> simp [Rejected,bind,andThen]

theorem set_rejected_iff {value : Term} {literal : Literal} (hname : validateName name = .ok ())
    (hformat : formatTermForPragma value = .ok literal) :
    Rejected (set E name value) ↔ ¬ Takes E (setText E.floatText name literal) := by
  simp only [set,hname,hformat]
  rw [rejected_map_iff,rejected_onStatement_iff]

theorem not_takes_setText (h : ReadsUpToNul E) (hname : validateName name = .ok ())
    {bytes : List UInt8} (hnul : nul ∈ (setText E.floatText name (.quoted bytes)).toList) :
    ¬ Takes E (setText E.floatText name (.quoted bytes)) := by
  obtain ⟨hstart,hplain⟩ := head_plain hname
  have hsemi : nul ∉ ";".toList := by decide
  refine not_takes_quoted h (decodeString bytes).toList (.inr rfl) hstart hplain hsemi ?_ hnul
  rw [toList_setText,literalText,String.toList_ofList]
  simp only [List.append_assoc,List.cons_append,List.nil_append]

theorem formatTermForPragma_nul {value : String} (h : nul ∈ value.toList) :
    formatTermForPragma (.atom value) = .ok (.word value) := by
  have hnil : value ≠ "nil" := by rintro rfl; exact absurd h (by decide)
  have htrue : value ≠ "true" := by rintro rfl; exact absurd h (by decide)
  have hfalse : value ≠ "false" := by rintro rfl; exact absurd h (by decide)
  simp only [formatTermForPragma,hnil,htrue,hfalse,if_false]

/-- Only atoms bring a NUL to SQLite outside of quotes. -/
theorem nul_literal_cases (h : ReadsUpToNul E) {value : Term} {literal : Literal}
    (hformat : formatTermForPragma value = .ok literal)
    (hnul : nul ∈ (literalText E.floatText literal).toList) :
    (∃ bytes, literal = .quoted bytes) ∨ ∃ atom, value = .atom atom ∧ nul ∈ atom.toList := by
  cases value with
  | atom atom =>
    right
    refine ⟨atom,rfl,?_⟩
    simp only [formatTermForPragma] at hformat
    split_ifs at hformat with hnil htrue hfalse
    · cases hformat
      exact absurd hnul (show nul ∉ "NULL".toList by decide)
    · cases hformat
      exact absurd hnul (show nul ∉ "ON".toList by decide)
    · cases hformat
      exact absurd hnul (show nul ∉ "OFF".toList by decide)
    · cases hformat
      exact hnul
  | int n =>
    simp only [formatTermForPragma] at hformat
    split at hformat
    · cases hformat
      exact absurd hnul (nul_not_mem_toString _)
    · cases hformat
  | float bits =>
    cases hformat
    exact absurd hnul (h.floats bits)
  | binary bytes =>
    simp only [formatTermForPragma] at hformat
    split_ifs at hformat
    cases hformat
    exact .inl ⟨bytes,rfl⟩
  | list items => cases hformat
  | improper items tail => cases hformat
  | tuple items => cases hformat
  | map entries => cases hformat
  | handle type ident => cases hformat

end Setting

theorem nul_sql_rejected {E : Env} {connOpen : Bool} {sql : String} (h : nul ∈ sql.toList)
    (params : Term) :
    (Call.query sql params).Rejects E connOpen ∧ (Call.execute sql params).Rejects E connOpen ∧
    (Call.executeBatch sql).Rejects E connOpen ∧ (Call.stmtPrepare sql).Rejects E connOpen ∧
    (Call.streamOpen sql params).Rejects E connOpen ∧
    (Call.explainAnalyze sql params).Rejects E connOpen := by
  have hnul : sqlHasNul sql = true := List.contains_iff_mem.mpr h
  have hchecked := checkedPrepare_nul (Q := E.compiler) hnul
  refine ⟨?_,?_,?_,?_,?_,?_⟩
  · refine (rejected_onConn_iff connOpen _).mpr (fun _ => ?_)
    rw [coreQuery,hchecked]
    exact rejected_stop _
  · refine (rejected_onConn_iff connOpen _).mpr (fun _ => ?_)
    rw [coreExecute,hchecked]
    exact rejected_stop _
  · refine (rejected_onConn_iff connOpen _).mpr (fun _ => ?_)
    rw [coreExecuteBatch,if_pos hnul]
    exact rejected_stop _
  · cases connOpen with
    | false => exact rejected_stop _
    | true =>
      simp only [Call.Rejects,tracedPrepare,rawActs,stmtPrepare,hnul]
      exact rejected_stop _
  · cases connOpen with
    | false => exact rejected_stop _
    | true =>
      simp only [Call.Rejects,tracedStream,rawActs,streamOpen,hnul]
      exact rejected_stop _
  · refine (rejected_onConn_iff connOpen _).mpr (fun _ => ?_)
    rw [Single.explainAnalyze,if_pos hnul]
    exact rejected_stop _

theorem set_nul_iff {E : Env} (h : ReadsUpToNul E) (connOpen : Bool) (name : String)
    (value : Term) :
    (∀ sql, (Call.setPragma name value).text E = some sql → nul ∈ sql.toList →
        (Call.setPragma name value).Rejects E connOpen) ↔
      ¬ (Call.setPragma name value).Slips E connOpen := by
  constructor
  · intro hall hslips
    cases value with
    | atom atom =>
      obtain ⟨hopen,hname,hnul,hsize,htakes⟩ := hslips
      have hformat := formatTermForPragma_nul hnul
      have htext : (Call.setPragma name (.atom atom)).text E =
          some (setText E.floatText name (.word atom)) := by
        simp only [Call.text,hname,hformat]
      have hmem := (nul_mem_setText_iff (E := E) hname (.word atom)).mpr hnul
      have hrejected := (rejected_onConn_iff connOpen _).mp (hall _ htext hmem) hopen
      exact (set_rejected_iff hname hformat).mp hrejected
        ((takes_nul_iff h hmem).mpr ⟨hsize,htakes⟩)
    | _ => exact hslips
  · intro hslips sql htext hmem
    refine (rejected_onConn_iff connOpen _).mpr (fun hopen => ?_)
    cases hname : validateName name with
    | error e => simp [Call.text,hname] at htext
    | ok u =>
      cases hformat : formatTermForPragma value with
      | error e => simp [Call.text,hname,hformat] at htext
      | ok literal =>
        have hsql : setText E.floatText name literal = sql := by
          simpa [Call.text,hname,hformat] using htext
        subst hsql
        rw [set_rejected_iff hname hformat]
        rcases nul_literal_cases h hformat ((nul_mem_setText_iff hname literal).mp hmem) with
          ⟨bytes,rfl⟩ | ⟨atom,rfl,hnul⟩
        · exact not_takes_setText h hname hmem
        · rw [formatTermForPragma_nul hnul] at hformat
          cases hformat
          intro htakes
          obtain ⟨hsize,hbefore⟩ := (takes_nul_iff h hmem).mp htakes
          exact hslips ⟨hopen,hname,hnul,hsize,hbefore⟩

theorem rejects_text_iff {E : Env} {connOpen : Bool} {call : Call} {sql : String}
    (htext : call.text E = some sql) (hslips : ¬ call.Slips E connOpen)
    (hrejects : nul ∈ sql.toList → call.Rejects E connOpen) :
    (∀ sql, call.text E = some sql → nul ∈ sql.toList → call.Rejects E connOpen) ↔
      ¬ call.Slips E connOpen := by
  refine iff_of_true (fun sql' hsql => ?_) hslips
  have heq : sql = sql' := Option.some.inj (htext.symm.trans hsql)
  exact heq ▸ hrejects

section Example

/-- The language of `letterPrepare` without quotes; `rest` is out of its sight. -/
def readStatement (before rest : List Char) : PrepareAnswer :=
  if startsWithLetter before then
    if before.contains '"' || before.contains '\'' then .failed 1 none
    else .ok true (some (String.ofList (semicolonRest before ++ rest)))
  else .ok false (some (String.ofList rest))

def cutPrepare (sql : String) : PrepareAnswer :=
  if sql.utf8ByteSize > 1000000 then .failed 18 none
  else readStatement (sql.toList.takeWhile (· != nul)) (sql.toList.dropWhile (· != nul))

theorem cutPrepare_within {sql : String} {statement : Bool} {tail : Option String}
    (h : cutPrepare sql = .ok statement tail) : sql.utf8ByteSize ≤ 1000000 := by
  unfold cutPrepare at h
  split at h
  · cases h
  · omega

theorem cutPrepare_eq {sql : String} (h : sql.utf8ByteSize ≤ 1000000) :
    cutPrepare sql =
      readStatement (sql.toList.takeWhile (· != nul)) (sql.toList.dropWhile (· != nul)) :=
  if_neg (Nat.not_lt.mpr h)

theorem readStatement_tail {before rest : List Char} {tail : Option String}
    (h : readStatement before rest = .ok true tail) :
    tail = some (String.ofList (semicolonRest before ++ rest)) := by
  unfold readStatement at h
  split_ifs at h
  · cases h
    rfl
  · cases h

theorem readStatement_letter {before rest : List Char} {statement : Bool} {tail : Option String}
    (hstart : startsWithLetter before = true)
    (h : readStatement before rest = .ok statement tail) : statement = true := by
  rw [readStatement,if_pos hstart] at h
  split_ifs at h
  cases h
  rfl

theorem semicolonRest_suffix (l : List Char) : semicolonRest l <:+ l := by
  induction l with
  | nil => exact List.suffix_rfl
  | cons c l ih =>
    unfold semicolonRest
    split
    · exact List.suffix_cons c l
    · exact ih.trans (List.suffix_cons c l)

theorem readStatement_suffix {before rest : List Char} {statement : Bool} {tail : String}
    (h : readStatement before rest = .ok statement (some tail)) :
    tail.toList <:+ before ++ rest := by
  cases statement with
  | true =>
    rw [Option.some.inj (readStatement_tail h),String.toList_ofList]
    obtain ⟨front,hfront⟩ := semicolonRest_suffix before
    exact ⟨front,by rw [← List.append_assoc,hfront]⟩
  | false =>
    unfold readStatement at h
    split_ifs at h
    · cases h
    · cases h
      rw [String.toList_ofList]
      exact List.suffix_append before rest

theorem cutPrepare_blank (t : Trail) (hsize : t.text.utf8ByteSize ≤ 1000000) :
    ∃ tail, cutPrepare t.text = .ok false tail := by
  have hstart : startsWithLetter (t.text.toList.takeWhile (· != nul)) = false := by
    rw [Trail.text,String.toList_ofList]
    have hchars := t.not_startsWithLetter
    cases hc : t.chars with
    | nil => rfl
    | cons c rest =>
      rw [hc] at hchars
      by_cases hnul : c = nul
      · simp [hnul,startsWithLetter]
      · simpa [hnul,startsWithLetter] using hchars
  rw [cutPrepare_eq hsize,readStatement,hstart]
  exact ⟨_,rfl⟩

theorem cutPrepare_explain {sql : String} {statement : Bool} {tail tail' : Option String}
    (h : cutPrepare sql = .ok true tail)
    (h' : cutPrepare (explainText sql) = .ok statement tail') : tail' = tail := by
  have hplain : ∀ c ∈ "EXPLAIN QUERY PLAN ".toList, (c != nul) = true :=
    List.all_eq_true.mp (by decide)
  have htext : (explainText sql).toList = "EXPLAIN QUERY PLAN ".toList ++ sql.toList :=
    String.toList_append
  rw [cutPrepare_eq (cutPrepare_within h)] at h
  rw [cutPrepare_eq (cutPrepare_within h'),htext,List.takeWhile_append_of_pos hplain,
    List.dropWhile_append_of_pos hplain] at h'
  have hstatement : statement = true := readStatement_letter rfl h'
  subst hstatement
  rw [readStatement_tail h,readStatement_tail h',semicolonRest_append (by decide)]

theorem readStatement_blank {before rest : List Char} {tail : Option String}
    (h : readStatement before rest = .ok false tail) : startsWithLetter before = false := by
  cases hstart : startsWithLetter before with
  | false => rfl
  | true => cases readStatement_letter hstart h

def cutActs (sql : String) : Bool :=
  let before := sql.toList.takeWhile (· != nul)
  decide (sql.utf8ByteSize ≤ 1000000) && setsFlag before &&
    !(before.contains '"' || before.contains '\'')

theorem cutActs_within {sql : String} (h : cutActs sql = true) : sql.utf8ByteSize ≤ 1000000 := by
  simp only [cutActs,Bool.and_eq_true,decide_eq_true_eq] at h
  exact h.1.1

theorem cutActs_statement {sql : String} {tail : Option String}
    (h : cutPrepare sql = .ok false tail) : cutActs sql = false := by
  rw [cutPrepare_eq (cutPrepare_within h)] at h
  have hstart := readStatement_blank h
  cases hpragma : setsFlag (sql.toList.takeWhile (· != nul)) with
  | true =>
    rw [startsWithLetter_of_setsFlag hpragma] at hstart
    cases hstart
  | false => simp only [cutActs,hpragma,Bool.and_false,Bool.false_and]

def cutCompiler : Compiler where
  prepare := cutPrepare
  acts := cutActs
  limit := 1000000
  rusqliteError := fun code errmsg => .sqliteFailure code errmsg
  limit_le := letterCompiler.limit_le
  within := cutPrepare_within
  blank := cutPrepare_blank
  explain := cutPrepare_explain
  acts_within := cutActs_within
  acts_statement := cutActs_statement

theorem read_cut {sql : String} (rest : String) (hfree : nul ∉ sql.toList) :
    (sql ++ String.ofList (nul :: rest.toList)).toList.takeWhile (· != nul) = sql.toList ∧
    (sql ++ String.ofList (nul :: rest.toList)).toList.dropWhile (· != nul) =
      nul :: rest.toList ∧
    sql.toList.takeWhile (· != nul) = sql.toList ∧ sql.toList.dropWhile (· != nul) = [] := by
  have hkeep : ∀ c ∈ sql.toList, (c != nul) = true := by
    intro c hc
    have hne : c ≠ nul := fun heq => hfree (heq ▸ hc)
    simpa using hne
  have htext : (sql ++ String.ofList (nul :: rest.toList)).toList =
      sql.toList ++ nul :: rest.toList := by
    rw [String.toList_append,String.toList_ofList]
  refine ⟨?_,?_,List.takeWhile_eq_self_iff.mpr hkeep,List.dropWhile_eq_nil_iff.mpr hkeep⟩
  · rw [htext,List.takeWhile_append_of_pos hkeep]
    simp
  · rw [htext,List.dropWhile_append_of_pos hkeep]
    simp

theorem size_le_of_cut {sql rest : String}
    (h : (sql ++ String.ofList (nul :: rest.toList)).utf8ByteSize ≤ 1000000) :
    sql.utf8ByteSize ≤ 1000000 := by
  rw [String.utf8ByteSize_append] at h
  omega

theorem cutPrepare_cut {sql rest : String} (hfree : nul ∉ sql.toList)
    (hsize : (sql ++ String.ofList (nul :: rest.toList)).utf8ByteSize ≤ 1000000) :
    cutPrepare (sql ++ String.ofList (nul :: rest.toList)) = answerBefore rest (cutPrepare sql) := by
  obtain ⟨hbefore,hbehind,hseen,hnone⟩ := read_cut rest hfree
  rw [cutPrepare_eq hsize,cutPrepare_eq (size_le_of_cut hsize),hbefore,hbehind,hseen,hnone]
  simp only [readStatement,List.append_nil]
  split_ifs
  · rfl
  · simp only [answerBefore,Option.getD_some]
    rw [← String.ofList_append]
  · rfl

theorem cutActs_cut {sql rest : String} (hfree : nul ∉ sql.toList)
    (hsize : (sql ++ String.ofList (nul :: rest.toList)).utf8ByteSize ≤ 1000000) :
    cutActs (sql ++ String.ofList (nul :: rest.toList)) = cutActs sql := by
  obtain ⟨hbefore,-,hseen,-⟩ := read_cut rest hfree
  simp only [cutActs,hbefore,hseen,hsize,size_le_of_cut hsize,decide_true]

theorem read_breaksOff {sql : String} (h : BreaksOff sql) :
    startsWithLetter (sql.toList.takeWhile (· != nul)) = true ∧
    ((sql.toList.takeWhile (· != nul)).contains '"' ||
      (sql.toList.takeWhile (· != nul)).contains '\'') = true := by
  obtain ⟨before,q,content,hsql,hq,hstart,hplain⟩ := h
  have hkeep : ∀ c ∈ before, (c != nul) = true := by
    intro c hc
    have hne : c ≠ nul := by
      rintro rfl
      exact absurd (List.all_eq_true.mp hplain nul hc) (by decide)
    simpa using hne
  have hqnul : (q != nul) = true := by rcases hq with rfl | rfl <;> decide
  have hseen : sql.toList.takeWhile (· != nul) =
      before ++ q :: (QueryText.escape q content).takeWhile (· != nul) := by
    rw [hsql,List.takeWhile_append_of_pos hkeep,
      List.takeWhile_cons_of_pos (p := (· != nul)) hqnul]
  rw [hseen]
  refine ⟨?_,by rcases hq with rfl | rfl <;> simp⟩
  cases before with
  | nil => cases hstart
  | cons c before => exact hstart

theorem cutPrepare_unterminated {sql : String} (h : BreaksOff sql) :
    (∃ code errmsg, cutPrepare sql = .failed code errmsg) ∧ cutActs sql = false := by
  obtain ⟨hletter,hquote⟩ := read_breaksOff h
  refine ⟨?_,by simp only [cutActs,hquote,Bool.not_true,Bool.and_false]⟩
  by_cases hsize : sql.utf8ByteSize ≤ 1000000
  · exact ⟨1,none,by rw [cutPrepare_eq hsize,readStatement,if_pos hletter,if_pos hquote]⟩
  · exact ⟨18,none,if_pos (Nat.lt_of_not_le hsize)⟩

theorem cutCompiler_stops : StopsAtNul cutCompiler where
  cut := cutPrepare_cut
  actsCut := cutActs_cut
  suffix := by
    intro sql tail statement h
    have hread : cutPrepare sql = .ok statement (some tail) := h
    rw [cutPrepare_eq (cutPrepare_within hread)] at hread
    have hsuffix := readStatement_suffix hread
    rwa [List.takeWhile_append_dropWhile] at hsuffix
  unterminated := cutPrepare_unterminated

def cutEnv : Env where
  compiler := cutCompiler
  floatText := fun _ => "0.5"
  answers := leakAnswers
  run := noRows
  batch := .ok ()
  schemaRows := .ok []
  pragmaRow := .ok none
  isSqliteAuth := fun _ => false
  display := fun _ => ""

theorem cutEnv_reads : ReadsUpToNul cutEnv :=
  ⟨cutCompiler_stops,fun _ => show nul ∉ "0.5".toList by decide⟩

end Example

end Xqlite.NulText

import Xqlite.Lib.Keyed
import Xqlite.StrictQuery
import Xqlite.StrictRebuild
set_option autoImplicit false

/-! `check_strict_violations` down to the texts it sends, on one rowid table. What SQLite
answers to a text is a parameter: it is known for the texts that read as the two queries
of the check, and nothing is known about any other text. -/

namespace Xqlite.StrictCheck
open Strict

/-- `PRAGMA table_info` does not list a generated column. -/
structure Column where
  name : String
  declared : Option String
  generated : Bool
  deriving DecidableEq, Repr

def Column.type (c : Column) : StrictType := parseColumnType c.declared

structure Row where
  rowid : Int
  cell : Column → Value

/-- SQLite compares names without regard to the case of ASCII letters. -/
def foldName (name : String) : List Char := name.toList.map Char.toLower

structure RowidTable where
  name : String
  columns : List Column
  rows : List Row
  distinct : (columns.map fun c => foldName c.name).Nodup
  ordinary : ∃ c ∈ columns, c.generated = false
  keyed : (rows.map Row.rowid).Nodup
  noNul : '\x00' ∉ name.toList ∧ ∀ c ∈ columns, '\x00' ∉ c.name.toList

structure Report where
  rowid : Value
  column : String
  actualType : String
  expectedType : String
  deriving DecidableEq, Repr

def Column.report (c : Column) (cell : Value × StorageClass) : Report :=
  ⟨cell.1,c.name,cell.2.word,c.type.word⟩

namespace RowidTable
variable (t : RowidTable)

def typed : List Column := t.columns.filter fun c => c.type ≠ .any

def typedColumns : List (String × StrictType) := t.typed.map fun c => (c.name,c.type)

def listed : List (String × Option String) :=
  (t.columns.filter fun c => !c.generated).map fun c => (c.name,c.declared)

def failing (c : Column) : List Row :=
  t.rows.filter fun r => storageClass (r.cell c) ∉ strictAllowedTypes c.type

/-- The violations there are: one for each such cell, with its column and its rowid. -/
def violations : List Report :=
  t.typed.flatMap fun c => (t.failing c).map fun r =>
    c.report (.integer r.rowid,storageClass (r.cell c))

def column? (name : String) : Option Column :=
  t.columns.find? fun c => foldName c.name = foldName name

/-- What `rowid` stands for in a query: a column of that name comes first. -/
def rowidRead (r : Row) : Value :=
  match t.column? "rowid" with
  | some c => r.cell c
  | none => .integer r.rowid

def answer (q : ViolationQuery) : List Report :=
  match t.column? q.column with
  | none => []
  | some c =>
    (t.rows.filter fun r => storageClass (r.cell c) ∉ q.allowed).map fun r =>
      ⟨t.rowidRead r,q.column,(storageClass (r.cell c)).word,q.expected.word⟩

def Resolves (q : ViolationQuery) : Prop :=
  foldName q.table = foldName t.name ∧ (t.column? q.column).isSome = true

end RowidTable

/-- A connection through which the table is reached. `tableInfo` gives the name and type
columns of an answer, `select` the four columns. UNION ALL promises no order. A rowid
that is not an integer may fail to be converted. -/
structure Connection (t : RowidTable) where
  tableInfo : String → Except XqliteError (List (String × Option String))
  select : String → Except XqliteError (List Report)
  lengthLimit : Nat
  compoundLimit : Nat
  tableInfo_long : ∀ sql, lengthLimit < sql.utf8ByteSize → ∃ e, tableInfo sql = .error e
  tableInfo_read : ∀ sql name, sql.utf8ByteSize ≤ lengthLimit → readTableInfo sql = some name →
    foldName name = foldName t.name → tableInfo sql = .ok t.listed
  select_long : ∀ sql, lengthLimit < sql.utf8ByteSize → ∃ e, select sql = .error e
  select_many : ∀ sql queries, readUnion sql = some queries → 1 < queries.length →
    compoundLimit < queries.length → ∃ e, select sql = .error e
  select_sound : ∀ sql queries rows, readUnion sql = some queries →
    (∀ q ∈ queries, t.Resolves q) → select sql = .ok rows →
      rows.Perm (queries.flatMap t.answer)
  select_answers : ∀ sql queries, sql.utf8ByteSize ≤ lengthLimit →
    readUnion sql = some queries → queries.length ≤ 1 ∨ queries.length ≤ compoundLimit →
      (∀ q ∈ queries, t.Resolves q) →
        (∀ report ∈ queries.flatMap t.answer, ∃ n, report.rowid = .integer n) →
          ∃ rows, select sql = .ok rows

instance (t : RowidTable) (q : ViolationQuery) : Decidable (t.Resolves q) :=
  inferInstanceAs (Decidable (_ ∧ _))

def tooBig : XqliteError := .sqliteFailure 18 (some "string or blob too big")

def syntaxError : XqliteError := .sqliteFailure 1 (some "syntax error")

def tooManyTerms : XqliteError := .sqliteFailure 1 (some "too many terms in compound SELECT")

def noSuchColumn : XqliteError := .sqliteFailure 1 (some "no such column")

section Answering

variable (t : RowidTable) (lengthLimit compoundLimit : Nat)

def replyInfo (sql : String) : Except XqliteError (List (String × Option String)) :=
  if lengthLimit < sql.utf8ByteSize then .error tooBig
  else
    match readTableInfo sql with
    | none => .error syntaxError
    | some name => .ok (if foldName name = foldName t.name then t.listed else [])

def replyQueries (queries : List ViolationQuery) : Except XqliteError (List Report) :=
  if 1 < queries.length ∧ compoundLimit < queries.length then .error tooManyTerms
  else if queries.all (fun q => t.Resolves q) then .ok (queries.flatMap t.answer)
  else .error noSuchColumn

def replySelect (sql : String) : Except XqliteError (List Report) :=
  if lengthLimit < sql.utf8ByteSize then .error tooBig
  else
    match readUnion sql with
    | none => .error syntaxError
    | some queries => replyQueries t compoundLimit queries

variable {t lengthLimit compoundLimit}

theorem replyInfo_read {sql name : String} (hsize : sql.utf8ByteSize ≤ lengthLimit)
    (hread : readTableInfo sql = some name) (hname : foldName name = foldName t.name) :
    replyInfo t lengthLimit sql = .ok t.listed := by
  simp only [replyInfo,if_neg (Nat.not_lt.mpr hsize),hread,hname,if_true]

theorem replyQueries_answers {queries : List ViolationQuery}
    (hfew : queries.length ≤ 1 ∨ queries.length ≤ compoundLimit)
    (hresolves : ∀ q ∈ queries, t.Resolves q) :
    replyQueries t compoundLimit queries = .ok (queries.flatMap t.answer) := by
  have hmany : ¬(1 < queries.length ∧ compoundLimit < queries.length) := by omega
  have hall : queries.all (fun q => t.Resolves q) = true := by simpa using hresolves
  rw [replyQueries,if_neg hmany,if_pos hall]

theorem replySelect_read {sql : String} {queries : List ViolationQuery}
    (hsize : sql.utf8ByteSize ≤ lengthLimit) (hread : readUnion sql = some queries) :
    replySelect t lengthLimit compoundLimit sql = replyQueries t compoundLimit queries := by
  simp only [replySelect,if_neg (Nat.not_lt.mpr hsize),hread]

theorem replySelect_many {sql : String} {queries : List ViolationQuery}
    (hread : readUnion sql = some queries) (hone : 1 < queries.length)
    (hmany : compoundLimit < queries.length) :
    ∃ e, replySelect t lengthLimit compoundLimit sql = .error e := by
  by_cases hsize : lengthLimit < sql.utf8ByteSize
  · exact ⟨tooBig,if_pos hsize⟩
  · refine ⟨tooManyTerms,?_⟩
    rw [replySelect_read (Nat.le_of_not_lt hsize) hread]
    exact if_pos ⟨hone,hmany⟩

theorem replySelect_sound {sql : String} {queries : List ViolationQuery} {rows : List Report}
    (hread : readUnion sql = some queries) (hresolves : ∀ q ∈ queries, t.Resolves q)
    (h : replySelect t lengthLimit compoundLimit sql = .ok rows) :
    rows.Perm (queries.flatMap t.answer) := by
  by_cases hsize : lengthLimit < sql.utf8ByteSize
  · rw [replySelect,if_pos hsize] at h
    cases h
  · rw [replySelect_read (Nat.le_of_not_lt hsize) hread] at h
    by_cases hmany : 1 < queries.length ∧ compoundLimit < queries.length
    · rw [replyQueries,if_pos hmany] at h
      cases h
    · rw [replyQueries_answers (by omega) hresolves] at h
      cases h
      exact .refl _

end Answering

def answering (t : RowidTable) (lengthLimit compoundLimit : Nat) : Connection t where
  tableInfo := replyInfo t lengthLimit
  select := replySelect t lengthLimit compoundLimit
  lengthLimit := lengthLimit
  compoundLimit := compoundLimit
  tableInfo_long _ h := ⟨tooBig,if_pos h⟩
  tableInfo_read _ _ := replyInfo_read
  select_long _ h := ⟨tooBig,if_pos h⟩
  select_many _ _ := replySelect_many
  select_sound _ _ _ := replySelect_sound
  select_answers _ _ hsize hread hfew hresolves _ :=
    ⟨_,(replySelect_read hsize hread).trans (replyQueries_answers hfew hresolves)⟩

section Check

variable {t : RowidTable} (Q : Connection t) (table : String)

def getTypedColumns : Except StrictError (List (String × StrictType)) :=
  match Q.tableInfo (tableInfoSql table) with
  | .error e => .error (.sqlite e)
  | .ok [] => .error (.noSuchTable table)
  | .ok rows =>
    .ok ((rows.map fun (name,type) => (name,parseColumnType type)).filter fun c => c.2 ≠ .any)

def checkStrictViolations : Except StrictError (List Report) :=
  match getTypedColumns Q table with
  | .error e => .error e
  | .ok columns =>
    match columns.map (violationQuery table) with
    | [] => .ok []
    | queries =>
      match Q.select (unionSql queries) with
      | .error e => .error (.sqlite e)
      | .ok rows => .ok rows

theorem checkStrictViolations_engine {Db : Type} (E : Engine Db) (db : Db)
    (f : Report → Violation) (hinfo : E.tableInfo table db = Q.tableInfo (tableInfoSql table))
    (hselect : ∀ queries,
      E.violations queries db = (Q.select (unionSql queries)).map (List.map f)) :
    Strict.checkStrictViolations E table db =
      (checkStrictViolations Q table).map (List.map f) := by
  have hcolumns : Strict.getTypedColumns E table db = getTypedColumns Q table := by
    cases hrows : Q.tableInfo (tableInfoSql table) with
    | error e => simp only [Strict.getTypedColumns,getTypedColumns,hinfo,hrows]
    | ok rows =>
      cases rows <;> simp only [Strict.getTypedColumns,getTypedColumns,hinfo,hrows]
  rw [Strict.checkStrictViolations,checkStrictViolations,hcolumns]
  cases getTypedColumns Q table with
  | error e => rfl
  | ok columns =>
    cases columns with
    | nil => rfl
    | cons column more =>
      simp only [List.map_cons,hselect]
      cases Q.select (unionSql (violationQuery table column ::
        more.map (violationQuery table))) <;> rfl

end Check

namespace RowidTable
variable {t : RowidTable} {c : Column}

theorem mem_columns (h : c ∈ t.typed) : c ∈ t.columns := List.mem_of_mem_filter h

theorem column?_name (h : c ∈ t.columns) : t.column? c.name = some c :=
  Keyed.find?_key t.distinct h

theorem nodup_names : (t.typed.map Column.name).Nodup := by
  have hfold : (t.typed.map fun c => foldName c.name).Nodup :=
    t.distinct.sublist (List.filter_sublist.map _)
  refine List.Nodup.of_map foldName ?_
  simpa [Function.comp_def] using hfold

theorem resolves (h : c ∈ t.columns) : t.Resolves (violationQuery t.name (c.name,c.type)) := by
  refine ⟨rfl,?_⟩
  rw [violationQuery,column?_name h]
  rfl

/-- A query of the check reports the failing rows of its column, under whatever `rowid`
stands for. -/
theorem answer_violationQuery (h : c ∈ t.columns) :
    t.answer (violationQuery t.name (c.name,c.type)) =
      (t.failing c).map fun r => c.report (t.rowidRead r,storageClass (r.cell c)) := by
  simp only [answer,violationQuery,column?_name h]
  rfl

theorem queries_answer :
    (t.typedColumns.map (violationQuery t.name)).flatMap t.answer =
      t.typed.flatMap fun c => (t.failing c).map fun r =>
        c.report (t.rowidRead r,storageClass (r.cell c)) := by
  rw [typedColumns,List.map_map,List.flatMap_map]
  refine List.flatMap_congr ?_
  intro c hc
  exact answer_violationQuery (mem_columns hc)

theorem listed_ne_nil : t.listed ≠ [] := by
  obtain ⟨c,hc,hg⟩ := t.ordinary
  have hmem : c ∈ t.columns.filter fun c => !c.generated := by simp [hc,hg]
  intro hnil
  rw [listed,List.map_eq_nil_iff] at hnil
  rw [hnil] at hmem
  cases hmem

/-- `rowid` gives the rowids of the failing rows: it does when no column is called so, and
when the column that is called so is the INTEGER PRIMARY KEY. -/
def RowidsRead (t : RowidTable) (c : Column) : Prop :=
  ((t.failing c).map fun r => (t.rowidRead r,storageClass (r.cell c))).Perm
    ((t.failing c).map fun r => (Value.integer r.rowid,storageClass (r.cell c)))

theorem rowidsRead_of_unshadowed (h : t.column? "rowid" = none) (c : Column) :
    t.RowidsRead c := by
  simp [RowidsRead,rowidRead,h]

theorem report_injective (c : Column) : Function.Injective c.report := by
  intro x y h
  obtain ⟨hrowid,hclass⟩ : x.1 = y.1 ∧ x.2.word = y.2.word := by
    simpa [Column.report] using h
  exact Prod.ext hrowid (StorageClass.word_injective hclass)

/-- The answer is the violations there are exactly when `rowid` gives the rowids. -/
theorem answer_perm_iff :
    ((t.typedColumns.map (violationQuery t.name)).flatMap t.answer).Perm t.violations ↔
      ∀ c ∈ t.typed, t.RowidsRead c := by
  have hkey : ∀ f : Row → Value, ∀ c : Column, ∀ report ∈ (t.failing c).map fun r =>
      c.report (f r,storageClass (r.cell c)), report.column = c.name := by
    intro f c report h
    obtain ⟨r,-,rfl⟩ := List.mem_map.mp h
    rfl
  rw [queries_answer,violations,
    Keyed.perm_flatMap_iff Column.name Report.column (hkey _) (hkey _) nodup_names]
  refine forall₂_congr ?_
  intro c _
  rw [RowidsRead,← List.map_perm_map_iff (report_injective c),List.map_map,List.map_map]
  rfl

end RowidTable

section Exact

variable {t : RowidTable} (Q : Connection t)

/-- The call reports the violations there are, and the texts it sends ask about that table
and about all of its typed columns, and about nothing else. -/
structure Exact : Prop where
  reported : ∃ reports, checkStrictViolations Q t.name = .ok reports ∧ reports.Perm t.violations
  table : readTableInfo (tableInfoSql t.name) = some t.name
  columns : getTypedColumns Q t.name = .ok t.typedColumns
  queries : t.typed ≠ [] → readUnion (unionSql (t.typedColumns.map (violationQuery t.name))) =
    some (t.typedColumns.map (violationQuery t.name))

structure Askable : Prop where
  table : '"' ∉ t.name.toList
  names : ∀ c ∈ t.typed, '\'' ∉ c.name.toList ∧ '"' ∉ c.name.toList
  listed : ∀ c ∈ t.typed, c.generated = false
  few : t.typed.length ≤ 1 ∨ t.typed.length ≤ Q.compoundLimit
  short : 21 + t.name.utf8ByteSize ≤ Q.lengthLimit ∧
    (t.typed ≠ [] → unionSize t.name t.typedColumns ≤ Q.lengthLimit)
  rowids : ∀ c ∈ t.typed, t.RowidsRead c

theorem tableInfo_ok (htable : '"' ∉ t.name.toList)
    (hsize : 21 + t.name.utf8ByteSize ≤ Q.lengthLimit) :
    Q.tableInfo (tableInfoSql t.name) = .ok t.listed := by
  rw [← utf8ByteSize_tableInfoSql] at hsize
  exact Q.tableInfo_read _ t.name hsize (readTableInfo_sql.mpr ⟨htable,t.noNul.1⟩) rfl

theorem listed_typed :
    (t.listed.map fun (name,type) => (name,parseColumnType type)).filter (fun c => c.2 ≠ .any) =
      (t.typed.filter fun c => !c.generated).map fun c => (c.name,c.type) := by
  rw [RowidTable.listed,List.map_map,List.filter_map,RowidTable.typed,List.filter_comm]
  rfl

theorem getTypedColumns_ok (htable : '"' ∉ t.name.toList)
    (hsize : 21 + t.name.utf8ByteSize ≤ Q.lengthLimit) :
    getTypedColumns Q t.name =
      .ok ((t.typed.filter fun c => !c.generated).map fun c => (c.name,c.type)) := by
  rw [getTypedColumns,tableInfo_ok Q htable hsize,← listed_typed]
  cases hl : t.listed with
  | nil => exact absurd hl t.listed_ne_nil
  | cons row rows => rfl

theorem getTypedColumns_iff (htable : '"' ∉ t.name.toList)
    (hsize : 21 + t.name.utf8ByteSize ≤ Q.lengthLimit) :
    getTypedColumns Q t.name = .ok t.typedColumns ↔ ∀ c ∈ t.typed, c.generated = false := by
  rw [getTypedColumns_ok Q htable hsize,RowidTable.typedColumns]
  constructor
  · intro h
    have hlen := congrArg List.length (Except.ok.inj h)
    rw [List.length_map,List.length_map,List.length_filter_eq_length_iff] at hlen
    intro c hc
    simpa using hlen c hc
  · intro h
    rw [List.filter_eq_self.mpr]
    intro c hc
    simp [h c hc]

theorem size_of_getTypedColumns {columns : List (String × StrictType)}
    (h : getTypedColumns Q t.name = .ok columns) : 21 + t.name.utf8ByteSize ≤ Q.lengthLimit := by
  by_contra hlong
  rw [← utf8ByteSize_tableInfoSql] at hlong
  obtain ⟨e,he⟩ := Q.tableInfo_long _ (Nat.lt_of_not_le hlong)
  simp [getTypedColumns,he] at h

theorem readUnion_typedColumns (hne : t.typed ≠ []) :
    readUnion (unionSql (t.typedColumns.map (violationQuery t.name))) =
        some (t.typedColumns.map (violationQuery t.name)) ↔
      '"' ∉ t.name.toList ∧ ∀ c ∈ t.typed, '\'' ∉ c.name.toList ∧ '"' ∉ c.name.toList := by
  have hcolumns : t.typedColumns ≠ [] := by simpa [RowidTable.typedColumns] using hne
  rw [readUnion_unionSql hcolumns,RowidTable.typedColumns,List.forall_mem_map]
  constructor
  · intro h
    obtain ⟨c,hc⟩ := List.exists_mem_of_ne_nil _ hne
    refine ⟨(h c hc).2.1,?_⟩
    intro c hc
    obtain ⟨⟨hsingle,hdouble,-⟩,-⟩ := h c hc
    exact ⟨hsingle,hdouble⟩
  · intro h c hc
    obtain ⟨hsingle,hdouble⟩ := h.2 c hc
    exact ⟨⟨hsingle,hdouble,t.noNul.2 c (RowidTable.mem_columns hc)⟩,h.1,t.noNul.1⟩

theorem checkStrictViolations_typed (hcolumns : getTypedColumns Q t.name = .ok t.typedColumns)
    (hne : t.typed ≠ []) :
    checkStrictViolations Q t.name =
      match Q.select (unionSql (t.typedColumns.map (violationQuery t.name))) with
      | .error e => .error (.sqlite e)
      | .ok reports => .ok reports := by
  rw [checkStrictViolations,hcolumns]
  obtain ⟨c,more,hc⟩ := List.exists_cons_of_ne_nil hne
  rw [RowidTable.typedColumns,hc]
  rfl

theorem checkStrictViolations_untyped
    (hcolumns : getTypedColumns Q t.name = .ok t.typedColumns) (hnil : t.typed = []) :
    checkStrictViolations Q t.name = .ok [] := by
  rw [checkStrictViolations,hcolumns,RowidTable.typedColumns,hnil]
  rfl

theorem resolves_queries :
    ∀ q ∈ t.typedColumns.map (violationQuery t.name), t.Resolves q := by
  intro q hq
  rw [RowidTable.typedColumns,List.map_map] at hq
  obtain ⟨c,hc,rfl⟩ := List.mem_map.mp hq
  exact RowidTable.resolves (RowidTable.mem_columns hc)

theorem length_queries :
    (t.typedColumns.map (violationQuery t.name)).length = t.typed.length := by
  simp [RowidTable.typedColumns]

/-- The violations name integers, so they can be converted. -/
theorem rowid_integer {report : Report} (h : report ∈ t.violations) :
    ∃ n, report.rowid = .integer n := by
  obtain ⟨c,-,hr⟩ := List.mem_flatMap.mp h
  obtain ⟨r,-,rfl⟩ := List.mem_map.mp hr
  exact ⟨r.rowid,rfl⟩

variable {Q}

theorem Askable.exact (h : Askable Q) : Exact Q := by
  have hcolumns := (getTypedColumns_iff Q h.table h.short.1).mpr h.listed
  have hqueries : t.typed ≠ [] →
      readUnion (unionSql (t.typedColumns.map (violationQuery t.name))) =
        some (t.typedColumns.map (violationQuery t.name)) :=
    fun hne => (readUnion_typedColumns hne).mpr ⟨h.table,h.names⟩
  refine ⟨?_,readTableInfo_sql.mpr ⟨h.table,t.noNul.1⟩,hcolumns,hqueries⟩
  by_cases hne : t.typed = []
  · refine ⟨[],checkStrictViolations_untyped Q hcolumns hne,?_⟩
    simp [RowidTable.violations,hne]
  · have hread := hqueries hne
    have hperm := RowidTable.answer_perm_iff.mpr h.rowids
    have hsize := h.short.2 hne
    rw [← utf8ByteSize_unionSql] at hsize
    obtain ⟨reports,hselect⟩ := Q.select_answers _ _ hsize hread
      (by rw [length_queries]; exact h.few) resolves_queries
      (fun report hr => rowid_integer (hperm.mem_iff.mp hr))
    refine ⟨reports,?_,(Q.select_sound _ _ _ hread resolves_queries hselect).trans hperm⟩
    rw [checkStrictViolations_typed Q hcolumns hne,hselect]

theorem Exact.askable (h : Exact Q) : Askable Q := by
  have htable := (readTableInfo_sql.mp h.table).1
  have hsize := size_of_getTypedColumns Q h.columns
  have hlisted := (getTypedColumns_iff Q htable hsize).mp h.columns
  obtain ⟨reports,hcheck,hperm⟩ := h.reported
  by_cases hne : t.typed = []
  · refine ⟨htable,?_,hlisted,.inl ?_,⟨hsize,fun hcons => absurd hne hcons⟩,?_⟩
    · simp [hne]
    · simp [hne]
    · simp [hne]
  · have hread := h.queries hne
    rw [checkStrictViolations_typed Q h.columns hne] at hcheck
    obtain ⟨rows,hselect,rfl⟩ : ∃ rows,
        Q.select (unionSql (t.typedColumns.map (violationQuery t.name))) = .ok rows ∧
          rows = reports := by
      split at hcheck
      · cases hcheck
      · rename_i rows heq
        exact ⟨rows,heq,Except.ok.inj hcheck⟩
    have hanswer := Q.select_sound _ _ _ hread resolves_queries hselect
    refine ⟨htable,((readUnion_typedColumns hne).mp hread).2,hlisted,?_,⟨hsize,fun _ => ?_⟩,
      RowidTable.answer_perm_iff.mp (hanswer.symm.trans hperm)⟩
    · by_contra hmany
      rw [not_or,← length_queries] at hmany
      obtain ⟨e,he⟩ := Q.select_many _ _ hread (Nat.lt_of_not_le hmany.1)
        (Nat.lt_of_not_le hmany.2)
      rw [he] at hselect
      cases hselect
    · by_contra hlong
      rw [← utf8ByteSize_unionSql] at hlong
      obtain ⟨e,he⟩ := Q.select_long _ (Nat.lt_of_not_le hlong)
      rw [he] at hselect
      cases hselect

end Exact

def plainTable : RowidTable where
  name := "multi"
  columns := [⟨"age",some "INTEGER",false⟩,⟨"score",some "real",false⟩,⟨"note",none,false⟩]
  rows := [⟨2,fun c => if c.name = "age" then .text [120] else .real 0⟩,
    ⟨3,fun c => if c.name = "score" then .text [120] else .integer 25⟩]
  distinct := by decide
  ordinary := ⟨⟨"note",none,false⟩,by simp,rfl⟩
  keyed := by simp
  noNul := by decide

def quotedColumn : RowidTable where
  name := "t"
  columns := [⟨"it's",some "INTEGER",false⟩]
  rows := [⟨1,fun _ => .text [120]⟩]
  distinct := by simp
  ordinary := ⟨_,List.mem_singleton_self _,rfl⟩
  keyed := by simp
  noNul := by decide

/-- The check is exact when no name it puts between quotes has such a quote in it, every
typed column is listed, the joined query is within the limits of SQLite, and `rowid`
gives the rowids; and only then. -/
theorem check_strict_violations_exact_iff {t : RowidTable} (Q : Connection t) :
    Exact Q ↔ Askable Q := ⟨Exact.askable,Askable.exact⟩

theorem check_strict_violations_multi :
    Exact (answering plainTable 1000000 500) ∧
      plainTable.violations =
        [⟨.integer 2,"age","text","INTEGER"⟩,⟨.integer 3,"score","text","REAL"⟩] :=
  ⟨(check_strict_violations_exact_iff _).mpr ⟨by decide,by decide,by decide,by decide,by decide,
    fun c _ => RowidTable.rowidsRead_of_unshadowed (by decide) c⟩,by decide⟩

/-- The violation there is goes unreported: the text is not a query at all. -/
theorem check_strict_violations_quoted :
    ¬Exact (answering quotedColumn 1000000 500) ∧
      checkStrictViolations (answering quotedColumn 1000000 500) quotedColumn.name =
        .error (.sqlite syntaxError) ∧
      quotedColumn.violations = [⟨.integer 1,"it's","text","INTEGER"⟩] := by
  have hcolumns : getTypedColumns (answering quotedColumn 1000000 500) quotedColumn.name =
      .ok quotedColumn.typedColumns :=
    (getTypedColumns_iff _ (by decide) (by decide)).mpr (by decide)
  have hread : readUnion (unionSql
      (quotedColumn.typedColumns.map (violationQuery quotedColumn.name))) = none := by
    rw [readUnion,← text_unionPieces]
    decide +kernel
  have hsize : ¬1000000 < (unionSql
      (quotedColumn.typedColumns.map (violationQuery quotedColumn.name))).utf8ByteSize := by
    rw [utf8ByteSize_unionSql]
    decide
  refine ⟨?_,?_,by decide⟩
  · intro h
    rw [h.queries (by decide)] at hread
    cases hread
  · rw [checkStrictViolations_typed _ hcolumns (by decide)]
    simp only [answering,replySelect,if_neg hsize,hread]

end Xqlite.StrictCheck

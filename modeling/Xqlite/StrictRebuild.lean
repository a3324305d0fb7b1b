import Xqlite.Lib.Relational
import Xqlite.StrictTable
set_option autoImplicit false

/-! The rebuild on a relational database: what the statements of `enable_strict_table`
do to the table, to what is attached to it, and to the rows of the other tables. What
SQLite reads in a CREATE text, how it compares keys, and which statements it refuses
for reasons of its own are parameters. -/

namespace Xqlite.Strict
open Transaction Relational

structure Column where
  name : String
  type : String
  deriving DecidableEq, Repr

structure Header where
  sql : String
  strict : Bool
  columns : List Column
  deriving DecidableEq, Repr

/-- The rows about a table in SQLite's own tables: its AUTOINCREMENT counter in
`sqlite_sequence`, and what ANALYZE left in `sqlite_stat1` and its like. -/
inductive Record where
  | counter (last : Int)
  | statistics (row : List Value)
  deriving DecidableEq, Repr

/-- An index that a constraint made has no text. -/
inductive Attached where
  | index (name : String) (sql : Option String)
  | trigger (name : String)
  | record (record : Record)
  deriving DecidableEq, Repr

def Attached.isIndex : Attached → Bool
  | .index _ _ => true
  | _ => false

def Attached.isTrigger : Attached → Bool
  | .trigger _ => true
  | _ => false

abbrev Relation := Table String Header Value

abbrev Contents := Database String Header Value Attached

inductive Declaration where
  | table (name : String) (strict : Bool) (columns : List Column)
      (foreignKeys : List (ForeignKey String Value))
  | index (name table : String)
  deriving DecidableEq, Repr

/-- `parentKey` tells whether a parent has, with these indexes, the key that a foreign key
names; `affinity` is what a column makes of a value before it is stored; `relabel` is the
new text of a renamed table; `counter` is what an insert writes to `sqlite_sequence`, given
what stands there and the rows of the table. What DROP TABLE comes to when a child table's
triggers run (`fired`) and the answers to the two queries of the check are left open, and
every statement may be refused. -/
structure Sqlite where
  read : String → Option Declaration
  same : Value → Value → Bool
  parentKey : List (String × Attached) → Relation → ForeignKey String Value → Bool
  counter : Header → Option Int → List (List Value) → Option Int
  fired : String → Contents → Option Contents
  affinity : Column → Value → Value
  relabel : String → String → String
  refuse : Nat → Stmt → Contents → Option XqliteError
  refuseBegin : Contents → Option XqliteError
  refuseCommit : Contents → Option XqliteError
  refuseQuery : Contents → Option XqliteError
  tableInfo : String → Contents → Except XqliteError (List (String × Option String))
  violations : List ViolationQuery → Contents → Except XqliteError (List Violation)

def indexesOn (d : Contents) : List (String × Attached) := d.attached.filter fun a => a.2.isIndex

def Sqlite.keys (Q : Sqlite) (d : Contents) : Keys String Header Value :=
  ⟨.null,Q.same,Q.parentKey (indexesOn d)⟩

/-- What SQLite reads between double quotes; a lone quote inside ends the name early. -/
def unquoteChars : List Char → Option (List Char)
  | [] => some []
  | '"' :: '"' :: cs => (unquoteChars cs).map ('"' :: ·)
  | '"' :: _ => none
  | c :: cs => (unquoteChars cs).map (c :: ·)

def unquote (name : String) : Option String := (unquoteChars name.toList).map String.ofList

/-- The value has the storage class a STRICT table demands of the column. -/
def strictHolds (column : Column) : Value → Bool
  | .null => true
  | .integer _ => parseColumnType (some column.type) ∈ [.integer,.any]
  | .real _ => parseColumnType (some column.type) ∈ [.real,.any]
  | .text _ => parseColumnType (some column.type) ∈ [.text,.any]
  | .blob _ => parseColumnType (some column.type) ∈ [.blob,.any]

/-- A STRICT table converts by affinity and then insists on the class, except in an
ANY column. -/
def Sqlite.storeValue (Q : Sqlite) (strict : Bool) (cv : Column × Value) : Option Value :=
  if strict then
    let stored := if parseColumnType (some cv.1.type) = .any then cv.2 else Q.affinity cv.1 cv.2
    if strictHolds cv.1 stored then some stored else none
  else some (Q.affinity cv.1 cv.2)

def Sqlite.store (Q : Sqlite) (T : Relation) (row : List Value) : Option (List Value) :=
  if row.length = T.header.columns.length then
    (T.header.columns.zip row).mapM (Q.storeValue T.header.strict)
  else none

def isIndexNamed (name : String) : String × Attached → Bool
  | (_,.index name' _) => name' = name
  | _ => false

def declare (sql : String) (d : Contents) : Declaration → Option Contents
  | .table name strict columns fks => createTable d ⟨name,⟨sql,strict,columns⟩,fks,[]⟩
  | .index name table =>
    if d.attached.any (isIndexNamed name) || (lookup d.tables table).isNone then none
    else some {d with attached := d.attached ++ [(table,.index name (some sql))]}

def Sqlite.relabelTo (Q : Sqlite) (table : String) (header : Header) : Header :=
  {header with sql := Q.relabel table header.sql}

def recordsIn (attached : List (String × Attached)) : List (String × Record) :=
  attached.filterMap fun
    | (t,.record record) => some (t,record)
    | _ => none

def counterOf (name : String) (d : Contents) : Option Int :=
  (recordsIn d.attached).findSome? fun
    | (t,.counter last) => if t = name then some last else none
    | _ => none

def isCounterOf (name : String) : String × Attached → Bool
  | (t,.record (.counter _)) => t = name
  | _ => false

/-- The end of an insert into an AUTOINCREMENT table. -/
def Sqlite.recorded (Q : Sqlite) (name : String) (d : Contents) : Contents :=
  match lookup d.tables name with
  | none => d
  | some T =>
    match Q.counter T.header (counterOf name d) T.rows with
    | none => d
    | some last => {d with
        attached := (d.attached.filter fun a => !isCounterOf name a) ++
          [(name,.record (.counter last))]}

def hasTrigger (d : Contents) (name : String) : Bool :=
  d.attached.any fun a => a.1 = name && a.2.isTrigger

/-- The actions of foreign keys reach a row of a table with triggers. -/
def Sqlite.fires (Q : Sqlite) (table : String) (d : Contents) : Bool :=
  d.enforced && d.tables.any fun X => hasTrigger d X.name && X.foreignKeys.any fun fk =>
    fk.onDelete.acts && X.rows.any fun row =>
      meets (Q.keys d) d.tables (lostWith (Q.keys d) d.tables table) fk row

/-- The dropped table's own triggers do not run, those of child tables do. -/
def Sqlite.drop (Q : Sqlite) (table : String) (d : Contents) : Option Contents :=
  if Q.fires table d then Q.fired table d else Relational.dropTable (Q.keys d) table d

def Sqlite.apply (Q : Sqlite) (d : Contents) : Stmt → Option Contents
  | .create sql => (Q.read sql).bind (declare sql d)
  | .insertSelect into source => do
    let into ← unquote into
    let source ← unquote source
    let d' ← insertSelect Q.store into source d
    some (Q.recorded into d')
  | .dropTable table => do
    let table ← unquote table
    Q.drop table d
  | .renameTable table newName => do
    let table ← unquote table
    let newName ← unquote newName
    Relational.renameTable (Q.relabelTo newName) table newName d

def tableSqls (table : String) (d : Contents) : List (Option String) :=
  (d.tables.filter fun T => T.name = table).map fun T => some T.header.sql

/-- `WHERE type='index' AND tbl_name=? AND sql IS NOT NULL` -/
def indexSqls (table : String) (d : Contents) : List String :=
  d.attached.filterMap fun
    | (t,.index _ (some sql)) => if t = table then some sql else none
    | _ => none

def Sqlite.answer {α : Type} (Q : Sqlite) (d : Contents) (rows : α) : Except XqliteError α :=
  match Q.refuseQuery d with
  | some e => .error e
  | none => .ok rows

def Sqlite.engine (Q : Sqlite) : Engine Contents where
  run n s d :=
    match Q.refuse n s d with
    | some e => .error e
    | none =>
      match Q.apply d s with
      | none => .error (.sqliteFailure 1 none)
      | some d' => .ok d'
  refuseBegin := Q.refuseBegin
  refuseCommit := Q.refuseCommit
  alreadyOpen := .sqliteFailure 1 (some "cannot start a transaction within a transaction")
  notOpen := .sqliteFailure 1 (some "cannot commit - no transaction is active")
  tableInfo := Q.tableInfo
  violations := Q.violations
  tableSql table d := Q.answer d (tableSqls table d)
  indexSqls table d := Q.answer d (indexSqls table d)

def storageClass : Value → StorageClass
  | .null => .null
  | .integer _ => .integer
  | .real _ => .real
  | .text _ => .text
  | .blob _ => .blob

def violationsOf (d : Contents) (q : ViolationQuery) : List Violation :=
  match lookup d.tables q.table with
  | none => []
  | some T =>
    (T.rows.zipIdx 1).filterMap fun (row,rowid) => do
      let (_,v) ← (T.header.columns.zip row).find? fun cv => cv.1.name = q.column
      if q.allowed.contains (storageClass v) then none
      else some ⟨rowid,q.column,storageClass v,q.expected⟩

/-- An SQLite that reads the given texts, compares keys as they are, has no counters, and
refuses nothing for reasons of its own. -/
def Sqlite.reading (texts : List (String × Declaration)) : Sqlite where
  read sql := (texts.find? fun t => t.1 = sql).map Prod.snd
  same v w := v = w
  parentKey _ _ _ := true
  counter _ _ _ := none
  fired _ _ := none
  affinity _ v := v
  relabel _ sql := sql
  refuse _ _ _ := none
  refuseBegin _ := none
  refuseCommit _ := none
  refuseQuery _ := none
  tableInfo table d := .ok <|
    match lookup d.tables table with
    | none => []
    | some T => T.header.columns.map fun c => (c.name,some c.type)
  violations queries d := .ok (queries.flatMap (violationsOf d))

def noPcre : Pcre := ⟨fun _ _ _ => none⟩

def users (ids : List Int) : Relation :=
  ⟨"users",⟨"CREATE TABLE users(id INTEGER PRIMARY KEY)",false,[⟨"id","INTEGER"⟩]⟩,[],
    ids.map fun n => [.integer n]⟩

def onlyUsers (ids : List Int) : Contents := ⟨[users ids],[],true⟩

/-- The checks in front of the rebuild stop the call without touching anything; once the
rebuild is entered, a failure rolls back whatever transaction is open. -/
theorem enable_strict_table_error_restores_iff {Db : Type} (R : Pcre) (E : Engine Db)
    (c : Session Db) (table : String) (e : StrictError) (h : (enableStrictTable R E c table).2 = .error e) :
    (enableStrictTable R E c table).1 = c ↔
      c.saved = none ∨ prechecks E table c.db = .error e := by
  cases hp : prechecks E table c.db with
  | crash => simp [enableStrictTable,hp] at h
  | error e' =>
    simp only [enableStrictTable,hp,Outcome.error.injEq] at h
    simp [enableStrictTable,hp,h]
  | ok original =>
    simp only [enableStrictTable,hp] at h ⊢
    cases hs : c.saved with
    | none => simp [rebuildAsStrict_error_restores R E hs h]
    | some old => simp [rebuildAsStrict_error_nested R E hs h,Session.ext_iff,hs]

/-- A rebuild whose CREATE statement is refused, outside a transaction. -/
theorem enable_strict_table_error_restores_autocommit :
    (enableStrictTable noPcre (Sqlite.reading []).engine ⟨onlyUsers [1],none⟩ "users").2 =
        .error (.sqlite (.sqliteFailure 1 none)) ∧
      (enableStrictTable noPcre (Sqlite.reading []).engine ⟨onlyUsers [1],none⟩ "users").1 =
        ⟨onlyUsers [1],none⟩ :=
  ⟨rfl,(enable_strict_table_error_restores_iff noPcre _ _ _ _ rfl).mpr (.inl rfl)⟩

/-- The caller has inserted the row 2 in a transaction of its own: BEGIN fails, and the
ROLLBACK that follows ends that transaction and takes the row with it. -/
theorem enable_strict_table_discards_transaction :
    (enableStrictTable noPcre (Sqlite.reading []).engine
          ⟨onlyUsers [1,2],some (onlyUsers [1])⟩ "users").2 =
        .error (.sqlite (.sqliteFailure 1
          (some "cannot start a transaction within a transaction"))) ∧
      (enableStrictTable noPcre (Sqlite.reading []).engine
          ⟨onlyUsers [1,2],some (onlyUsers [1])⟩ "users").1 = ⟨onlyUsers [1],none⟩ ∧
      (⟨onlyUsers [1],none⟩ : Session Contents) ≠ ⟨onlyUsers [1,2],some (onlyUsers [1])⟩ :=
  ⟨rfl,rfl,by decide⟩

end Xqlite.Strict

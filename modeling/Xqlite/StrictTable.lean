import Xqlite.Lib.Logged
import Xqlite.Lib.Transaction
import Xqlite.Terms
set_option autoImplicit false

/-! `enable_strict_table`: the checks it makes first, the text it derives from the
stored CREATE statement, and the rebuild in a transaction of its own. SQLite is a
parameter: what it answers to each query, and what each statement does. -/

namespace Xqlite.Strict
open Transaction

inductive StorageClass where
  | null | integer | real | text | blob
  deriving DecidableEq, Repr

inductive StrictType where
  | integer | real | text | blob | any
  deriving DecidableEq, Repr

/-- None of the five words has a letter that another Unicode letter downcases to,
so downcasing ASCII is enough. -/
def parseColumnType : Option String → StrictType
  | none => .any
  | some type =>
    match String.ofList (type.toList.map Char.toLower) with
    | "integer" => .integer
    | "int" => .integer
    | "real" => .real
    | "text" => .text
    | "blob" => .blob
    | _ => .any

def strictAllowedTypes : StrictType → List StorageClass
  | .integer => [.integer,.null]
  | .real => [.real,.integer,.null]
  | .text => [.text,.integer,.real,.null]
  | .blob => [.blob,.null]
  | .any => [.integer,.real,.text,.blob,.null]

/-- `SELECT rowid, 'column' AS col, typeof("column") AS actual_type, 'EXPECTED' AS
expected_type FROM "table" WHERE typeof("column") NOT IN (allowed)` -/
structure ViolationQuery where
  table : String
  column : String
  expected : StrictType
  allowed : List StorageClass
  deriving DecidableEq, Repr

structure Violation where
  rowid : Int
  column : String
  actualType : StorageClass
  expectedType : StrictType
  deriving DecidableEq, Repr

/-- The statements of the rebuild besides BEGIN, COMMIT and ROLLBACK. A table stands
in double quotes in the text, exactly as the caller spelled it. `create` is a text
derived from the schema table, of the table or of one of its indexes. -/
inductive Stmt where
  | create (sql : String)
  | insertSelect (into source : String)
  | dropTable (table : String)
  | renameTable (table newName : String)
  deriving DecidableEq, Repr

/-- What SQLite answers. `tableInfo` gives the name and type columns of
`PRAGMA table_info("table")`; `violations` runs the queries joined by UNION ALL;
`tableSql` and `indexSqls` read the schema table. Queries change nothing. -/
structure Engine (Db : Type) extends Store Db Stmt XqliteError where
  tableInfo : String → Db → Except XqliteError (List (String × Option String))
  violations : List ViolationQuery → Db → Except XqliteError (List Violation)
  tableSql : String → Db → Except XqliteError (List (Option String))
  indexSqls : String → Db → Except XqliteError (List String)

inductive StrictError where
  | strictViolations (violations : List Violation)
  | noSuchTable (table : String)
  | sqlite (e : XqliteError)

section Checks

variable {Db : Type} (E : Engine Db) (table : String) (db : Db)

def getTypedColumns : Except StrictError (List (String × StrictType)) :=
  match E.tableInfo table db with
  | .error e => .error (.sqlite e)
  | .ok [] => .error (.noSuchTable table)
  | .ok rows =>
    .ok ((rows.map fun (name,type) => (name,parseColumnType type)).filter fun c => c.2 ≠ .any)

def violationQuery (column : String × StrictType) : ViolationQuery :=
  ⟨table,column.1,column.2,strictAllowedTypes column.2⟩

def checkStrictViolations : Except StrictError (List Violation) :=
  match getTypedColumns E table db with
  | .error e => .error e
  | .ok columns =>
    match columns.map (violationQuery table) with
    | [] => .ok []
    | queries =>
      match E.violations queries db with
      | .error e => .error (.sqlite e)
      | .ok violations => .ok violations

def rejectViolations : List Violation → Except StrictError Unit
  | [] => .ok ()
  | violations => .error (.strictViolations violations)

/-- Two rows under one name match no clause of the `case`. -/
def tableCreateSql : Outcome StrictError (Option String) :=
  match E.tableSql table db with
  | .ok [createSql] => .ok createSql
  | .ok [] => .error (.noSuchTable table)
  | .ok _ => .crash
  | .error e => .error (.sqlite e)

/-- The `with` chain in front of the rebuild. -/
def prechecks : Outcome StrictError (Option String) :=
  match checkStrictViolations E table db with
  | .error e => .error e
  | .ok violations =>
    match rejectViolations violations with
    | .error e => .error e
    | .ok _ => tableCreateSql E table db

theorem prechecks_ok {original : Option String} (h : prechecks E table db = .ok original) :
    E.tableSql table db = .ok [original] := by
  unfold prechecks at h
  cases hc : checkStrictViolations E table db with
  | error e => simp [hc] at h
  | ok violations =>
    cases hr : rejectViolations violations with
    | error e => simp [hc,hr] at h
    | ok u =>
      simp only [hc,hr,tableCreateSql] at h
      split at h
      · simp_all
      · cases h
      · cases h
      · cases h

end Checks

/-! The rewriting of the stored text. Both patterns are compiled without flags: the
subject is bytes, and the tables for them are those of ISO Latin-1. No character beyond
ASCII begins with a blank byte, so blanks are the ASCII ones. -/

def isBlank (c : Char) : Bool :=
  c == ' ' || c == '\t' || c == '\n' || c == '\r' || c == '\x0b' || c == '\x0c'

def isWordByte (b : Nat) : Bool :=
  (48 ≤ b && b ≤ 57) || (65 ≤ b && b ≤ 90) || b == 95 || (97 ≤ b && b ≤ 122) || b == 0xAA ||
    b == 0xB5 || b == 0xBA || (0xC0 ≤ b && b != 0xD7 && b != 0xF7)

def firstByte (c : Char) : Nat :=
  let n := c.toNat
  if n < 0x80 then n
  else if n < 0x800 then 0xC0 + n / 0x40
  else if n < 0x10000 then 0xE0 + n / 0x1000
  else 0xF0 + n / 0x40000

def lastByte (c : Char) : Nat := if c.toNat < 0x80 then c.toNat else 0x80 + c.toNat % 0x40

/-- What `\s*(STRICT)?\s*$` takes to the end of the text. -/
def isStrictTail (text : List Char) : Bool :=
  let text := text.dropWhile isBlank
  let rest := if "STRICT".toList.isPrefixOf text then text.drop 6 else text
  rest.all isBlank

/-- `String.replace(~r/\)\s*(STRICT)?\s*$/, ") STRICT")` -/
def addStrict : List Char → List Char
  | [] => []
  | c :: text =>
    if c = ')' ∧ isStrictTail text then ") STRICT".toList else c :: addStrict text

theorem isStrictTail_no_paren {text : List Char} (h : isStrictTail text = true) :
    ')' ∉ text := by
  have hblank : ∀ {cs : List Char}, cs.all isBlank = true → ')' ∉ cs := by
    intro cs hcs hmem
    have := List.all_eq_true.mp hcs ')' hmem
    exact absurd this (by decide)
  have hsplit : text.takeWhile isBlank ++ text.dropWhile isBlank = text :=
    List.takeWhile_append_dropWhile
  rw [← hsplit,List.mem_append]
  have htake : ')' ∉ text.takeWhile isBlank := hblank List.all_takeWhile
  unfold isStrictTail at h
  by_cases hp : "STRICT".toList.isPrefixOf (text.dropWhile isBlank)
  · obtain ⟨rest,hrest⟩ := List.isPrefixOf_iff_prefix.mp hp
    simp only [← hrest] at h ⊢
    have hr : ')' ∉ rest := hblank (by simpa using h)
    rintro (hm | hm)
    · exact htake hm
    · rcases List.mem_append.mp hm with hs | hr'
      · exact absurd hs (by decide)
      · exact hr hr'
  · simp only [hp,Bool.false_eq_true,if_false] at h
    rintro (hm | hm)
    · exact htake hm
    · exact hblank h hm

theorem addStrict_no_paren {text : List Char} (h : ')' ∉ text) : addStrict text = text := by
  induction text with
  | nil => rfl
  | cons c text ih =>
    simp only [List.mem_cons,not_or] at h
    simp [addStrict,Ne.symm h.1,ih h.2]

/-- The option is added when nothing but blanks, or an upper-case STRICT, follows the
last parenthesis. Any other table option keeps the text as it is. -/
theorem addStrict_last_paren (head : List Char) {tail : List Char} (h : ')' ∉ tail) :
    addStrict (head ++ ')' :: tail) =
      head ++ if isStrictTail tail then ") STRICT".toList else ')' :: tail := by
  induction head with
  | nil =>
    by_cases ht : isStrictTail tail
    · simp [addStrict,ht]
    · simp [addStrict,ht,addStrict_no_paren h]
  | cons c head ih =>
    have hno : isStrictTail (head ++ ')' :: tail) ≠ true := by
      intro hs
      exact isStrictTail_no_paren hs (by simp)
    rw [List.cons_append,addStrict,if_neg (fun hc => hno hc.2),ih]
    rfl

/-- `\b` between two neighbours, either of which may be missing. -/
def boundary (before after : Option Char) : Bool :=
  before.any (fun c => isWordByte (lastByte c)) != after.any (fun c => isWordByte (firstByte c))

/-- A literal with `\b` behind it: its last character and what follows the match. -/
def afterLiteral (literal text : List Char) : Option (Option Char × List Char) :=
  let rest := text.drop literal.length
  if literal.isPrefixOf text && boundary literal.getLast? rest.head? then
    some (literal.getLast?,rest)
  else none

def afterName (name text : List Char) : Option (Option Char × List Char) :=
  (afterLiteral ('"' :: name ++ ['"']) text).or <|
    (afterLiteral ('\x60' :: name ++ ['\x60']) text).or (afterLiteral name text)

/-- `\s+` takes `blanks` characters, or gives some back until the name fits. -/
def afterBlanks (name text : List Char) : Nat → Option (Option Char × List Char)
  | 0 => none
  | blanks+1 => (afterName name (text.drop (blanks+1))).or (afterBlanks name text blanks)

def afterCreate (name : List Char) (before : Option Char) (text : List Char) :
    Option (Option Char × List Char) :=
  if boundary before text.head? && "CREATE TABLE".toList.isPrefixOf text then
    let rest := text.drop 12
    afterBlanks name rest (rest.takeWhile isBlank).length
  else none

/-- Every match from left to right; the first argument bounds the matches left. -/
def replaceCreate (name new : List Char) : Nat → Option Char → List Char → List Char
  | 0, _, text => text
  | _, _, [] => []
  | n+1, before, c :: text =>
    match afterCreate name before (c :: text) with
    | some (last,rest) => new ++ replaceCreate name new n last rest
    | none => c :: replaceCreate name new n (some c) text

/-- The name stands unescaped in the pattern and in the replacement. -/
def isLiteral (name : String) : Bool :=
  name.toList.all fun c => !("\\^$.[]|()?*+\x7b\x7d".toList.contains c)

/-- PCRE, for a name with a character that means something in a pattern: the text
after the replacement, or nothing when the pattern does not compile. -/
structure Pcre where
  replaceCreate : (name new text : String) → Option String

def tmpTable (table : String) : String := table ++ "_xqlite_strict_rebuild"

def renameCreate (R : Pcre) (table : String) (text : List Char) : Option String :=
  let new := "CREATE TABLE \"" ++ tmpTable table ++ "\""
  if isLiteral table then
    some (String.ofList (replaceCreate table.toList new.toList text.length none text))
  else R.replaceCreate table new (String.ofList text)

/-- A schema row without text raises, as does a pattern that does not compile. -/
def strictSql (R : Pcre) (table : String) : Option String → Option String
  | none => none
  | some original => renameCreate R table (addStrict original.toList)

example : strictSql ⟨fun _ _ _ => none⟩ "users" (some "CREATE TABLE users(id INTEGER)") =
    some "CREATE TABLE \"users_xqlite_strict_rebuild\"(id INTEGER) STRICT" := by decide

-- A quoted spelling is not renamed: no word boundary follows the closing quote.
example : strictSql ⟨fun _ _ _ => none⟩ "users" (some "CREATE TABLE \"users\" (id INTEGER)") =
    some "CREATE TABLE \"users\" (id INTEGER) STRICT" := by decide

def rebuildStatements (table sql : String) (indexSqls : List String) : List Stmt :=
  [.create sql,.insertSelect (tmpTable table) table,.dropTable table,
    .renameTable (tmpTable table) table] ++ indexSqls.map .create

section Rebuild

variable {Db : Type} (R : Pcre) (E : Engine Db)

/-- The `else` branch rolls back whichever step failed, the index query included. -/
def rebuildAsStrict (c : Session Db) (table : String) (original : Option String) :
    Session Db × Outcome StrictError Unit :=
  match strictSql R table original with
  | none => (c,.crash)
  | some sql =>
    match E.indexSqls table c.db with
    | .error e => (rollback c,.error (.sqlite e))
    | .ok indexSqls =>
      match transact E.toStore (rebuildStatements table sql indexSqls) c with
      | (c',none) => (c',.ok ())
      | (c',some e) => (c',.error (.sqlite e))

theorem rebuildAsStrict_cases (c : Session Db) (table : String) (original : Option String) :
    rebuildAsStrict R E c table original = (c,.crash) ∨
      (∃ e, rebuildAsStrict R E c table original = (rollback c,.error e)) ∨
      ∃ sql indexSqls, strictSql R table original = some sql ∧
        E.indexSqls table c.db = .ok indexSqls ∧
        ((∃ c', transact E.toStore (rebuildStatements table sql indexSqls) c = (c',none) ∧
            rebuildAsStrict R E c table original = (c',.ok ())) ∨
          ∃ c' e, transact E.toStore (rebuildStatements table sql indexSqls) c = (c',some e) ∧
            rebuildAsStrict R E c table original = (c',.error (.sqlite e))) := by
  unfold rebuildAsStrict
  cases hsql : strictSql R table original with
  | none => exact .inl rfl
  | some sql =>
    cases hix : E.indexSqls table c.db with
    | error e => exact .inr (.inl ⟨_,rfl⟩)
    | ok indexSqls =>
      refine .inr (.inr ⟨sql,indexSqls,rfl,rfl,?_⟩)
      cases ht : transact E.toStore (rebuildStatements table sql indexSqls) c with
      | mk c' refused =>
        cases refused with
        | none => exact .inl ⟨c',rfl,by simp [ht]⟩
        | some e => exact .inr ⟨c',e,rfl,by simp [ht]⟩

theorem rebuildAsStrict_error_restores {c : Session Db} {table : String}
    {original : Option String} {e : StrictError} (hs : c.saved = none)
    (h : (rebuildAsStrict R E c table original).2 = .error e) :
    (rebuildAsStrict R E c table original).1 = c := by
  rcases rebuildAsStrict_cases R E c table original with
    hr | ⟨e',hr⟩ | ⟨sql,indexSqls,_,_,⟨c',_,hr⟩ | ⟨c',e',ht,hr⟩⟩
  · rw [hr]
  · simp [hr,rollback,hs]
  · rw [hr] at h
    cases h
  · have hc := transact_refused E.toStore hs (by rw [ht] : _ = some e')
    rw [hr]
    rwa [ht] at hc

theorem rebuildAsStrict_error_nested {c : Session Db} {table : String}
    {original : Option String} {e : StrictError} {old : Db} (hs : c.saved = some old)
    (h : (rebuildAsStrict R E c table original).2 = .error e) :
    (rebuildAsStrict R E c table original).1 = ⟨old,none⟩ := by
  rcases rebuildAsStrict_cases R E c table original with
    hr | ⟨e',hr⟩ | ⟨sql,indexSqls,_,_,⟨c',ht,_⟩ | ⟨c',e',ht,hr⟩⟩
  · rw [hr] at h
    cases h
  · simp [hr,rollback,hs]
  · rw [transact_nested E.toStore hs] at ht
    cases ht
  · rw [transact_nested E.toStore hs] at ht
    cases ht
    rw [hr]

theorem rebuildAsStrict_ok {c : Session Db} {table : String} {original : Option String}
    (h : (rebuildAsStrict R E c table original).2 = .ok ()) :
    ∃ sql indexSqls db, strictSql R table original = some sql ∧
      E.indexSqls table c.db = .ok indexSqls ∧
      runAll E.toStore 1 (rebuildStatements table sql indexSqls) c.db = .ok db ∧
      (rebuildAsStrict R E c table original).1 = ⟨db,none⟩ := by
  rcases rebuildAsStrict_cases R E c table original with
    hr | ⟨e,hr⟩ | ⟨sql,indexSqls,hsql,hix,⟨c',ht,hr⟩ | ⟨c',e,_,hr⟩⟩
  · rw [hr] at h
    cases h
  · rw [hr] at h
    cases h
  · obtain ⟨_,db,hrun,hc⟩ := transact_done E.toStore (by rw [ht] : _ = none)
    rw [ht] at hc
    exact ⟨sql,indexSqls,db,hsql,hix,hrun,by rw [hr]; exact hc⟩
  · rw [hr] at h
    cases h

def enableStrictTable (c : Session Db) (table : String) :
    Session Db × Outcome StrictError Unit :=
  match prechecks E table c.db with
  | .error e => (c,.error e)
  | .crash => (c,.crash)
  | .ok original => rebuildAsStrict R E c table original

end Rebuild

end Xqlite.Strict

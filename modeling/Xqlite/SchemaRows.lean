import Mathlib.Data.List.Nodup
import Xqlite.DefaultValue
import Xqlite.Lib.FirstError
import Xqlite.TypeAffinity
set_option autoImplicit false

namespace Xqlite.Schema
open FirstError Constraint Affinity
open Classify (SqliteError)
open Default (DefaultValue classifyDefault)

/-- A cell of a row; SQLite's names and texts are valid UTF-8. -/
inductive Cell where
  | null
  | integer (n : Int)
  | real (bits : UInt64)
  | text (s : Text)
  | blob (bytes : List UInt8)
  deriving DecidableEq, Repr

def Cell.type : Cell → StorageClass
  | .null => .null
  | .integer _ => .integer
  | .real _ => .real
  | .text _ => .text
  | .blob _ => .blob

inductive SchemaError where
  | rusqlite (e : SqliteError)
  | schemaParsingError (context unexpectedValue : Text)
  deriving DecidableEq, Repr

/-- `row.get(i)`; `read` is the `FromSql` of the type asked for. -/
def get {α : Type} (read : Cell → Option α) (columns : List String) (row : List Cell) (i : Nat) :
    Except SqliteError α :=
  match columns[i]?, row[i]? with
  | some name, some cell =>
    match read cell with
    | some a => .ok a
    | none => .error (.invalidColumnType i name.toList cell.type)
  | _, _ => .error (.invalidColumnIndex i)

def readI64 : Cell → Option Int
  | .integer n => some n
  | _ => none

def readString : Cell → Option Text
  | .text s => some s
  | _ => none

def readOptionString : Cell → Option (Option Text)
  | .null => some none
  | .text s => some (some s)
  | _ => none

def parsing {α : Type} (context : Text) (value : Except Text α) : Except SchemaError α :=
  value.mapError (.schemaParsingError context)

def finalTurn {τ α : Type} (parse : τ → Except SchemaError α) :
    Except SqliteError τ → Except SchemaError α
  | .ok data => parse data
  | .error e => .error (.rusqlite e)

def finalLoop {τ α : Type} (parse : τ → Except SchemaError α)
    (tempResults : List (Except SqliteError τ)) : Except SchemaError (List α) :=
  collect (finalTurn parse) tempResults

theorem finalLoop_iff {σ τ α : Type} {parse : τ → Except SchemaError α}
    {read : List Cell → Except SqliteError τ} {cells : σ → List Cell} {Describes : σ → α → Prop}
    {specs : List σ}
    (h : ∀ s ∈ specs, ∀ a, finalTurn parse (read (cells s)) = .ok a → Describes s a) :
    (∃ out, finalLoop parse ((specs.map cells).map read) = .ok out ∧
      List.Forall₂ Describes specs out) ↔
    ∀ s ∈ specs, ∃ a, finalTurn parse (read (cells s)) = .ok a := by
  rw [finalLoop,List.map_map]
  exact collect_map_iff h

section ForeignKeys

inductive FkAction where
  | noAction | restrict | setNull | setDefault | cascade
  deriving DecidableEq, Repr

inductive FkMatch where
  | none | simple | partially | full
  deriving DecidableEq, Repr

def fkActionToAtom (s : Text) : Except Text FkAction :=
  if s = "NO ACTION".toList then .ok .noAction
  else if s = "RESTRICT".toList then .ok .restrict
  else if s = "SET NULL".toList then .ok .setNull
  else if s = "SET DEFAULT".toList then .ok .setDefault
  else if s = "CASCADE".toList then .ok .cascade
  else .error s

def fkMatchToAtom (s : Text) : Except Text FkMatch :=
  if s = "NONE".toList then .ok .none
  else if s = "SIMPLE".toList then .ok .simple
  else if s = "PARTIAL".toList then .ok .partially
  else if s = "FULL".toList then .ok .full
  else .error s

structure TempForeignKeyData where
  id : Int
  seq : Int
  table : Text
  fromColumn : Text
  toColumn : Text
  onUpdateStr : Text
  onDeleteStr : Text
  matchStr : Text

structure ForeignKeyInfo where
  id : Int
  columnSequence : Int
  targetTable : Text
  fromColumn : Text
  toColumn : Text
  onUpdate : FkAction
  onDelete : FkAction
  matchClause : FkMatch
  deriving DecidableEq, Repr

def foreignKeyListColumns : List String :=
  ["id","seq","table","from","to","on_update","on_delete","match"]

def readForeignKey (row : List Cell) : Except SqliteError TempForeignKeyData := do
  let id ← get readI64 foreignKeyListColumns row 0
  let seq ← get readI64 foreignKeyListColumns row 1
  let table ← get readString foreignKeyListColumns row 2
  let fromColumn ← get readString foreignKeyListColumns row 3
  let toColumn ← get readString foreignKeyListColumns row 4
  let onUpdateStr ← get readString foreignKeyListColumns row 5
  let onDeleteStr ← get readString foreignKeyListColumns row 6
  let matchStr ← get readString foreignKeyListColumns row 7
  pure ⟨id,seq,table,fromColumn,toColumn,onUpdateStr,onDeleteStr,matchStr⟩

def fkContext (field : String) (id : Int) (tableName : Text) : Text :=
  ("Parsing " ++ field ++ " for FK id " ++ toString id ++ " on table '").toList ++ tableName ++
    ['\'']

def parseForeignKey (tableName : Text) (data : TempForeignKeyData) :
    Except SchemaError ForeignKeyInfo := do
  let onUpdate ← parsing (fkContext "'on_update' action" data.id tableName)
    (fkActionToAtom data.onUpdateStr)
  let onDelete ← parsing (fkContext "'on_delete' action" data.id tableName)
    (fkActionToAtom data.onDeleteStr)
  let matchClause ← parsing (fkContext "'match' clause" data.id tableName)
    (fkMatchToAtom data.matchStr)
  pure ⟨data.id,data.seq,data.table,data.fromColumn,data.toColumn,onUpdate,onDelete,matchClause⟩

def foreignKeys (tableName : Text) (rows : List (List Cell)) :
    Except SchemaError (List ForeignKeyInfo) :=
  finalLoop (parseForeignKey tableName) (rows.map readForeignKey)

def FkAction.text : FkAction → Text
  | .noAction => "NO ACTION".toList
  | .restrict => "RESTRICT".toList
  | .setNull => "SET NULL".toList
  | .setDefault => "SET DEFAULT".toList
  | .cascade => "CASCADE".toList

def FkMatch.text : FkMatch → Text
  | .none => "NONE".toList
  | .simple => "SIMPLE".toList
  | .partially => "PARTIAL".toList
  | .full => "FULL".toList

/-- A foreign key of a table: its columns, each with the parent column it names, if it
names one. -/
structure ForeignKey where
  target : Text
  columns : List (Text × Option Text)
  onUpdate : FkAction
  onDelete : FkAction
  matchClause : FkMatch

structure FkRow where
  id : Int
  seq : Int
  table : Text
  fromColumn : Text
  toColumn : Option Text
  onUpdate : FkAction
  onDelete : FkAction
  matchClause : FkMatch

def foreignKeyList (fks : List ForeignKey) : List FkRow :=
  fks.zipIdx.flatMap fun (fk,i) => fk.columns.zipIdx.map fun (column,j) =>
    ⟨i,j,fk.target,column.1,column.2,fk.onUpdate,fk.onDelete,fk.matchClause⟩

def textOrNull : Option Text → Cell
  | none => .null
  | some s => .text s

def FkRow.cells (row : FkRow) : List Cell :=
  [.integer row.id,.integer row.seq,.text row.table,.text row.fromColumn,textOrNull row.toColumn,
    .text row.onUpdate.text,.text row.onDelete.text,.text row.matchClause.text]

def ForeignKeyInfo.row (info : ForeignKeyInfo) : FkRow :=
  ⟨info.id,info.columnSequence,info.targetTable,info.fromColumn,some info.toColumn,info.onUpdate,
    info.onDelete,info.matchClause⟩

theorem fkActionToAtom_text (action : FkAction) : fkActionToAtom action.text = .ok action := by
  cases action <;> decide

theorem fkMatchToAtom_text (clause : FkMatch) : fkMatchToAtom clause.text = .ok clause := by
  cases clause <;> decide

theorem readForeignKey_cells (row : FkRow) :
    readForeignKey row.cells =
      match row.toColumn with
      | none => .error (.invalidColumnType 4 "to".toList .null)
      | some toColumn => .ok ⟨row.id,row.seq,row.table,row.fromColumn,toColumn,row.onUpdate.text,
          row.onDelete.text,row.matchClause.text⟩ := by
  cases hto : row.toColumn <;>
    simp [readForeignKey,FkRow.cells,get,foreignKeyListColumns,readI64,readString,textOrNull,hto,
      Cell.type,bind,Except.bind,pure,Except.pure]

def fkTurn (tableName : Text) (row : FkRow) : Except SchemaError ForeignKeyInfo :=
  finalTurn (parseForeignKey tableName) (readForeignKey row.cells)

theorem fkTurn_eq (tableName : Text) (row : FkRow) :
    fkTurn tableName row =
      match row.toColumn with
      | none => .error (.rusqlite (.invalidColumnType 4 "to".toList .null))
      | some toColumn => .ok ⟨row.id,row.seq,row.table,row.fromColumn,toColumn,row.onUpdate,
          row.onDelete,row.matchClause⟩ := by
  rw [fkTurn,readForeignKey_cells]
  cases row.toColumn with
  | none => rfl
  | some toColumn =>
    simp only [finalTurn,parseForeignKey,fkActionToAtom_text,fkMatchToAtom_text]
    rfl

theorem fkTurn_ok_iff (tableName : Text) (row : FkRow) :
    (∃ info, fkTurn tableName row = .ok info) ↔ row.toColumn.isSome = true := by
  rw [fkTurn_eq]
  cases row.toColumn <;> simp

theorem fkTurn_row {tableName : Text} {row : FkRow} {info : ForeignKeyInfo}
    (h : fkTurn tableName row = .ok info) : info.row = row := by
  obtain ⟨id,seq,table,fromColumn,toColumn,onUpdate,onDelete,matchClause⟩ := row
  rw [fkTurn_eq] at h
  cases toColumn with
  | none => cases h
  | some toColumn =>
    cases h
    rfl

theorem forall_foreignKeyList {fks : List ForeignKey} :
    (∀ row ∈ foreignKeyList fks, row.toColumn.isSome = true) ↔
      ∀ fk ∈ fks, ∀ column ∈ fk.columns, column.2.isSome = true := by
  constructor
  · intro h fk hfk column hcolumn
    obtain ⟨i,hi⟩ := List.mem_iff_getElem?.mp hfk
    obtain ⟨j,hj⟩ := List.mem_iff_getElem?.mp hcolumn
    exact h ⟨i,j,fk.target,column.1,column.2,fk.onUpdate,fk.onDelete,fk.matchClause⟩
      (List.mem_flatMap.mpr ⟨(fk,i),List.mem_zipIdx_iff_getElem?.mpr hi,
        List.mem_map.mpr ⟨(column,j),List.mem_zipIdx_iff_getElem?.mpr hj,rfl⟩⟩)
  · intro h row hrow
    obtain ⟨⟨fk,i⟩,hi,hrow⟩ := List.mem_flatMap.mp hrow
    obtain ⟨⟨column,j⟩,hj,rfl⟩ := List.mem_map.mp hrow
    exact h fk (List.fst_mem_of_mem_zipIdx hi) column (List.fst_mem_of_mem_zipIdx hj)

/-- The call succeeds, with a struct for every row, exactly when every foreign key names its
parent columns. -/
theorem foreign_keys_iff (tableName : Text) (fks : List ForeignKey) :
    (∃ infos, foreignKeys tableName ((foreignKeyList fks).map FkRow.cells) = .ok infos ∧
      List.Forall₂ (fun row info => ForeignKeyInfo.row info = row) (foreignKeyList fks) infos) ↔
    ∀ fk ∈ fks, ∀ column ∈ fk.columns, column.2.isSome = true := by
  rw [← forall_foreignKeyList]
  have hrow : ∀ row ∈ foreignKeyList fks, ∀ info,
      finalTurn (parseForeignKey tableName) (readForeignKey (FkRow.cells row)) = .ok info →
      info.row = row := fun row _ info h => fkTurn_row h
  refine (finalLoop_iff hrow).trans ?_
  exact forall₂_congr (fun row _ => fkTurn_ok_iff tableName row)

/-- `x REFERENCES parent`, the column it means left to SQLite. -/
theorem foreign_keys_implicit_parent :
    foreignKeys "child".toList ((foreignKeyList
      [⟨"parent".toList,[("x".toList,none)],.noAction,.noAction,.none⟩]).map FkRow.cells) =
    .error (.rusqlite (.invalidColumnType 4 "to".toList .null)) := by
  decide

end ForeignKeys

section Columns

inductive HiddenKind where
  | normal | hiddenAlias | virtualGenerated | storedGenerated
  deriving DecidableEq, Repr

def hiddenIntToAtom (hidden : Int) : Except Text HiddenKind :=
  if hidden = 0 then .ok .normal
  else if hidden = 1 then .ok .hiddenAlias
  else if hidden = 2 then .ok .virtualGenerated
  else if hidden = 3 then .ok .storedGenerated
  else .error (toString hidden).toList

def notnullToNullable (notnullFlag : Int) : Except Text Bool :=
  if notnullFlag = 0 then .ok true
  else if notnullFlag = 1 then .ok false
  else .error (toString notnullFlag).toList

def pkValueToIndex (pkFlag : Int) : Except Text Nat :=
  if 0 ≤ pkFlag ∧ pkFlag ≤ 255 then .ok pkFlag.toNat else .error (toString pkFlag).toList

structure TempColumnData where
  cid : Int
  name : Text
  typeStr : Text
  notnullFlag : Int
  dfltValue : Option Text
  pkFlag : Int
  hidden : Int

structure ColumnInfo where
  columnId : Int
  name : Text
  typeAffinity : TypeAffinity
  declaredType : Text
  nullable : Bool
  defaultValue : DefaultValue
  primaryKeyIndex : Nat
  hiddenKind : HiddenKind
  deriving DecidableEq, Repr

def tableXinfoColumns : List String :=
  ["cid","name","type","notnull","dflt_value","pk","hidden"]

def readColumn (row : List Cell) : Except SqliteError TempColumnData := do
  let cid ← get readI64 tableXinfoColumns row 0
  let name ← get readString tableXinfoColumns row 1
  let typeStr ← get readString tableXinfoColumns row 2
  let notnullFlag ← get readI64 tableXinfoColumns row 3
  let dfltValue ← get readOptionString tableXinfoColumns row 4
  let pkFlag ← get readI64 tableXinfoColumns row 5
  let hidden ← get readI64 tableXinfoColumns row 6
  pure ⟨cid,name,typeStr,notnullFlag,dfltValue,pkFlag,hidden⟩

def columnContext (field : String) (name tableName : Text) : Text :=
  ("Parsing " ++ field ++ " for column '").toList ++ name ++ "' in table '".toList ++ tableName ++
    ['\'']

def parseColumn (U : UpperTable) (tableName : Text) (data : TempColumnData) :
    Except SchemaError ColumnInfo := do
  let nullable ← parsing (columnContext "'notnull' flag" data.name tableName)
    (notnullToNullable data.notnullFlag)
  let primaryKeyIndex ← parsing (columnContext "'pk' flag" data.name tableName)
    (pkValueToIndex data.pkFlag)
  let hiddenKind ← parsing (columnContext "'hidden' kind" data.name tableName)
    (hiddenIntToAtom data.hidden)
  pure ⟨data.cid,data.name,typeAffinityToAtom U data.typeStr,data.typeStr,nullable,
    classifyDefault data.dfltValue,primaryKeyIndex,hiddenKind⟩

def columns (U : UpperTable) (tableName : Text) (rows : List (List Cell)) :
    Except SchemaError (List ColumnInfo) :=
  finalLoop (parseColumn U tableName) (rows.map readColumn)

structure Column where
  name : Text
  declaredType : Text
  notNull : Bool
  defaultText : Option Text
  hidden : HiddenKind

/-- A table SQLite can create, with the positions of the columns of its PRIMARY KEY. Names
differ in more than ASCII case, and the key lists no column twice. -/
structure Table where
  columns : List Column
  primaryKey : List Nat
  limit : columns.length ≤ 2000
  named : (columns.map fun c => c.name.map Char.toLower).Nodup
  inside : ∀ i ∈ primaryKey, i < columns.length
  once : primaryKey.Nodup

def Table.pkPosition (t : Table) (i : Nat) : Nat :=
  if i ∈ t.primaryKey then t.primaryKey.idxOf i+1 else 0

def HiddenKind.number : HiddenKind → Int
  | .normal => 0
  | .hiddenAlias => 1
  | .virtualGenerated => 2
  | .storedGenerated => 3

def Table.cells (t : Table) (column : Column × Nat) : List Cell :=
  [.integer column.2,.text column.1.name,.text column.1.declaredType,
    .integer (if column.1.notNull then 1 else 0),textOrNull column.1.defaultText,
    .integer (t.pkPosition column.2),.integer column.1.hidden.number]

def Table.info (U : UpperTable) (t : Table) (column : Column × Nat) : ColumnInfo :=
  ⟨column.2,column.1.name,typeAffinityToAtom U column.1.declaredType,column.1.declaredType,
    !column.1.notNull,classifyDefault column.1.defaultText,t.pkPosition column.2,column.1.hidden⟩

theorem hiddenIntToAtom_number (kind : HiddenKind) : hiddenIntToAtom kind.number = .ok kind := by
  cases kind <;> rfl

theorem notnullToNullable_flag (notNull : Bool) :
    notnullToNullable (if notNull then 1 else 0) = .ok (!notNull) := by
  cases notNull <;> rfl

theorem pkValueToIndex_nat (n : Nat) :
    pkValueToIndex n = if n ≤ 255 then .ok n else .error (toString (n : Int)).toList := by
  unfold pkValueToIndex
  by_cases h : n ≤ 255
  · rw [if_pos (by omega),if_pos h,Int.toNat_natCast]
  · rw [if_neg (by omega),if_neg h]

theorem readColumn_cells (t : Table) (column : Column × Nat) :
    readColumn (t.cells column) =
      .ok ⟨column.2,column.1.name,column.1.declaredType,if column.1.notNull then 1 else 0,
        column.1.defaultText,t.pkPosition column.2,column.1.hidden.number⟩ := by
  cases hdefault : column.1.defaultText <;>
    simp [readColumn,Table.cells,get,tableXinfoColumns,readI64,readString,readOptionString,
      textOrNull,hdefault,bind,Except.bind,pure,Except.pure]

theorem columnTurn_eq (U : UpperTable) (tableName : Text) (t : Table) (column : Column × Nat) :
    finalTurn (parseColumn U tableName) (readColumn (t.cells column)) =
      if t.pkPosition column.2 ≤ 255 then .ok (t.info U column)
      else .error (.schemaParsingError (columnContext "'pk' flag" column.1.name tableName)
        (toString (t.pkPosition column.2 : Int)).toList) := by
  rw [readColumn_cells]
  simp only [finalTurn,parseColumn,notnullToNullable_flag,hiddenIntToAtom_number,
    pkValueToIndex_nat]
  split_ifs <;> rfl

theorem pkPosition_le_iff {t : Table} {n : Nat} :
    (∀ i < t.columns.length, t.pkPosition i ≤ n) ↔ t.primaryKey.length ≤ n := by
  constructor
  · intro h
    by_contra hgt
    have hn : n < t.primaryKey.length := by omega
    have hmem : t.primaryKey[n] ∈ t.primaryKey := List.getElem_mem hn
    have hle := h _ (t.inside _ hmem)
    rw [Table.pkPosition,if_pos hmem,t.once.idxOf_getElem n hn] at hle
    omega
  · intro h i _
    unfold Table.pkPosition
    split_ifs with hi
    · have hlt := List.idxOf_lt_length_of_mem hi
      omega
    · exact Nat.zero_le n

/-- The call succeeds, with a struct for every column, exactly when the primary key has at
most 255 columns. -/
theorem schema_columns_iff (U : UpperTable) (tableName : Text) (t : Table) :
    columns U tableName (t.columns.zipIdx.map t.cells) = .ok (t.columns.zipIdx.map (t.info U)) ↔
      t.primaryKey.length ≤ 255 := by
  rw [columns,finalLoop,List.map_map,collect_ok_iff,List.forall₂_map_left_iff,
    List.forall₂_map_right_iff,List.forall₂_same,← pkPosition_le_iff]
  constructor
  · intro h i hi
    have hcolumn : (t.columns[i],i) ∈ t.columns.zipIdx :=
      List.mem_zipIdx_iff_getElem?.mpr (List.getElem?_eq_getElem hi)
    have hturn := columnTurn_eq U tableName t (t.columns[i],i)
    rw [show finalTurn (parseColumn U tableName) (readColumn (t.cells (t.columns[i],i))) = _ from
      h _ hcolumn] at hturn
    by_contra hgt
    rw [if_neg hgt] at hturn
    cases hturn
  · intro h column hcolumn
    exact (columnTurn_eq U tableName t column).trans
      (if_pos (h column.2 (List.snd_lt_of_mem_zipIdx hcolumn)))

def wideName (i : Nat) : Text := ['c',(i/100).digitChar,(i/10%10).digitChar,(i%10).digitChar]

def wideColumn (i : Nat) : Column := ⟨wideName i,"INT".toList,true,none,.normal⟩

theorem digitChar_toLower_inj :
    ∀ a < 10, ∀ b < 10, a.digitChar.toLower = b.digitChar.toLower → a = b := by decide

theorem wideName_inj {i j : Nat} (hi : i < 1000) (hj : j < 1000)
    (h : (wideName i).map Char.toLower = (wideName j).map Char.toLower) : i = j := by
  simp only [wideName,List.map_cons,List.map_nil,List.cons.injEq,and_true,true_and] at h
  have hhundreds := digitChar_toLower_inj _ (by omega) _ (by omega) h.1
  have htens := digitChar_toLower_inj _ (by omega) _ (by omega) h.2.1
  have hones := digitChar_toLower_inj _ (by omega) _ (by omega) h.2.2
  omega

theorem wide_named {n : Nat} (h : n ≤ 1000) :
    (((List.range n).map wideColumn).map fun c => c.name.map Char.toLower).Nodup := by
  rw [List.map_map]
  refine List.Nodup.map_on ?_ List.nodup_range
  intro i hi j hj heq
  have hin := List.mem_range.mp hi
  have hjn := List.mem_range.mp hj
  exact wideName_inj (by omega) (by omega) heq

def wideTable (n : Nat) (h : n ≤ 1000) : Table where
  columns := (List.range n).map wideColumn
  primaryKey := List.range n
  limit := by
    rw [List.length_map,List.length_range]
    omega
  named := wide_named h
  inside := by
    intro i hi
    rw [List.length_map,List.length_range]
    exact List.mem_range.mp hi
  once := List.nodup_range

theorem wide_pkPosition {n i : Nat} {h : n ≤ 1000} (hi : i < n) :
    (wideTable n h).pkPosition i = i+1 := by
  have hlength : i < (List.range n).length := by rwa [List.length_range]
  have hplace := List.nodup_range.idxOf_getElem i hlength
  rw [List.getElem_range] at hplace
  rw [Table.pkPosition,wideTable,if_pos (List.mem_range.mpr hi),hplace]

/-- The columns `c000` to `c254` pass, the next one does not. -/
theorem schema_columns_wide :
    columns identityUpper "t".toList
        ((wideTable 256 (by omega)).columns.zipIdx.map (wideTable 256 (by omega)).cells) =
      .error (.schemaParsingError "Parsing 'pk' flag for column 'c255' in table 't'".toList
        "256".toList) := by
  have hturn := columnTurn_eq identityUpper "t".toList (wideTable 256 (by omega))
  have hsplit : (wideTable 256 (by omega)).columns.zipIdx =
      ((List.range 255).map wideColumn).zipIdx ++ [(wideColumn 255,255)] := by
    change ((List.range (255+1)).map wideColumn).zipIdx = _
    rw [List.range_succ,List.map_append,List.zipIdx_append,List.length_map,List.length_range]
    rfl
  rw [columns,finalLoop,List.map_map,hsplit,List.map_append]
  refine collect_error ?_ ?_
  · intro temp htemp
    obtain ⟨column,hcolumn,rfl⟩ := List.mem_map.mp htemp
    have hlt := List.snd_lt_of_mem_zipIdx hcolumn
    rw [List.length_map,List.length_range] at hlt
    have hposition : (wideTable 256 (by omega)).pkPosition column.2 ≤ 255 := by
      rw [wide_pkPosition (by omega)]
      omega
    exact ⟨_,(hturn column).trans (if_pos hposition)⟩
  · refine (hturn (wideColumn 255,255)).trans ?_
    rw [wide_pkPosition (by omega)]
    rfl

end Columns

end Xqlite.Schema

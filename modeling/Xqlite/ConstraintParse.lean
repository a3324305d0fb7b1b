import Xqlite.Lib.Split
set_option autoImplicit false

namespace Xqlite.Constraint
open Split

abbrev Text := List Char

inductive StorageClass where
  | null | integer | real | text | blob
  deriving DecidableEq, Repr

def parseStorageClass (s : Text) : Option StorageClass :=
  if s = "INT".toList ∨ s = "INTEGER".toList then some .integer
  else if s = "REAL".toList then some .real
  else if s = "TEXT".toList then some .text
  else if s = "BLOB".toList then some .blob
  else if s = "NULL".toList then some .null
  else none

structure ConstraintDetails where
  table : Option Text := none
  columns : List Text := []
  indexName : Option Text := none
  constraintName : Option Text := none
  sourceType : Option StorageClass := none
  targetType : Option StorageClass := none
  deriving DecidableEq, Repr

namespace Ffi

def constraintCheck : Int := 275
def constraintNotNull : Int := 1299
def constraintPrimaryKey : Int := 1555
def constraintUnique : Int := 2067
def constraintDatatype : Int := 3091

end Ffi

def separator : Text := ", ".toList

/-- One pass of the loop: the first qualified part names the table. -/
def tableColumn (acc : Option Text × List Text) (part : Text) : Option Text × List Text :=
  match part.dropInfix? ['.'] with
  | some (t,c) => (acc.1.or (some t),acc.2 ++ [c])
  | none => (acc.1,acc.2 ++ [part])

def parseTableColumns (rest : Text) : ConstraintDetails :=
  let (table,columns) := (split separator rest).foldl tableColumn (none,[])
  { table,columns }

def afterOpening (opening : Text) (read : Text → ConstraintDetails) (message : Text) :
    ConstraintDetails :=
  match message.dropPrefix? opening with
  | none => {}
  | some rest => read rest

def uniqueOpening : Text := "UNIQUE constraint failed: ".toList
def primaryKeyOpening : Text := "PRIMARY KEY constraint failed: ".toList
def notNullOpening : Text := "NOT NULL constraint failed: ".toList
def checkOpening : Text := "CHECK constraint failed: ".toList
def datatypeOpening : Text := "cannot store ".toList
def valueIn : Text := " value in ".toList
def column : Text := " column ".toList

/-- `index '…'` to the end of the message. -/
def indexNamed (rest : Text) : Option Text :=
  (rest.dropPrefix? "index '".toList).bind fun s => s.dropSuffix? ['\'']

def parseUnique : Text → ConstraintDetails :=
  afterOpening uniqueOpening fun rest =>
    match indexNamed rest with
    | some inner => { indexName := some inner }
    | none => parseTableColumns rest

def parsePrimaryKey : Text → ConstraintDetails := afterOpening primaryKeyOpening parseTableColumns

def parseNotNull : Text → ConstraintDetails := afterOpening notNullOpening parseTableColumns

def parseCheck : Text → ConstraintDetails :=
  afterOpening checkOpening fun rest => { constraintName := some rest }

def parseDatatype : Text → ConstraintDetails :=
  afterOpening datatypeOpening fun rest =>
    match rest.dropInfix? valueIn with
    | none => {}
    | some (src,rest) =>
      match rest.dropInfix? column with
      | none => {}
      | some (tgt,rest) =>
        let (table,columns) :=
          match rest.dropInfix? ['.'] with
          | some (t,c) => (some t,[c])
          | none => (none,[rest])
        { table,columns,sourceType := parseStorageClass src,targetType := parseStorageClass tgt }

/-- A primary key of a rowid table is reported in the words of a unique index. -/
def parseDetails (extendedCode : Int) (message : Text) : ConstraintDetails :=
  if extendedCode = Ffi.constraintUnique then parseUnique message
  else if extendedCode = Ffi.constraintPrimaryKey then
    let d := parsePrimaryKey message
    if d = {} then parseUnique message else d
  else if extendedCode = Ffi.constraintNotNull then parseNotNull message
  else if extendedCode = Ffi.constraintCheck then parseCheck message
  else if extendedCode = Ffi.constraintDatatype then parseDatatype message
  else {}

@[simp] theorem parseDetails_unique (message : Text) :
    parseDetails Ffi.constraintUnique message = parseUnique message := rfl

@[simp] theorem parseDetails_primaryKey (message : Text) :
    parseDetails Ffi.constraintPrimaryKey message =
      if parsePrimaryKey message = {} then parseUnique message else parsePrimaryKey message := rfl

@[simp] theorem parseDetails_notNull (message : Text) :
    parseDetails Ffi.constraintNotNull message = parseNotNull message := rfl

@[simp] theorem parseDetails_check (message : Text) :
    parseDetails Ffi.constraintCheck message = parseCheck message := rfl

@[simp] theorem parseDetails_datatype (message : Text) :
    parseDetails Ffi.constraintDatatype message = parseDatatype message := rfl

@[simp] theorem afterOpening_append (opening rest : Text) (read : Text → ConstraintDetails) :
    afterOpening opening read (opening ++ rest) = read rest := by
  simp only [afterOpening,dropPrefix_append]

theorem separator_ne_nil : separator ≠ [] := by decide

theorem separator_unbordered : Unbordered separator := by decide

def qualified (t c : Text) : Text := t ++ '.' :: c

theorem dropInfix_qualified {t : Text} (h : '.' ∉ t) (c : Text) :
    (qualified t c).dropInfix? ['.'] = some (t,c) := by
  have hfirst := dropInfix_head (i := ['.']) rfl h c
  rwa [List.append_assoc] at hfirst

/-- The point keeps the two names apart: a separator lies in one of them. -/
theorem separator_infix_qualified (t c : Text) :
    separator <:+: qualified t c ↔ separator <:+: t ∨ separator <:+: c :=
  infix_append_cons (by decide) t c

theorem foldl_tableColumn {t : Text} (h : '.' ∉ t) (columns done : List Text) :
    (columns.map (qualified t)).foldl tableColumn (some t,done) = (some t,done ++ columns) := by
  induction columns generalizing done with
  | nil => simp
  | cons c columns ih => simp [tableColumn,dropInfix_qualified h,ih]

def columnList (t : Text) (columns : List Text) : Text :=
  separator.intercalate (columns.map (qualified t))

theorem parseTableColumns_columnList {t : Text} {columns : List Text} (ht : '.' ∉ t)
    (hsep : ¬ separator <:+: t) (hne : columns ≠ []) (h : ∀ c ∈ columns, ¬ separator <:+: c) :
    parseTableColumns (columnList t columns) = { table := some t,columns } := by
  have hparts : split separator (columnList t columns) = columns.map (qualified t) := by
    refine split_intercalate separator_ne_nil separator_unbordered (by simpa using hne) ?_
    intro part hpart
    obtain ⟨c,hc,rfl⟩ := List.mem_map.mp hpart
    rw [separator_infix_qualified,not_or]
    exact ⟨hsep,h c hc⟩
  unfold parseTableColumns
  rw [hparts]
  cases columns with
  | nil => exact absurd rfl hne
  | cons c columns =>
    simp [tableColumn,dropInfix_qualified ht,foldl_tableColumn ht]

theorem length_parseTableColumns (rest : Text) :
    (parseTableColumns rest).columns.length = (split separator rest).length := by
  have hfold : ∀ (parts : List Text) (acc : Option Text × List Text),
      (parts.foldl tableColumn acc).2.length = acc.2.length + parts.length := by
    intro parts
    induction parts with
    | nil => simp
    | cons part parts ih =>
      intro acc
      have hstep : (tableColumn acc part).2.length = acc.2.length + 1 := by
        unfold tableColumn
        split <;> simp
      rw [List.foldl_cons,ih,hstep,List.length_cons]
      omega
  have hlen := hfold (split separator rest) (none,[])
  rwa [List.length_nil,Nat.zero_add] at hlen

theorem parsePrimaryKey_unique (rest : Text) : parsePrimaryKey (uniqueOpening ++ rest) = {} := rfl

theorem parseUnique_columnList {t : Text} {columns : List Text} (ht : '.' ∉ t)
    (hsep : ¬ separator <:+: t) (hne : columns ≠ []) (h : ∀ c ∈ columns, ¬ separator <:+: c)
    (hindex : indexNamed (columnList t columns) = none) :
    parseUnique (uniqueOpening ++ columnList t columns) = { table := some t,columns } := by
  simp only [parseUnique,afterOpening_append,hindex]
  exact parseTableColumns_columnList ht hsep hne h

theorem indexNamed_eq_none {rest : Text}
    (h : ¬ ("index '".toList <+: rest ∧ ['\''] <:+ rest)) : indexNamed rest = none := by
  rw [Option.eq_none_iff_forall_ne_some]
  intro inner hinner
  obtain ⟨s,hs,hend⟩ := Option.bind_eq_some_iff.mp hinner
  obtain rfl := dropPrefix_eq_some.mp hs
  obtain rfl := dropSuffix_eq_some.mp hend
  exact h ⟨⟨_,rfl⟩,⟨_,List.append_assoc _ _ _⟩⟩

theorem parseUnique_index (n : Text) :
    parseUnique (uniqueOpening ++ ("index '".toList ++ n ++ ['\''])) = { indexName := some n } := by
  simp only [parseUnique,afterOpening_append,indexNamed,List.append_assoc,dropPrefix_append,
    Option.bind_some,dropSuffix_append]

/-- The words SQLite has for storage classes and for the types of STRICT columns. -/
inductive StorageToken where
  | int | integer | real | text | blob | null
  deriving DecidableEq, Repr

def StorageToken.spelled : StorageToken → Text
  | .int => "INT".toList
  | .integer => "INTEGER".toList
  | .real => "REAL".toList
  | .text => "TEXT".toList
  | .blob => "BLOB".toList
  | .null => "NULL".toList

def StorageToken.storageClass : StorageToken → StorageClass
  | .int | .integer => .integer
  | .real => .real
  | .text => .text
  | .blob => .blob
  | .null => .null

theorem parseStorageClass_spelled (token : StorageToken) :
    parseStorageClass token.spelled = some token.storageClass := by
  cases token <;> decide

theorem StorageToken.no_space (token : StorageToken) : ' ' ∉ token.spelled := by
  cases token <;> decide

def datatypeMessage (src tgt : StorageToken) (t c : Text) : Text :=
  datatypeOpening ++ (src.spelled ++ valueIn ++ (tgt.spelled ++ column ++ qualified t c))

theorem parseDatatype_message (src tgt : StorageToken) {t : Text} (h : '.' ∉ t) (c : Text) :
    parseDatatype (datatypeMessage src tgt t c) =
      { table := some t,columns := [c],sourceType := some src.storageClass,
        targetType := some tgt.storageClass } := by
  have hsrc : ∀ rest, (src.spelled ++ valueIn ++ rest).dropInfix? valueIn =
      some (src.spelled,rest) := dropInfix_head (by decide) src.no_space
  have htgt : ∀ rest, (tgt.spelled ++ column ++ rest).dropInfix? column =
      some (tgt.spelled,rest) := dropInfix_head (by decide) tgt.no_space
  simp only [parseDatatype,datatypeMessage,afterOpening_append,hsrc,htgt,dropInfix_qualified h,
    parseStorageClass_spelled]

/-- What SQLite puts into a message comes back out of it. Only the words of a unique
index can be taken for something else: a list of columns that begins with `index '`
and ends with a quote reads as an index name. -/
theorem constraint_messages_parse_back :
    (∀ (t : Text) (columns : List Text), '.' ∉ t → ¬ separator <:+: t → columns ≠ [] →
      (∀ c ∈ columns, ¬ separator <:+: c) →
        parseDetails Ffi.constraintPrimaryKey (primaryKeyOpening ++ columnList t columns) =
          { table := some t,columns } ∧
        (¬ ("index '".toList <+: columnList t columns ∧ ['\''] <:+ columnList t columns) →
          parseDetails Ffi.constraintUnique (uniqueOpening ++ columnList t columns) =
            { table := some t,columns } ∧
          parseDetails Ffi.constraintPrimaryKey (uniqueOpening ++ columnList t columns) =
            { table := some t,columns })) ∧
    (∀ n : Text, ∀ code ∈ [Ffi.constraintUnique,Ffi.constraintPrimaryKey],
      parseDetails code (uniqueOpening ++ ("index '".toList ++ n ++ ['\''])) =
        { indexName := some n }) ∧
    (∀ x : Text, parseDetails Ffi.constraintCheck (checkOpening ++ x) =
      { constraintName := some x }) ∧
    (∀ (src tgt : StorageToken) (t c : Text), '.' ∉ t →
      parseDetails Ffi.constraintDatatype (datatypeMessage src tgt t c) =
        { table := some t,columns := [c],sourceType := some src.storageClass,
          targetType := some tgt.storageClass }) := by
  refine ⟨?_,?_,?_,?_⟩
  · intro t columns ht hsep hne h
    have hpk : parsePrimaryKey (primaryKeyOpening ++ columnList t columns) =
        { table := some t,columns } := by
      rw [parsePrimaryKey,afterOpening_append]
      exact parseTableColumns_columnList ht hsep hne h
    refine ⟨by simp [hpk],?_⟩
    intro hindex
    have hunique := parseUnique_columnList ht hsep hne h (indexNamed_eq_none hindex)
    exact ⟨hunique,by simp [parsePrimaryKey_unique,hunique]⟩
  · intro n code hcode
    have hunique := parseUnique_index n
    rcases List.mem_pair.mp hcode with rfl | rfl
    · exact hunique
    · rw [parseDetails_primaryKey,if_pos (parsePrimaryKey_unique _),hunique]
  · intro x
    simp [parseCheck]
  · intro src tgt t c ht
    exact parseDatatype_message src tgt ht c

/-- A composite key whose second column ends in a comma and has a point. -/
theorem constraint_messages_parse_back_composite :
    parseDetails Ffi.constraintUnique "UNIQUE constraint failed: t.a, t.b.c,".toList =
      { table := some ['t'],columns := ["a".toList,"b.c,".toList] } :=
  ((constraint_messages_parse_back.1 ['t'] ["a".toList,"b.c,".toList] (by decide) (by decide)
    (by decide) (by decide)).2 (by decide)).1

/-- A NOT NULL message is cut like a list of columns, so it gives its one column back
when neither name holds a separator. -/
theorem notNull_column_recovered_iff (t c : Text) (ht : '.' ∉ t) :
    parseDetails Ffi.constraintNotNull (notNullOpening ++ qualified t c) =
        { table := some t,columns := [c] } ↔
      ¬ separator <:+: t ∧ ¬ separator <:+: c := by
  rw [parseDetails_notNull,parseNotNull,afterOpening_append]
  constructor
  · intro h
    rw [← not_or,← separator_infix_qualified]
    intro hinfix
    -- Two or more parts give two or more columns.
    have hparts := one_lt_length_split separator_ne_nil hinfix
    rw [← length_parseTableColumns,h] at hparts
    exact absurd hparts (by simp)
  · rintro ⟨hsep,hc⟩
    have hone : parseTableColumns (columnList t [c]) = { table := some t,columns := [c] } :=
      parseTableColumns_columnList ht hsep (by simp) (by simpa using hc)
    simpa [columnList] using hone

theorem notNull_column_recovered_email :
    parseDetails Ffi.constraintNotNull "NOT NULL constraint failed: users.email".toList =
      { table := some "users".toList,columns := ["email".toList] } :=
  (notNull_column_recovered_iff "users".toList "email".toList (by decide)).mpr (by decide)

/-- The one column `a, b` of table `t` is reported as two. -/
theorem notNull_comma_column :
    parseDetails Ffi.constraintNotNull (notNullOpening ++ qualified ['t'] "a, b".toList) =
      { table := some ['t'],columns := [['a'],['b']] } := by
  decide

end Xqlite.Constraint

import Mathlib.Data.List.Basic
import Xqlite.Lib.QueryText
import Xqlite.StrictTable
set_option autoImplicit false

/-! The texts of `check_strict_violations`. Names stand in them as they are, between single
quotes once for each typed column and between double quotes everywhere else. A text is
read back token by token: which table it asks about, or which queries it joins. -/

namespace Xqlite.Strict
open QueryText

def StorageClass.word : StorageClass → String
  | .null => "null"
  | .integer => "integer"
  | .real => "real"
  | .text => "text"
  | .blob => "blob"

/-- `String.upcase(Atom.to_string(col_type))` -/
def StrictType.word : StrictType → String
  | .integer => "INTEGER"
  | .real => "REAL"
  | .text => "TEXT"
  | .blob => "BLOB"
  | .any => "ANY"

def tableInfoSql (table : String) : String := "PRAGMA table_info(\"" ++ table ++ "\")"

def typeList (allowed : List StorageClass) : String :=
  ", ".intercalate (allowed.map fun a => "'" ++ a.word ++ "'")

def ViolationQuery.sql (q : ViolationQuery) : String :=
  "SELECT rowid, '" ++ q.column ++ "' AS col, typeof(\"" ++ q.column ++ "\") AS actual_type, " ++
    ("'" ++ q.expected.word ++ "' AS expected_type ") ++
    ("FROM \"" ++ q.table ++ "\" WHERE typeof(\"" ++ q.column ++ "\") NOT IN (" ++
      typeList q.allowed ++ ")")

def unionSql (queries : List ViolationQuery) : String :=
  " UNION ALL ".intercalate (queries.map ViolationQuery.sql)

section Tokens

def selectTokens : List Token := [.word "SELECT".toList,.word "rowid".toList,.mark ',']

def colTokens : List Token :=
  [.word "AS".toList,.word "col".toList,.mark ',',.word "typeof".toList,.mark '(']

def actualTokens : List Token :=
  [.mark ')',.word "AS".toList,.word "actual_type".toList,.mark ',']

def expectedTokens : List Token :=
  [.word "AS".toList,.word "expected_type".toList,.word "FROM".toList]

def whereTokens : List Token := [.word "WHERE".toList,.word "typeof".toList,.mark '(']

def notInTokens : List Token := [.mark ')',.word "NOT".toList,.word "IN".toList,.mark '(']

def unionTokens : List Token := [.word "UNION".toList,.word "ALL".toList]

def pragmaTokens : List Token := [.word "PRAGMA".toList,.word "table_info".toList,.mark '(']

def classTokens : List StorageClass → List Token
  | [] => []
  | [a] => [.string a.word.toList,.mark ')']
  | a :: b :: more => .string a.word.toList :: .mark ',' :: classTokens (b :: more)

def ViolationQuery.tokens (q : ViolationQuery) : List Token :=
  selectTokens ++ .string q.column.toList :: (colTokens ++ .name q.column.toList ::
    (actualTokens ++ .string q.expected.word.toList :: (expectedTokens ++ .name q.table.toList ::
      (whereTokens ++ .name q.column.toList :: (notInTokens ++ classTokens q.allowed)))))

def joinTokens : List ViolationQuery → List Token
  | [] => []
  | [q] => q.tokens
  | q :: q' :: more => q.tokens ++ (unionTokens ++ joinTokens (q' :: more))

def tableInfoTokens (table : String) : List Token :=
  pragmaTokens ++ [.name table.toList,.mark ')']

end Tokens

section Reader

def stringAfter (p ts : List Token) : Option (List Char × List Token) :=
  match ts.dropPrefix? p with
  | some (.string content :: rest) => some (content,rest)
  | _ => none

def nameAfter (p ts : List Token) : Option (List Char × List Token) :=
  match ts.dropPrefix? p with
  | some (.name content :: rest) => some (content,rest)
  | _ => none

def readType (word : List Char) : Option StrictType :=
  [.integer,.real,.text,.blob,.any].find? fun k => k.word.toList = word

def readClass (word : List Char) : Option StorageClass :=
  [.null,.integer,.real,.text,.blob].find? fun a => a.word.toList = word

def readClasses : List Token → Option (List StorageClass × List Token)
  | .string word :: .mark c :: ts => do
    let a ← readClass word
    if c = ')' then some ([a],ts)
    else if c = ',' then (readClasses ts).map fun r => (a :: r.1,r.2)
    else none
  | _ => none

def classesAfter (p ts : List Token) : Option (List StorageClass × List Token) :=
  (ts.dropPrefix? p).bind readClasses

/-- The three places where the column stands have to agree. -/
def readQuery (ts : List Token) : Option (ViolationQuery × List Token) := do
  let (label,ts) ← stringAfter selectTokens ts
  let (column,ts) ← nameAfter colTokens ts
  let (word,ts) ← stringAfter actualTokens ts
  let expected ← readType word
  let (table,ts) ← nameAfter expectedTokens ts
  let (tested,ts) ← nameAfter whereTokens ts
  let (allowed,ts) ← classesAfter notInTokens ts
  if label = column ∧ tested = column then
    some (⟨String.ofList table,String.ofList column,expected,allowed⟩,ts)
  else none

/-- The first argument bounds the queries left. -/
def readQueries : Nat → List Token → Option (List ViolationQuery)
  | 0, _ => none
  | n+1, ts => do
    let (q,rest) ← readQuery ts
    if rest = [] then some [q]
    else
      let rest ← rest.dropPrefix? unionTokens
      (readQueries n rest).map (q :: ·)

def readUnion (sql : String) : Option (List ViolationQuery) :=
  (lex sql.toList).bind fun ts => readQueries ts.length ts

def readTableInfo (sql : String) : Option String := do
  let ts ← lex sql.toList
  let (table,rest) ← nameAfter pragmaTokens ts
  if rest = [.mark ')'] then some (String.ofList table) else none

theorem dropPrefix?_iff {p ts rest : List Token} :
    ts.dropPrefix? p = some rest ↔ ts = p ++ rest := by
  rw [List.dropPrefix?_eq_some_iff]
  constructor
  · intro h
    obtain ⟨p',rfl,hp⟩ := h
    rw [beq_iff_eq.mp hp]
  · intro h
    exact ⟨p,h,beq_self_eq_true p⟩

theorem stringAfter_iff {p ts rest : List Token} {content : List Char} :
    stringAfter p ts = some (content,rest) ↔ ts = p ++ .string content :: rest := by
  rw [← dropPrefix?_iff,stringAfter]
  split
  · rename_i heq
    simp [heq]
  · rename_i hno
    simpa using hno content rest

theorem nameAfter_iff {p ts rest : List Token} {content : List Char} :
    nameAfter p ts = some (content,rest) ↔ ts = p ++ .name content :: rest := by
  rw [← dropPrefix?_iff,nameAfter]
  split
  · rename_i heq
    simp [heq]
  · rename_i hno
    simpa using hno content rest

theorem readType_iff {word : List Char} {k : StrictType} :
    readType word = some k ↔ word = k.word.toList := by
  constructor
  · intro h
    have := List.find?_some h
    simpa using (of_decide_eq_true this).symm
  · intro h
    subst h
    cases k <;> decide

theorem readClass_iff {word : List Char} {a : StorageClass} :
    readClass word = some a ↔ word = a.word.toList := by
  constructor
  · intro h
    have := List.find?_some h
    simpa using (of_decide_eq_true this).symm
  · intro h
    subst h
    cases a <;> decide

theorem StorageClass.word_injective : Function.Injective StorageClass.word := by
  intro a b h
  have ha := readClass_iff.mpr (Eq.refl a.word.toList)
  rw [h,readClass_iff.mpr rfl] at ha
  exact (Option.some.inj ha).symm

theorem readClasses_iff {ts rest : List Token} {as : List StorageClass} :
    readClasses ts = some (as,rest) ↔ as ≠ [] ∧ ts = classTokens as ++ rest := by
  constructor
  · intro h
    induction ts using readClasses.induct generalizing as with
    | case1 word c ts ih =>
      simp only [readClasses,Option.bind_eq_bind,Option.bind_eq_some_iff,readClass_iff] at h
      obtain ⟨a,rfl,h⟩ := h
      split_ifs at h with hclose hcomma
      · obtain ⟨rfl,rfl⟩ := Prod.mk.inj (Option.some.inj h)
        exact ⟨by simp,by rw [hclose]; rfl⟩
      · obtain ⟨⟨as',rest'⟩,hr,heq⟩ := Option.map_eq_some_iff.mp h
        obtain ⟨rfl,rfl⟩ := Prod.mk.inj heq
        obtain ⟨hne,rfl⟩ := ih hr
        obtain ⟨b,more,rfl⟩ := List.exists_cons_of_ne_nil hne
        exact ⟨by simp,by rw [hcomma]; rfl⟩
    | case2 ts hshape =>
      rw [readClasses.eq_2 ts hshape] at h
      cases h
  · intro h
    obtain ⟨hne,rfl⟩ := h
    induction as with
    | nil => exact absurd rfl hne
    | cons a as ih =>
      have ha := readClass_iff.mpr (Eq.refl a.word.toList)
      cases as with
      | nil => simp [classTokens,readClasses,ha]
      | cons b more =>
        have hmore := ih (by simp)
        simp [classTokens,readClasses,ha,hmore]

theorem classesAfter_iff {p ts rest : List Token} {as : List StorageClass} :
    classesAfter p ts = some (as,rest) ↔ as ≠ [] ∧ ts = p ++ (classTokens as ++ rest) := by
  simp only [classesAfter,Option.bind_eq_some_iff,dropPrefix?_iff,readClasses_iff]
  constructor
  · intro h
    obtain ⟨_,rfl,hne,rfl⟩ := h
    exact ⟨hne,rfl⟩
  · intro h
    exact ⟨_,h.2,h.1,rfl⟩

theorem ViolationQuery.tokens_append (q : ViolationQuery) (rest : List Token) :
    q.tokens ++ rest = selectTokens ++ .string q.column.toList :: (colTokens ++
      .name q.column.toList :: (actualTokens ++ .string q.expected.word.toList ::
        (expectedTokens ++ .name q.table.toList :: (whereTokens ++ .name q.column.toList ::
          (notInTokens ++ (classTokens q.allowed ++ rest)))))) := by
  simp only [ViolationQuery.tokens,List.append_assoc,List.cons_append]

/-- A query is read from its own tokens and from no others. -/
theorem readQuery_iff {ts rest : List Token} {q : ViolationQuery} :
    readQuery ts = some (q,rest) ↔ q.allowed ≠ [] ∧ ts = q.tokens ++ rest := by
  rw [q.tokens_append]
  constructor
  · intro h
    simp only [readQuery,Option.bind_eq_bind,Option.bind_eq_some_iff,Prod.exists,
      stringAfter_iff,nameAfter_iff,readType_iff,classesAfter_iff] at h
    obtain ⟨label,ts₁,rfl,column,ts₂,rfl,word,ts₃,rfl,expected,rfl,table,ts₄,rfl,tested,ts₅,rfl,
      allowed,ts₆,⟨hne,rfl⟩,h⟩ := h
    split_ifs at h with hsame
    obtain ⟨rfl,rfl⟩ := hsame
    obtain ⟨rfl,rfl⟩ := Prod.mk.inj (Option.some.inj h)
    exact ⟨hne,by simp only [String.toList_ofList]⟩
  · intro h
    obtain ⟨hne,rfl⟩ := h
    simp only [readQuery,stringAfter_iff.mpr rfl,nameAfter_iff.mpr rfl,readType_iff.mpr rfl,
      classesAfter_iff.mpr ⟨hne,rfl⟩,Option.bind_eq_bind,Option.bind_some,and_self,if_true,
      String.ofList_toList]

theorem length_le_joinTokens (queries : List ViolationQuery) :
    queries.length ≤ (joinTokens queries).length := by
  induction queries with
  | nil => exact Nat.zero_le _
  | cons q queries ih =>
    have hq : 1 ≤ q.tokens.length := by simp [ViolationQuery.tokens,selectTokens]
    cases queries with
    | nil => simpa [joinTokens] using hq
    | cons q' more =>
      simp only [joinTokens,List.length_append,List.length_cons] at ih ⊢
      omega

theorem readQueries_join {queries : List ViolationQuery} {n : Nat} (hne : queries ≠ [])
    (hallowed : ∀ q ∈ queries, q.allowed ≠ []) (hn : queries.length ≤ n) :
    readQueries n (joinTokens queries) = some queries := by
  induction queries generalizing n with
  | nil => exact absurd rfl hne
  | cons q queries ih =>
    obtain ⟨n,rfl⟩ : ∃ n', n = n'+1 := ⟨n-1,by simp only [List.length_cons] at hn; omega⟩
    have hq := hallowed q List.mem_cons_self
    cases queries with
    | nil =>
      have hread := readQuery_iff.mpr ⟨hq,(List.append_nil q.tokens).symm⟩
      simp [readQueries,joinTokens,hread]
    | cons q' more =>
      have hread := readQuery_iff.mpr
        ⟨hq,Eq.refl (q.tokens ++ (unionTokens ++ joinTokens (q' :: more)))⟩
      have hdrop := dropPrefix?_iff.mpr (Eq.refl (unionTokens ++ joinTokens (q' :: more)))
      have hmore := ih (n := n) (by simp) (fun a ha => hallowed a (List.mem_cons_of_mem q ha))
        (by simp only [List.length_cons] at hn ⊢; omega)
      have hrest : unionTokens ++ joinTokens (q' :: more) ≠ [] := by simp [unionTokens]
      simp [readQueries,joinTokens,hread,hrest,hdrop,hmore]

theorem readQueries_ne_nil {n : Nat} {ts : List Token} {queries : List ViolationQuery}
    (h : readQueries n ts = some queries) : queries ≠ [] := by
  cases n with
  | zero => cases h
  | succ n =>
    simp only [readQueries,Option.bind_eq_bind,Option.bind_eq_some_iff,Prod.exists] at h
    obtain ⟨q,rest,-,h⟩ := h
    split_ifs at h
    · cases h
      simp
    · obtain ⟨_,-,h⟩ := Option.bind_eq_some_iff.mp h
      obtain ⟨_,-,rfl⟩ := Option.map_eq_some_iff.mp h
      simp

theorem joinTokens_of_readQueries {n : Nat} {ts : List Token} {queries : List ViolationQuery}
    (h : readQueries n ts = some queries) : ts = joinTokens queries := by
  induction n generalizing ts queries with
  | zero => cases h
  | succ n ih =>
    simp only [readQueries,Option.bind_eq_bind,Option.bind_eq_some_iff,Prod.exists,
      readQuery_iff] at h
    obtain ⟨q,rest,⟨-,rfl⟩,h⟩ := h
    split_ifs at h with hrest
    · cases h
      simp [joinTokens,hrest]
    · obtain ⟨rest',hdrop,hmore⟩ := Option.bind_eq_some_iff.mp h
      obtain ⟨more,hr,rfl⟩ := Option.map_eq_some_iff.mp hmore
      obtain ⟨q',more,rfl⟩ := List.exists_cons_of_ne_nil (readQueries_ne_nil hr)
      rw [dropPrefix?_iff.mp hdrop,ih hr,joinTokens]

theorem readUnion_iff {sql : String} {queries : List ViolationQuery} (hne : queries ≠ [])
    (hallowed : ∀ q ∈ queries, q.allowed ≠ []) :
    readUnion sql = some queries ↔ lex sql.toList = some (joinTokens queries) := by
  constructor
  · intro h
    obtain ⟨ts,hlex,hread⟩ := Option.bind_eq_some_iff.mp h
    rw [hlex,joinTokens_of_readQueries hread]
  · intro h
    rw [readUnion,h]
    exact readQueries_join hne hallowed (length_le_joinTokens queries)

theorem readTableInfo_iff {sql table : String} :
    readTableInfo sql = some table ↔ lex sql.toList = some (tableInfoTokens table) := by
  constructor
  · intro h
    simp only [readTableInfo,Option.bind_eq_bind,Option.bind_eq_some_iff,Prod.exists,
      nameAfter_iff] at h
    obtain ⟨ts,hlex,name,rest,rfl,h⟩ := h
    split_ifs at h with hrest
    cases h
    rw [hlex,hrest]
    simp [tableInfoTokens]
  · intro h
    have hname := nameAfter_iff.mpr (Eq.refl (pragmaTokens ++ [.name table.toList,.mark ')']))
    simp [readTableInfo,h,tableInfoTokens,hname]

end Reader

section Pieces

def selectText : Fixed := ⟨"SELECT rowid, ".toList,selectTokens,by decide,by decide⟩

def colText : Fixed := ⟨" AS col, typeof(".toList,colTokens,by decide,by decide⟩

def expectedText (k : StrictType) : Fixed where
  text := ") AS actual_type, '".toList ++ (k.word.toList ++ "' AS expected_type FROM ".toList)
  tokens := actualTokens ++ .string k.word.toList :: expectedTokens
  reads := by cases k <;> decide
  apart := by cases k <;> decide

def whereText : Fixed := ⟨" WHERE typeof(".toList,whereTokens,by decide,by decide⟩

def notInText (k : StrictType) : Fixed where
  text := ") NOT IN (".toList ++ ((typeList (strictAllowedTypes k)).toList ++ [')'])
  tokens := notInTokens ++ classTokens (strictAllowedTypes k)
  reads := by cases k <;> decide
  apart := by cases k <;> decide

def unionText : Fixed := ⟨" UNION ALL ".toList,unionTokens,by decide,by decide⟩

def pragmaText : Fixed := ⟨"PRAGMA table_info(".toList,pragmaTokens,by decide,by decide⟩

def closeText : Fixed := ⟨[')'],[.mark ')'],by decide,by decide⟩

def namedPieces (f₁ f₂ f₃ f₄ f₅ : Fixed) (table column : List Char) : List Piece :=
  [.fixed f₁,.quoted .single column,.fixed f₂,.quoted .double column,.fixed f₃,
    .quoted .double table,.fixed f₄,.quoted .double column,.fixed f₅]

def queryPieces (table : String) (column : String × StrictType) : List Piece :=
  namedPieces selectText colText (expectedText column.2) whereText (notInText column.2)
    table.toList column.1.toList

def unionPieces (table : String) : List (String × StrictType) → List Piece
  | [] => []
  | [column] => queryPieces table column
  | column :: column' :: more =>
    queryPieces table column ++ .fixed unionText :: unionPieces table (column' :: more)

def tableInfoPieces (table : String) : List Piece :=
  [.fixed pragmaText,.quoted .double table.toList,.fixed closeText]

theorem text_namedPieces {f₁ f₂ f₃ f₄ f₅ : Fixed} {a b c d e : List Char}
    (ha : a = f₁.text ++ ['\'']) (hb : b = '\'' :: (f₂.text ++ ['"']))
    (hc : c = '"' :: (f₃.text ++ ['"'])) (hd : d = '"' :: (f₄.text ++ ['"']))
    (he : e = '"' :: f₅.text) (table column : List Char) :
    text (namedPieces f₁ f₂ f₃ f₄ f₅ table column) =
      a ++ (column ++ (b ++ (column ++ (c ++ (table ++ (d ++ (column ++ e))))))) := by
  simp [namedPieces,text,Piece.text,Quote.char,ha,hb,hc,hd,he]

theorem toList_named (a b c d e f g h i column word table types : String) :
    (a ++ column ++ b ++ column ++ c ++ (d ++ word ++ e) ++
        (f ++ table ++ g ++ column ++ h ++ types ++ i)).toList =
      a.toList ++ (column.toList ++ (b.toList ++ (column.toList ++
        ((c.toList ++ (d.toList ++ (word.toList ++ (e.toList ++ f.toList)))) ++ (table.toList ++
          (g.toList ++ (column.toList ++ (h.toList ++ (types.toList ++ i.toList))))))))) := by
  simp only [String.toList_append,List.append_assoc]

theorem toList_between (a table b : String) :
    (a ++ table ++ b).toList = a.toList ++ (table.toList ++ b.toList) := by
  simp only [String.toList_append,List.append_assoc]

theorem text_between {f₁ f₂ : Fixed} {a b : List Char} (ha : a = f₁.text ++ ['"'])
    (hb : b = '"' :: f₂.text) (table : List Char) :
    text [.fixed f₁,.quoted .double table,.fixed f₂] = a ++ (table ++ b) := by
  simp [text,Piece.text,Quote.char,ha,hb]

theorem tokens_namedPieces (f₁ f₂ f₃ f₄ f₅ : Fixed) (table column : List Char) :
    tokens (namedPieces f₁ f₂ f₃ f₄ f₅ table column) =
      f₁.tokens ++ .string column :: (f₂.tokens ++ .name column :: (f₃.tokens ++ .name table ::
        (f₄.tokens ++ .name column :: f₅.tokens))) := by
  simp [namedPieces,tokens,Piece.tokens,quotedToken,Quote.char]

theorem text_queryPieces (table : String) (column : String × StrictType) :
    text (queryPieces table column) = (violationQuery table column).sql.toList := by
  obtain ⟨name,k⟩ := column
  have hselect : "SELECT rowid, '".toList = selectText.text ++ ['\''] := by decide
  have hcol : "' AS col, typeof(\"".toList = '\'' :: (colText.text ++ ['"']) := by decide
  have hexpected : "\") AS actual_type, ".toList ++ ("'".toList ++ (k.word.toList ++
      ("' AS expected_type ".toList ++ "FROM \"".toList))) =
      '"' :: ((expectedText k).text ++ ['"']) := by cases k <;> decide
  have hwhere : "\" WHERE typeof(\"".toList = '"' :: (whereText.text ++ ['"']) := by decide
  have hin : "\") NOT IN (".toList ++ ((typeList (strictAllowedTypes k)).toList ++ ")".toList) =
      '"' :: (notInText k).text := by cases k <;> decide
  exact (text_namedPieces hselect hcol hexpected hwhere hin _ _).trans
    (toList_named _ _ _ _ _ _ _ _ _ _ _ _ _).symm

theorem tokens_queryPieces (table : String) (column : String × StrictType) :
    tokens (queryPieces table column) = (violationQuery table column).tokens := by
  rw [queryPieces,tokens_namedPieces]
  rfl

theorem formed_queryPieces (table : String) (column : String × StrictType) :
    Formed (queryPieces table column) :=
  .fixed _ (.quoted _ _ _ (.quoted _ _ _ (.quoted _ _ _ (.quoted _ _ _ .nil))))

theorem text_unionPieces (table : String) (columns : List (String × StrictType)) :
    text (unionPieces table columns) = (unionSql (columns.map (violationQuery table))).toList := by
  induction columns with
  | nil => rfl
  | cons column columns ih =>
    cases columns with
    | nil =>
      rw [unionPieces,text_queryPieces,unionSql,List.map_singleton,List.map_singleton,
        String.intercalate_singleton]
    | cons column' more =>
      have hunion : unionText.text = " UNION ALL ".toList := rfl
      rw [unionPieces,text_append,text_fixed,ih,text_queryPieces,hunion]
      simp only [unionSql,List.map_cons,String.intercalate_cons_cons,String.toList_append,
        List.append_assoc]

theorem tokens_unionPieces (table : String) (columns : List (String × StrictType)) :
    tokens (unionPieces table columns) = joinTokens (columns.map (violationQuery table)) := by
  induction columns with
  | nil => rfl
  | cons column columns ih =>
    cases columns with
    | nil => exact tokens_queryPieces table column
    | cons column' more =>
      rw [unionPieces,tokens_append,tokens_fixed,ih,tokens_queryPieces]
      rfl

theorem formed_unionPieces (table : String) (columns : List (String × StrictType)) :
    Formed (unionPieces table columns) := by
  induction columns with
  | nil => exact .nil
  | cons column columns ih =>
    cases columns with
    | nil => exact formed_queryPieces table column
    | cons column' more => exact (formed_queryPieces table column).append (.fixed unionText ih)

def CleanNames (table : String) (column : String × StrictType) : Prop :=
  ('\'' ∉ column.1.toList ∧ '"' ∉ column.1.toList ∧ '\x00' ∉ column.1.toList) ∧
    '"' ∉ table.toList ∧ '\x00' ∉ table.toList

theorem clean_queryPieces {table : String} {column : String × StrictType} :
    (∀ p ∈ queryPieces table column, p.Clean) ↔ CleanNames table column := by
  simp only [queryPieces,namedPieces,List.forall_mem_cons,Piece.Clean,Quote.char,CleanNames]
  constructor
  · intro h
    exact ⟨⟨h.2.1.1,h.2.2.2.1⟩,h.2.2.2.2.2.1⟩
  · intro h
    obtain ⟨⟨hsingle,hcolumn⟩,htable⟩ := h
    exact ⟨trivial,⟨hsingle,hcolumn.2⟩,trivial,hcolumn,trivial,htable,trivial,hcolumn,trivial,
      by simp⟩

theorem clean_unionPieces {table : String} {columns : List (String × StrictType)} :
    (∀ p ∈ unionPieces table columns, p.Clean) ↔ ∀ c ∈ columns, CleanNames table c := by
  induction columns with
  | nil => simp [unionPieces]
  | cons column columns ih =>
    cases columns with
    | nil => simp only [unionPieces,clean_queryPieces,List.forall_mem_singleton]
    | cons column' more =>
      rw [unionPieces,List.forall_mem_append,clean_queryPieces,List.forall_mem_cons,ih,
        List.forall_mem_cons]
      simp [Piece.Clean]

theorem strictAllowedTypes_ne_nil (k : StrictType) : strictAllowedTypes k ≠ [] := by
  cases k <;> simp [strictAllowedTypes]

/-- The joined text asks exactly what it is meant to ask when none of the names has in it a
quote that it is put between, and only then. -/
theorem readUnion_unionSql {table : String} {columns : List (String × StrictType)}
    (hne : columns ≠ []) :
    readUnion (unionSql (columns.map (violationQuery table))) =
        some (columns.map (violationQuery table)) ↔ ∀ c ∈ columns, CleanNames table c := by
  have hallowed : ∀ q ∈ columns.map (violationQuery table), q.allowed ≠ [] := by
    intro q hq
    obtain ⟨c,-,rfl⟩ := List.mem_map.mp hq
    exact strictAllowedTypes_ne_nil c.2
  have hmap : columns.map (violationQuery table) ≠ [] := by simpa using hne
  rw [readUnion_iff hmap hallowed,← text_unionPieces,← tokens_unionPieces,
    lex_text_iff (formed_unionPieces table columns),clean_unionPieces]

theorem readTableInfo_sql {table : String} :
    readTableInfo (tableInfoSql table) = some table ↔
      '"' ∉ table.toList ∧ '\x00' ∉ table.toList := by
  have hpragma : "PRAGMA table_info(\"".toList = pragmaText.text ++ ['"'] := by decide
  have hclose : "\")".toList = '"' :: closeText.text := by decide
  have htext : text (tableInfoPieces table) = (tableInfoSql table).toList :=
    (text_between hpragma hclose _).trans (toList_between _ _ _).symm
  have htok : tableInfoTokens table = tokens (tableInfoPieces table) := rfl
  have hformed : Formed (tableInfoPieces table) := .fixed _ (.quoted _ _ _ .nil)
  rw [readTableInfo_iff,← htext,htok,lex_text_iff hformed]
  simp only [tableInfoPieces,List.forall_mem_cons,Piece.Clean,Quote.char]
  simp

end Pieces

section Size

def StrictType.textSize : StrictType → Nat
  | .integer => 130
  | .real => 135
  | .text => 143
  | .blob => 124
  | .any => 150

def querySize (table : String) (column : String × StrictType) : Nat :=
  column.2.textSize + 3 * column.1.utf8ByteSize + table.utf8ByteSize

def unionSize (table : String) (columns : List (String × StrictType)) : Nat :=
  (columns.map (querySize table)).sum + 11 * (columns.length - 1)

theorem utf8ByteSize_named (a b c d e f g h i column word table types : String) :
    (a ++ column ++ b ++ column ++ c ++ (d ++ word ++ e) ++
        (f ++ table ++ g ++ column ++ h ++ types ++ i)).utf8ByteSize =
      a.utf8ByteSize + b.utf8ByteSize + c.utf8ByteSize + d.utf8ByteSize + e.utf8ByteSize +
        f.utf8ByteSize + g.utf8ByteSize + h.utf8ByteSize + i.utf8ByteSize + word.utf8ByteSize +
        types.utf8ByteSize + 3 * column.utf8ByteSize + table.utf8ByteSize := by
  simp only [String.utf8ByteSize_append]
  omega

theorem utf8ByteSize_sql (table : String) (column : String × StrictType) :
    (violationQuery table column).sql.utf8ByteSize = querySize table column := by
  obtain ⟨name,k⟩ := column
  have hsize : "SELECT rowid, '".utf8ByteSize + "' AS col, typeof(\"".utf8ByteSize +
      "\") AS actual_type, ".utf8ByteSize + "'".utf8ByteSize + "' AS expected_type ".utf8ByteSize +
      "FROM \"".utf8ByteSize + "\" WHERE typeof(\"".utf8ByteSize + "\") NOT IN (".utf8ByteSize +
      ")".utf8ByteSize + k.word.utf8ByteSize + (typeList (strictAllowedTypes k)).utf8ByteSize =
      k.textSize := by cases k <;> decide
  refine (utf8ByteSize_named _ _ _ _ _ _ _ _ _ _ _ _ _).trans ?_
  rw [querySize]
  exact congrArg (· + 3 * name.utf8ByteSize + table.utf8ByteSize) hsize

theorem utf8ByteSize_unionSql (table : String) (columns : List (String × StrictType)) :
    (unionSql (columns.map (violationQuery table))).utf8ByteSize = unionSize table columns := by
  have hunion : " UNION ALL ".utf8ByteSize = 11 := by decide
  have hcons : ∀ a b : String, (a ++ " UNION ALL " ++ b).utf8ByteSize =
      a.utf8ByteSize + 11 + b.utf8ByteSize := by
    intro a b
    rw [String.utf8ByteSize_append,String.utf8ByteSize_append,hunion]
  induction columns with
  | nil => rfl
  | cons column columns ih =>
    cases columns with
    | nil =>
      rw [unionSql,List.map_singleton,List.map_singleton,String.intercalate_singleton,
        utf8ByteSize_sql]
      simp [unionSize]
    | cons column' more =>
      simp only [unionSql,List.map_cons,String.intercalate_cons_cons] at ih ⊢
      rw [hcons,ih,utf8ByteSize_sql]
      simp only [unionSize,List.map_cons,List.sum_cons,List.length_cons]
      omega

theorem utf8ByteSize_tableInfoSql (table : String) :
    (tableInfoSql table).utf8ByteSize = 21 + table.utf8ByteSize := by
  have hsize : "PRAGMA table_info(\"".utf8ByteSize + "\")".utf8ByteSize = 21 := by decide
  have happend : ∀ a b : String, (a ++ table ++ b).utf8ByteSize =
      a.utf8ByteSize + b.utf8ByteSize + table.utf8ByteSize := by
    intro a b
    simp only [String.utf8ByteSize_append]
    omega
  exact (happend _ _).trans (congrArg (· + table.utf8ByteSize) hsize)

end Size

end Xqlite.Strict

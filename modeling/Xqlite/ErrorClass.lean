import Xqlite.ConstraintParse
import Xqlite.Lib.Ascii
set_option autoImplicit false

/-! `XqliteError::from`: how an error that `rusqlite` reports is classified, by its code
where SQLite has one and by the words of its message where it has none. -/

namespace Xqlite.Classify
open Split Ascii Constraint

structure FfiError where
  extendedCode : Int
  deriving DecidableEq, Repr

def FfiError.primaryCode (e : FfiError) : Int := e.extendedCode % 256

inductive ConstraintKind where
  | check | commitHook | foreignKey | function | notNull | primaryKey | rowid | trigger | unique
  | vtab | pinned | datatype | violation
  deriving DecidableEq, Repr

def constraintKindExtended (extendedCode : Int) : Option ConstraintKind :=
  if extendedCode = Ffi.constraintCheck then some .check
  else if extendedCode = 531 then some .commitHook
  else if extendedCode = 787 then some .foreignKey
  else if extendedCode = 1043 then some .function
  else if extendedCode = Ffi.constraintNotNull then some .notNull
  else if extendedCode = Ffi.constraintPrimaryKey then some .primaryKey
  else if extendedCode = 2579 then some .rowid
  else if extendedCode = 1811 then some .trigger
  else if extendedCode = Ffi.constraintUnique then some .unique
  else if extendedCode = 2323 then some .vtab
  else if extendedCode = 2835 then some .pinned
  else if extendedCode = Ffi.constraintDatatype then some .datatype
  else if extendedCode % 256 = 19 then some .violation
  else none

/-- The errors of `rusqlite` that have an arm of their own; `other` carries the printed
form of the rest. -/
inductive RusqliteError where
  | sqliteFailure (error : FfiError) (message : Option Text)
  | sqlInputError (error : FfiError) (message sql : Text) (offset : Int)
  | executeReturnedResults
  | invalidParameterCount (provided expected : Nat)
  | invalidParameterName (name : Text)
  | nulError
  | utf8Error (column : Nat) (reason : Text)
  | fromSqlConversionFailure (index : Nat) (type : StorageClass) (reason : Text)
  | integralValueOutOfRange (index : Nat) (value : Int)
  | toSqlConversionFailure (reason : Text)
  | invalidColumnIndex (index : Nat)
  | invalidColumnName (name : Text)
  | invalidColumnType (index : Nat) (name : Text) (type : StorageClass)
  | multipleStatement
  | other (printed : Text)
  deriving DecidableEq, Repr

/-- The variants of `XqliteError` that they become. -/
inductive SqliteError where
  | readOnlyDatabase (extendedCode : Int) (message : Text)
  | operationCancelled
  | databaseBusyOrLocked (extendedCode : Int) (message : Text)
  | schemaChanged (extendedCode : Int) (message : Text)
  | authorizationDenied (extendedCode : Int) (message : Text)
  | constraintViolation (kind : Option ConstraintKind) (message : Text)
      (details : ConstraintDetails)
  | noSuchTable (message : Text)
  | noSuchIndex (message : Text)
  | tableExists (message : Text)
  | indexExists (message : Text)
  | sqliteFailure (code extendedCode : Int) (message : Option Text)
  | sqlInputError (code : Int) (message sql : Text) (offset : Int)
  | executeReturnedResults
  | invalidParameterCount (provided expected : Nat)
  | invalidParameterName (name : Text)
  | nulErrorInString
  | utf8Error (column : Nat) (reason : Text)
  | fromSqlConversionFailure (index : Nat) (type : StorageClass) (reason : Text)
  | integralValueOutOfRange (index : Nat) (value : Int)
  | toSqlConversionFailure (reason : Text)
  | invalidColumnIndex (index : Nat)
  | invalidColumnName (name : Text)
  | invalidColumnType (index : Nat) (name : Text) (type : StorageClass)
  | multipleStatements
  | cannotExecute (reason : Text)
  deriving DecidableEq, Repr

/-- The lower-case mapping of the characters beyond ASCII, but for the two that map to a
text with an ASCII letter in it. What stands around a character matters for a sigma.
No character disappears, and none becomes an ASCII one. -/
structure CaseTable where
  lower : (before : Text) → Char → (after : Text) → Text
  lower_ne_nil : ∀ before c after, lower before c after ≠ []
  lower_beyond : ∀ before c after, ∀ d ∈ lower before c after, 128 ≤ d.toNat

def isAscii (c : Char) : Bool := c.toNat < 128

def kelvin : Char := '\u212a'
def dottedI : Char := '\u0130'
def dotAbove : Char := '\u0307'

def lowercaseChar (U : CaseTable) (before : Text) (c : Char) (after : Text) : Text :=
  if isAscii c then [c.toLower]
  else if c = kelvin then ['k']
  else if c = dottedI then ['i',dotAbove]
  else U.lower before c after

/-- `before` is what was passed already, the nearest character first. -/
def lowercaseFrom (U : CaseTable) (before : Text) : Text → Text
  | [] => []
  | c :: after => lowercaseChar U before c after ++ lowercaseFrom U (c :: before) after

def toLowercase (U : CaseTable) (s : Text) : Text := lowercaseFrom U [] s

def noSuchTable : Text := "no such table".toList
def noSuchIndex : Text := "no such index".toList
def table : Text := "table".toList
def index : Text := "index".toList
def alreadyExists : Text := "already exists".toList

section From

-- The printed form of a code without a message.
variable (U : CaseTable) (display : FfiError → Text)

def classifySqliteError (e : FfiError) (message : Text) : SqliteError :=
  let lowerMsg := toLowercase U message
  if e.primaryCode = 8 then .readOnlyDatabase e.extendedCode message
  else if e.primaryCode = 9 then .operationCancelled
  else if e.primaryCode = 5 ∨ e.primaryCode = 6 then .databaseBusyOrLocked e.extendedCode message
  else if e.primaryCode = 17 then .schemaChanged e.extendedCode message
  else if e.primaryCode = 23 then .authorizationDenied e.extendedCode message
  else if e.primaryCode = 19 then
    .constraintViolation (constraintKindExtended e.extendedCode) message
      (parseDetails e.extendedCode message)
  else if noSuchTable <+: lowerMsg then .noSuchTable message
  else if noSuchIndex <+: lowerMsg then .noSuchIndex message
  else if table <+: lowerMsg ∧ alreadyExists <:+: lowerMsg then .tableExists message
  else if index <+: lowerMsg ∧ alreadyExists <:+: lowerMsg then .indexExists message
  else .sqliteFailure e.primaryCode e.extendedCode (some message)

def failureText (e : FfiError) (message : Text) : Text :=
  ("SQLite failure (Code: " ++ toString e.primaryCode ++ ", Extended: " ++
    toString e.extendedCode ++ "): ").toList ++ message

/-- The richer error of a statement is kept where the classification is generic. -/
def fromRusqlite : RusqliteError → SqliteError
  | .sqliteFailure e message => classifySqliteError U e (message.getD (display e))
  | .sqlInputError e message sql offset =>
      match classifySqliteError U e message with
      | .sqliteFailure _ _ _ => .sqlInputError e.extendedCode (failureText e message) sql offset
      | classified => classified
  | .executeReturnedResults => .executeReturnedResults
  | .invalidParameterCount provided expected => .invalidParameterCount provided expected
  | .invalidParameterName name => .invalidParameterName name
  | .nulError => .nulErrorInString
  | .utf8Error column reason => .utf8Error column reason
  | .fromSqlConversionFailure index type reason => .fromSqlConversionFailure index type reason
  | .integralValueOutOfRange index value => .integralValueOutOfRange index value
  | .toSqlConversionFailure reason => .toSqlConversionFailure reason
  | .invalidColumnIndex index => .invalidColumnIndex index
  | .invalidColumnName name => .invalidColumnName name
  | .invalidColumnType index name type => .invalidColumnType index name type
  | .multipleStatement => .multipleStatements
  | .other printed => .cannotExecute printed

end From

theorem toLower_of_not_ascii {c : Char} (h : isAscii c = false) : c.toLower = c := by
  have hc : 128 ≤ c.toNat := by simpa [isAscii] using h
  exact toLower_of_not_upper (.inr (by omega))

theorem lowercaseFrom_ascii_append (U : CaseTable) (before : Text) {a : Text}
    (h : ∀ c ∈ a, isAscii c = true) (s : Text) :
    lowercaseFrom U before (a ++ s) =
      a.map Char.toLower ++ lowercaseFrom U (a.reverse ++ before) s := by
  induction a generalizing before with
  | nil => simp
  | cons c a ih =>
    have hc := h c (by simp)
    have ha := ih (c :: before) (fun d hd => h d (List.mem_cons_of_mem _ hd))
    simp [lowercaseFrom,lowercaseChar,hc,ha]

theorem toLowercase_opening (U : CaseTable) {opening : Text}
    (hall : (opening.all fun c => isAscii c && c.toLower == c) = true) (s : Text) :
    ∃ rest, toLowercase U (opening ++ s) = opening ++ rest := by
  have h : ∀ c ∈ opening, isAscii c = true ∧ c.toLower = c := by
    simpa using hall
  have hmap : opening.map Char.toLower = opening := by
    conv_rhs => rw [← List.map_id opening]
    exact List.map_congr_left fun c hc => (h c hc).2
  rw [toLowercase,lowercaseFrom_ascii_append U [] (fun c hc => (h c hc).1),hmap]
  exact ⟨_,rfl⟩

theorem not_mem_alreadyExists {c : Char} (h : 128 ≤ c.toNat) : c ∉ alreadyExists := by
  have hall : (alreadyExists.all fun d => decide (d.toNat < 128)) = true := by decide
  intro hc
  have hlt := of_decide_eq_true (List.all_eq_true.mp hall c hc)
  omega

/-- A character beyond ASCII keeps the words apart, whatever it is lower-cased to. The
one that becomes an `i` has a dot behind it. -/
theorem infix_lowercaseChar (U : CaseTable) (before : Text) {c : Char} (h : isAscii c = false)
    (after a b : Text) :
    alreadyExists <:+: a ++ (lowercaseChar U before c after ++ b) ↔
      alreadyExists <:+: a ∨ alreadyExists <:+: b := by
  unfold lowercaseChar
  rw [if_neg (by simp [h])]
  split_ifs with hk hi
  · exact infix_append_cons (by decide) a b
  · have hdot : alreadyExists <:+: a ++ ['i'] ↔ alreadyExists <:+: a :=
      infix_append_right (c := 's') (by decide) (by decide) a
    rw [← hdot,← infix_append_cons (show dotAbove ∉ alreadyExists by decide)]
    simp
  · exact infix_append_block (U.lower_ne_nil _ _ _)
      (fun d hd => not_mem_alreadyExists (U.lower_beyond _ _ _ d hd)) a b

theorem infix_lowercaseFrom (U : CaseTable) (before a s : Text) :
    alreadyExists <:+: a ++ lowercaseFrom U before s ↔
      alreadyExists <:+: a ++ s.map Char.toLower := by
  induction s generalizing before a with
  | nil => rfl
  | cons c s ih =>
    by_cases hc : isAscii c = true
    · have hrest := ih (c :: before) (a ++ [c.toLower])
      simpa [lowercaseFrom,lowercaseChar,hc] using hrest
    · rw [Bool.not_eq_true] at hc
      have hbeyond : 128 ≤ c.toNat := by simpa [isAscii] using hc
      have hrest := ih (c :: before) []
      simp only [List.nil_append] at hrest
      rw [lowercaseFrom,infix_lowercaseChar U before hc,List.map_cons,toLower_of_not_ascii hc,
        infix_append_cons (not_mem_alreadyExists hbeyond),hrest]

theorem infix_toLowercase (U : CaseTable) (s : Text) :
    alreadyExists <:+: toLowercase U s ↔ alreadyExists <:+: s.map Char.toLower :=
  infix_lowercaseFrom U [] [] s

def Impersonates (name : Text) : Prop := alreadyExists <:+: name.map Char.toLower

instance (name : Text) : Decidable (Impersonates name) :=
  inferInstanceAs (Decidable (alreadyExists <:+: name.map Char.toLower))

def noSuchTableMessage (t : Text) : Text := noSuchTable ++ (": ".toList ++ t)
def noSuchIndexMessage (i : Text) : Text := noSuchIndex ++ (": ".toList ++ i)
def tableExistsMessage (t : Text) : Text := table ++ (' ' :: t ++ ' ' :: alreadyExists)
def indexExistsMessage (i : Text) : Text := index ++ (' ' :: i ++ ' ' :: alreadyExists)

def noColumnMessage (t c : Text) : Text :=
  table ++ (' ' :: t ++ (" has no column named ".toList ++ c))

def valueCountMessage (t : Text) (n m : Nat) : Text :=
  table ++ (' ' :: t ++ (" has ".toList ++ Nat.toDigits 10 n ++ " columns but ".toList ++
    Nat.toDigits 10 m ++ " values were supplied".toList))

theorem mem_tableExists (U : CaseTable) (opening t : Text) :
    alreadyExists <:+: toLowercase U (opening ++ (' ' :: t ++ ' ' :: alreadyExists)) := by
  rw [infix_toLowercase]
  refine ⟨(opening ++ (' ' :: t ++ [' '])).map Char.toLower,[],?_⟩
  have hlow : alreadyExists.map Char.toLower = alreadyExists := by decide
  simp [hlow]

theorem infix_table (t rest : Text) :
    alreadyExists <:+: (table ++ (' ' :: t ++ ' ' :: 'h' :: rest)).map Char.toLower ↔
      Impersonates t ∨ alreadyExists <:+: rest.map Char.toLower := by
  have hopen : (table ++ (' ' :: t ++ ' ' :: 'h' :: rest)).map Char.toLower =
      ['t','a'] ++ 'b' :: (['l','e',' '] ++ (t.map Char.toLower ++ [' '] ++
        'h' :: rest.map Char.toLower)) := by
    simp only [List.map_append,List.map_cons,List.append_assoc,List.cons_append,List.nil_append]
    rfl
  have hta : ¬ alreadyExists <:+: ['t','a'] := by decide
  rw [hopen,infix_append_cons (by decide),infix_append_left (c := 'a') (by decide) (by decide),
    infix_append_cons (by decide),infix_append_right (c := 's') (by decide) (by decide)]
  simp [hta,Impersonates]

theorem infix_noColumnMessage (t c : Text) :
    alreadyExists <:+: (noColumnMessage t c).map Char.toLower ↔
      Impersonates t ∨ Impersonates c := by
  have hcut : alreadyExists <:+: ("as no column named ".toList ++ c).map Char.toLower ↔
      Impersonates c := by
    have hsplit : ("as no column named ".toList ++ c).map Char.toLower =
        "as no column na".toList ++ 'm' :: (['e','d',' '] ++ c.map Char.toLower) := by
      simp
    have hna : ¬ alreadyExists <:+: "as no column na".toList := by decide
    rw [hsplit,infix_append_cons (by decide),infix_append_left (c := 'a') (by decide) (by decide),
      or_iff_right hna]
    rfl
  rw [← hcut,← infix_table]
  rfl

theorem infix_valueCountMessage (t : Text) (n m : Nat) :
    alreadyExists <:+: (valueCountMessage t n m).map Char.toLower ↔ Impersonates t := by
  have hdigits : ∀ k, 'x' ∉ (Nat.toDigits 10 k).map Char.toLower := by
    intro k hx
    obtain ⟨d,hd,hlow⟩ := List.mem_map.mp hx
    have hdigit := Nat.isDigit_of_mem_toDigits (by omega) (by omega) hd
    have hnine : d.toNat ≤ 57 := ((isDigit_iff d).mp hdigit).2
    rw [toLower_of_not_upper (.inl (by omega))] at hlow
    rw [hlow] at hnine
    exact absurd hnine (by decide)
  have hrest : ¬ alreadyExists <:+: ("as ".toList ++ Nat.toDigits 10 n ++
      " columns but ".toList ++ Nat.toDigits 10 m ++ " values were supplied".toList).map
        Char.toLower := by
    intro h
    have hx := h.subset (show 'x' ∈ alreadyExists by decide)
    simp only [List.map_append,List.mem_append] at hx
    rcases hx with (((hx | hx) | hx) | hx) | hx
    · exact absurd hx (by decide)
    · exact hdigits n hx
    · exact absurd hx (by decide)
    · exact hdigits m hx
    · exact absurd hx (by decide)
  have htable := infix_table t ("as ".toList ++ Nat.toDigits 10 n ++
    " columns but ".toList ++ Nat.toDigits 10 m ++ " values were supplied".toList)
  rw [or_iff_left hrest] at htable
  exact htable

def textClass (U : CaseTable) (message : Text) : Option SqliteError :=
  if noSuchTable <+: toLowercase U message then some (.noSuchTable message)
  else if noSuchIndex <+: toLowercase U message then some (.noSuchIndex message)
  else if table <+: toLowercase U message ∧ alreadyExists <:+: toLowercase U message then
    some (.tableExists message)
  else if index <+: toLowercase U message ∧ alreadyExists <:+: toLowercase U message then
    some (.indexExists message)
  else none

theorem textClass_noSuchTable (U : CaseTable) (s : Text) :
    textClass U (noSuchTable ++ s) = some (.noSuchTable (noSuchTable ++ s)) := by
  obtain ⟨rest,hlow⟩ := toLowercase_opening U (show (List.all noSuchTable _) = true by decide) s
  simp [textClass,hlow]

theorem textClass_noSuchIndex (U : CaseTable) (s : Text) :
    textClass U (noSuchIndex ++ s) = some (.noSuchIndex (noSuchIndex ++ s)) := by
  obtain ⟨rest,hlow⟩ := toLowercase_opening U (show (List.all noSuchIndex _) = true by decide) s
  have htable : ¬ noSuchTable <+: noSuchIndex ++ rest :=
    not_prefix_append (by decide) (by decide) rest
  simp [textClass,hlow,htable]

theorem textClass_table (U : CaseTable) (s : Text) :
    textClass U (table ++ s) =
      if alreadyExists <:+: toLowercase U (table ++ s) then some (.tableExists (table ++ s)) else none := by
  obtain ⟨rest,hlow⟩ := toLowercase_opening U (show (List.all table _) = true by decide) s
  have hnoTable : ¬ noSuchTable <+: table ++ rest := not_prefix_append (by decide) (by decide) rest
  have hnoIndex : ¬ noSuchIndex <+: table ++ rest := not_prefix_append (by decide) (by decide) rest
  have hindex : ¬ index <+: table ++ rest := not_prefix_append (by decide) (by decide) rest
  simp [textClass,hlow,hnoTable,hnoIndex,hindex]

theorem textClass_index (U : CaseTable) (s : Text) :
    textClass U (index ++ s) =
      if alreadyExists <:+: toLowercase U (index ++ s) then some (.indexExists (index ++ s)) else none := by
  obtain ⟨rest,hlow⟩ := toLowercase_opening U (show (List.all index _) = true by decide) s
  have hnoTable : ¬ noSuchTable <+: index ++ rest := not_prefix_append (by decide) (by decide) rest
  have hnoIndex : ¬ noSuchIndex <+: index ++ rest := not_prefix_append (by decide) (by decide) rest
  have htable : ¬ table <+: index ++ rest := not_prefix_append (by decide) (by decide) rest
  simp [textClass,hlow,hnoTable,hnoIndex,htable]

def SqliteError.byText : SqliteError → Bool
  | .noSuchTable _ | .noSuchIndex _ | .tableExists _ | .indexExists _ => true
  | _ => false

/-- The message reaches the conversion under the code 1, by either way. -/
inductive Reports (message : Text) : RusqliteError → Prop where
  | failure {e : FfiError} (h : e.primaryCode = 1) :
      Reports message (.sqliteFailure e (some message))
  | input {e : FfiError} (h : e.primaryCode = 1) (sql : Text) (offset : Int) :
      Reports message (.sqlInputError e message sql offset)

theorem classifySqliteError_text (U : CaseTable) {e : FfiError} (h : e.primaryCode = 1)
    (message : Text) :
    classifySqliteError U e message =
      (textClass U message).getD (.sqliteFailure e.primaryCode e.extendedCode (some message)) := by
  have hcode : ∀ k : Int, k ≠ 1 → e.primaryCode ≠ k := fun k hk he => hk (he.symm.trans h)
  unfold classifySqliteError textClass
  simp only [hcode 8 (by decide),hcode 9 (by decide),hcode 5 (by decide),hcode 6 (by decide),
    hcode 17 (by decide),hcode 23 (by decide),hcode 19 (by decide),if_false,or_self]
  split_ifs <;> rfl

theorem byText_of_textClass {U : CaseTable} {message : Text} {err : SqliteError}
    (h : textClass U message = some err) : err.byText = true := by
  unfold textClass at h
  split_ifs at h <;> cases h <;> rfl

theorem fromRusqlite_reports (U : CaseTable) (display : FfiError → Text) {message : Text}
    {r : RusqliteError} (hr : Reports message r) :
    (∀ err, textClass U message = some err → fromRusqlite U display r = err) ∧
      (textClass U message = none → (fromRusqlite U display r).byText = false) := by
  cases hr with
  | failure h =>
    simp only [fromRusqlite,Option.getD_some,classifySqliteError_text U h]
    constructor
    · intro err herr
      rw [herr,Option.getD_some]
    · intro hnone
      rw [hnone,Option.getD_none]
      rfl
  | input h sql offset =>
    simp only [fromRusqlite,classifySqliteError_text U h]
    constructor
    · intro err herr
      have hby := byText_of_textClass herr
      rw [herr,Option.getD_some]
      cases err <;> first | rfl | cases hby
    · intro hnone
      rw [hnone,Option.getD_none]
      rfl

structure WellClassified (convert : RusqliteError → SqliteError) (t c i : Text) (n m : Nat) :
    Prop where
  noTable : ∀ r, Reports (noSuchTableMessage t) r → convert r = .noSuchTable (noSuchTableMessage t)
  noIndex : ∀ r, Reports (noSuchIndexMessage i) r → convert r = .noSuchIndex (noSuchIndexMessage i)
  tableThere : ∀ r, Reports (tableExistsMessage t) r →
    convert r = .tableExists (tableExistsMessage t)
  indexThere : ∀ r, Reports (indexExistsMessage i) r →
    convert r = .indexExists (indexExistsMessage i)
  noColumn : ∀ r, Reports (noColumnMessage t c) r → (convert r).byText = false
  valueCount : ∀ r, Reports (valueCountMessage t n m) r → (convert r).byText = false

/-- A message about a table is taken for an existing table exactly when one of the names
in it holds the two words. -/
theorem messages_well_classified_iff (U : CaseTable) (display : FfiError → Text) (t c i : Text)
    (n m : Nat) :
    WellClassified (fromRusqlite U display) t c i n m ↔ ¬ Impersonates t ∧ ¬ Impersonates c := by
  constructor
  · intro h
    rw [← not_or,← infix_noColumnMessage,← infix_toLowercase U]
    intro hwords
    have hr : Reports (noColumnMessage t c) (.sqliteFailure ⟨1⟩ (some (noColumnMessage t c))) :=
      .failure rfl
    have hclass : textClass U (noColumnMessage t c) = some (.tableExists (noColumnMessage t c)) :=
      (textClass_table U _).trans (if_pos hwords)
    have hfalse := h.noColumn _ hr
    rw [(fromRusqlite_reports U display hr).1 _ hclass] at hfalse
    cases hfalse
  · rintro ⟨ht,hc⟩
    constructor
    · intro r hr
      exact (fromRusqlite_reports U display hr).1 _ (textClass_noSuchTable U _)
    · intro r hr
      exact (fromRusqlite_reports U display hr).1 _ (textClass_noSuchIndex U _)
    · intro r hr
      exact (fromRusqlite_reports U display hr).1 _
        ((textClass_table U _).trans (if_pos (mem_tableExists U table t)))
    · intro r hr
      exact (fromRusqlite_reports U display hr).1 _
        ((textClass_index U _).trans (if_pos (mem_tableExists U index i)))
    · intro r hr
      have hno : ¬ alreadyExists <:+: toLowercase U (noColumnMessage t c) := by
        rw [infix_toLowercase,infix_noColumnMessage]
        exact not_or.mpr ⟨ht,hc⟩
      exact (fromRusqlite_reports U display hr).2 ((textClass_table U _).trans (if_neg hno))
    · intro r hr
      have hno : ¬ alreadyExists <:+: toLowercase U (valueCountMessage t n m) := by
        rwa [infix_toLowercase,infix_valueCountMessage]
      exact (fromRusqlite_reports U display hr).2 ((textClass_table U _).trans (if_neg hno))

def caseless : CaseTable where
  lower _ c _ := [if isAscii c then kelvin else c]
  lower_ne_nil _ _ _ := List.cons_ne_nil _ _
  lower_beyond _ c _ d hd := by
    by_cases hc : isAscii c = true
    · obtain rfl : d = kelvin := by simpa [hc] using hd
      decide
    · obtain rfl : d = c := by simpa [hc] using hd
      simpa [isAscii] using hc

/-- A column `was_Already exists` that table `t` does not have: the statement that names
it is refused with an existing table. -/
theorem missing_column_reported_as_existing_table :
    fromRusqlite caseless (fun _ => [])
        (.sqlInputError ⟨1⟩ "table t has no column named was_Already exists".toList
          "INSERT INTO t(\"was_Already exists\") VALUES(1)".toList 14) =
      .tableExists "table t has no column named was_Already exists".toList := by
  decide

end Xqlite.Classify

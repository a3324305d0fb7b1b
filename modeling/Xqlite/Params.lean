import Xqlite.Lib.Logged
import Xqlite.RowTerms
set_option autoImplicit false

namespace Xqlite

def elixirTermToRusqliteValue : Term → Except XqliteError Value
  | .atom name =>
      if name = "nil" then .ok .null
      else if name = "true" then .ok (.integer 1)
      else if name = "false" then .ok (.integer 0)
      else .error (.unsupportedAtom name)
  | .int n =>
      match (Term.int n).decodeI64 with
      | some i => .ok (.integer i)
      | none => .error (.cannotConvertToSqliteValue (.int n) badArg)
  | .float bits => .ok (.real bits)
  | .binary bytes => if fromUtf8 bytes = none then .ok (.text bytes) else .ok (.blob bytes)
  | term => .error (.unsupportedDataType term.getType)

/-- The head items of a list cell chain and whether it ends in `[]`. -/
def Term.listItems : Term → Option (List Term × Bool)
  | .list items => some (items,true)
  | .improper items _ => some (items,false)
  | _ => none

def Term.isEmptyList : Term → Bool
  | .list [] => true
  | _ => false

def Term.decodePair : Term → Option (String × Term)
  | .tuple [.atom key,value] => some (key,value)
  | _ => none

def isKeyword (listTerm : Term) : Bool :=
  match listTerm.listItems with
  | some (first :: _,_) => first.decodePair.isSome
  | _ => false

/-- Convert the items one by one. At the tail of an improper list the iterator
panics. -/
def decodeItems {α : Type} (decode : Term → Except XqliteError α) (proper : Bool) :
    List Term → Outcome XqliteError (List α)
  | [] => if proper then .ok [] else .crash
  | term :: rest =>
      match decode term with
      | .error e => .error e
      | .ok a =>
        match decodeItems decode proper rest with
        | .ok as => .ok (a :: as)
        | .error e => .error e
        | .crash => .crash

def decodeKeywordItem (term : Term) : Except XqliteError (String × Value) :=
  match term.decodePair with
  | none => .error (.expectedKeywordTuple term)
  | some (key,value) => (elixirTermToRusqliteValue value).map (fun v => (":" ++ key,v))

def decodeExecKeywordParams (listTerm : Term) : Outcome XqliteError (List (String × Value)) :=
  match listTerm.listItems with
  | none => .error (.expectedKeywordList listTerm)
  | some (items,proper) => decodeItems decodeKeywordItem proper items

def decodePlainListParams (listTerm : Term) : Outcome XqliteError (List Value) :=
  match listTerm.listItems with
  | none => .error (.expectedList "" listTerm)
  | some (items,proper) => decodeItems elixirTermToRusqliteValue proper items

/-- What the bind functions answer, by the position of the parameter: the index
looked up for its name, and the code and message of the bind itself. -/
structure BindAnswers where
  parameterIndex : Nat → Int
  bind : Nat → Int × Option String

def cIntMax : Nat := 2^31 - 1

def bindValueToRawStmt (bindIdx : Int) (value : Value) (answer : Int × Option String) :
    Except XqliteError Unit :=
  let bound : Except XqliteError Unit :=
    if answer.1 = Ffi.sqliteOk then .ok ()
    else .error (.sqliteFailure answer.1 (some (answer.2.getD
      ("Parameter binding failed at index " ++ toString bindIdx ++ " (code " ++
        toString answer.1 ++ ")"))))
  match value with
  | .text bytes =>
      if bytes.length ≤ cIntMax then bound
      else .error (.cannotConvertToSqliteValue
        (.binary ("<text len " ++ toString bytes.length ++ ">").toUTF8.toList)
        "text length exceeds c_int range")
  | .blob bytes =>
      if bytes.length ≤ cIntMax then bound
      else .error (.cannotConvertToSqliteValue
        (.binary ("<blob len " ++ toString bytes.length ++ ">").toUTF8.toList)
        "blob length exceeds c_int range")
  | _ => bound

def bindPositionalFrom (a : BindAnswers) (i : Nat) : List Value → Except XqliteError Unit
  | [] => .ok ()
  | value :: rest => do
      bindValueToRawStmt (i+1) value (a.bind i)
      bindPositionalFrom a (i+1) rest

def bindPositionalParamsFfi (a : BindAnswers) (params : List Value) : Except XqliteError Unit :=
  bindPositionalFrom a 0 params

def bindNamedFrom (a : BindAnswers) (i : Nat) : List (String × Value) → Except XqliteError Unit
  | [] => .ok ()
  | (name,value) :: rest => do
      if name.toList.contains '\x00' then throw (.invalidParameterName name)
      if a.parameterIndex i = 0 then throw (.invalidParameterName name)
      bindValueToRawStmt (a.parameterIndex i) value (a.bind i)
      bindNamedFrom a (i+1) rest

def bindNamedParamsFfi (a : BindAnswers) (params : List (String × Value)) :
    Except XqliteError Unit :=
  bindNamedFrom a 0 params

end Xqlite

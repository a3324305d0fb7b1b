import Mathlib.Algebra.Order.Ring.Int
import Mathlib.Data.List.Basic
set_option autoImplicit false

/-! The values that cross the NIF boundary: Elixir terms, SQLite values, and the
error enumeration. Where the source stores the printed form of a term in an
error, the term itself is stored here. -/

namespace Xqlite

inductive TermType where
  | atom | binary | integer | float | list | map | function | pid | port | ref | tuple
  deriving DecidableEq, Repr

/-- Strings and other binaries are their bytes. A float is its 64-bit pattern.
An improper list keeps its last tail, since a list iterator panics on it. -/
inductive Term where
  | atom (name : String)
  | int (n : Int)
  | float (bits : UInt64)
  | binary (bytes : List UInt8)
  | list (items : List Term)
  | improper (items : List Term) (tail : Term)
  | tuple (items : List Term)
  | map (entries : List (Term × Term))
  | handle (type : TermType) (ident : Nat)
  deriving Repr, Inhabited

def Term.getType : Term → TermType
  | .atom _ => .atom
  | .int _ => .integer
  | .float _ => .float
  | .binary _ => .binary
  | .list _ | .improper _ _ => .list
  | .tuple _ => .tuple
  | .map _ => .map
  | .handle type _ => type

/-- `decode::<i64>`: integers outside the 64-bit range are bignums and refused. -/
def Term.decodeI64 : Term → Option Int
  | .int n => if -2^63 ≤ n ∧ n < 2^63 then some n else none
  | _ => none

/-- `rusqlite::types::Value`; text is the bytes of a valid UTF-8 string. -/
inductive Value where
  | null
  | integer (n : Int)
  | real (bits : UInt64)
  | text (bytes : List UInt8)
  | blob (bytes : List UInt8)
  deriving DecidableEq, Repr, Inhabited

inductive XqliteError where
  | cannotConvertToSqliteValue (value : Term) (reason : String)
  | expectedKeywordList (value : Term)
  | expectedKeywordTuple (value : Term)
  | expectedList (note : String) (value : Term)
  | unsupportedAtom (atomValue : String)
  | unsupportedDataType (termType : TermType)
  | invalidParameterCount (provided expected : Nat)
  | invalidParameterName (name : String)
  | invalidPragmaName (name : String)
  | nulErrorInString
  | multipleStatements
  | cannotExecute (reason : String)
  | cannotExecutePragma (name : String) (value : Option Term) (reason : String)
  | utf8Error (column : Nat) (reason : String)
  | sqliteFailure (code : Int) (message : Option String)
  | connectionClosed
  | statementFinalized
  | internalEncodingError (context : String)
  deriving Repr

/-- The `Debug` of rustler's `Error::BadArg`. -/
def badArg : String := "\x7berror, badarg\x7d"

namespace Ffi

def sqliteOk : Int := 0
def sqliteDone : Int := 101

end Ffi

end Xqlite

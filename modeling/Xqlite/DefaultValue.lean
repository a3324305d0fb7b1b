import Mathlib.Data.List.DropRight
import Xqlite.Lib.Radix
import Xqlite.Lib.Split
import Xqlite.Prepare
set_option autoImplicit false

namespace Xqlite.Default
open Split Radix
open Prepare (isWhitespace)

abbrev Text := List Char

inductive CurrentKind where
  | time | date | timestamp
  deriving DecidableEq, Repr

/-- A float is its 64-bit pattern. -/
inductive DefaultValue where
  | none
  | literalNull
  | literalBool (b : Bool)
  | literalInt (i : Int)
  | literalFloat (bits : UInt64)
  | literalText (s : Text)
  | blob (bytes : List UInt8)
  | current (kind : CurrentKind)
  | expr (s : Text)
  deriving DecidableEq, Repr

def trim (s : Text) : Text := (s.dropWhile isWhitespace).rdropWhile isWhitespace

def eqIgnoreAsciiCase (t : Text) (keyword : String) : Bool :=
  t.map Char.toLower = keyword.toList.map Char.toLower

/-- A quote inside must be doubled. -/
def unescape : Text → Option Text
  | [] => some []
  | '\'' :: '\'' :: rest => (unescape rest).map ('\'' :: ·)
  | '\'' :: _ => none
  | c :: rest => (unescape rest).map (c :: ·)

def quoted (t : Text) : Option Text := (t.dropPrefix? ['\'']).bind fun s => s.dropSuffix? ['\'']

def parseTextLiteral (t : Text) : Option Text := (quoted t).bind unescape

def toDigit (radix : Nat) (c : Char) : Option Nat :=
  let d :=
    if c.isDigit then some (c.toNat - 48)
    else if 97 ≤ c.toNat ∧ c.toNat ≤ 122 then some (c.toNat - 87)
    else if 65 ≤ c.toNat ∧ c.toNat ≤ 90 then some (c.toNat - 55)
    else none
  d.filter fun d => d < radix

def isHexDigit (c : Char) : Bool := (toDigit 16 c).isSome

/-- The length in bytes is odd or even as the number of characters is, once all of them
are hexadecimal digits. -/
def parsePairs : Text → Option (List UInt8)
  | [] => some []
  | [_] => none
  | hi :: lo :: rest => do
      let hi ← toDigit 16 hi
      let lo ← toDigit 16 lo
      let bytes ← parsePairs rest
      pure (UInt8.ofNat (hi*16 + lo) :: bytes)

def parseBlobLiteral (t : Text) : Option (List UInt8) := do
  let rest ← (t.dropPrefix? ['x']).or (t.dropPrefix? ['X'])
  let inner ← quoted rest
  if inner.length % 2 ≠ 0 ∨ ¬ inner.all isHexDigit then none else parsePairs inner

def stripSign (t : Text) : Text := ((t.dropPrefix? ['-']).or (t.dropPrefix? ['+'])).getD t

def stripHex (body : Text) : Option Text :=
  (body.dropPrefix? ['0','x']).or (body.dropPrefix? ['0','X'])

def looksLikeInt (t : Text) : Bool :=
  let body := stripSign t
  match stripHex body with
  | some hex => !hex.isEmpty && hex.all isHexDigit
  | none => !body.isEmpty && body.all Char.isDigit

/-- The loop of `from_str_radix`: an error is a character that is no digit, or a number
beyond the limit. -/
def fromDigits (limit radix : Nat) (ds : Text) : Option Nat :=
  (ds.mapM (toDigit radix)).bind (accumulate limit radix 0)

/-- `parse::<i64>`. A negative number is built downwards, so its limit is one higher. -/
def parseI64 : Text → Option Int
  | [] => none
  | [c] => if c = '-' ∨ c = '+' then none else (fromDigits (2^63 - 1) 10 [c]).map Int.ofNat
  | c :: ds =>
    if c = '-' then (fromDigits (2^63) 10 ds).map fun n => -Int.ofNat n
    else if c = '+' then (fromDigits (2^63 - 1) 10 ds).map Int.ofNat
    else (fromDigits (2^63 - 1) 10 (c :: ds)).map Int.ofNat

def parseHexU64 : Text → Option Nat
  | [] => none
  | [c] => if c = '+' then none else fromDigits (2^64 - 1) 16 [c]
  | c :: ds => if c = '+' then fromDigits (2^64 - 1) 16 ds else fromDigits (2^64 - 1) 16 (c :: ds)

def wrapI64 (n : Nat) : Int := if n < 2^63 then n else n - 2^64

def checkedNeg (v : Int) : Option Int := if v = -2^63 then none else some (-v)

/-- The bits of a hexadecimal literal are those of an `i64`. -/
def parseHexLiteral (neg : Bool) (hex : Text) : Option Int :=
  (parseHexU64 hex).bind fun u => if neg then checkedNeg (wrapI64 u) else some (wrapI64 u)

def parseIntLiteral (t : Text) : Option Int :=
  let (neg,body) :=
    match t.dropPrefix? ['-'] with
    | some rest => (true,rest)
    | none => (false,(t.dropPrefix? ['+']).getD t)
  match stripHex body with
  | some hex => parseHexLiteral neg hex
  | none => parseI64 (if neg then t else body)

def isExponentMark (c : Char) : Bool := c == 'e' || c == 'E'

def mantissaOk (mantissa : Text) : Bool :=
  match cutAt (· == '.') mantissa with
  | some (i,f) => (!i.isEmpty || !f.isEmpty) && i.all Char.isDigit && f.all Char.isDigit
  | none => !mantissa.isEmpty && mantissa.all Char.isDigit

def exponentOk (e : Text) : Bool := !(stripSign e).isEmpty && (stripSign e).all Char.isDigit

/-- Without a point or an exponent this is an integer's shape. -/
def floatShaped (t : Text) : Bool :=
  let body := stripSign t
  match cutAt isExponentMark body with
  | some (mantissa,e) => mantissaOk mantissa && exponentOk e
  | none => mantissaOk body && body.contains '.'

/-- The binary64 number nearest to `num / den`, of two equally near ones the even one,
as its bits without the sign; beyond the largest finite one there is none. -/
def roundF64 (num den : Nat) : Option Nat :=
  if num = 0 then some 0
  else
    let k : Int := num.log2 - den.log2
    -- `2^top ≤ num / den < 2^(top+1)`
    let top := if num * 2^(-k).toNat < den * 2^k.toNat then k - 1 else k
    let e := max (top - 52) (-1074)
    let n := num * 2^(-e).toNat
    let d := den * 2^e.toNat
    let q := n / d
    let m := if d < 2*(n % d) ∨ (d = 2*(n % d) ∧ q % 2 = 1) then q + 1 else q
    let bits := (e + 1074).toNat * 2^52 + m
    if bits < 2047 * 2^52 then some bits else none

def digitOf (c : Char) : Nat := (toDigit 16 c).getD 0

def decimal (ds : Text) : Nat := value 10 (ds.map digitOf)

/-- `parse::<f64>` of a text of this shape; `none` when the result is not finite. -/
def parseF64 (t : Text) : Option UInt64 :=
  let (mantissa,exponent) := (cutAt isExponentMark (stripSign t)).getD (stripSign t,[])
  let (i,f) := (cutAt (· == '.') mantissa).getD (mantissa,[])
  let size := decimal (stripSign exponent)
  let scale := (if exponent.head? = some '-' then -(size : Int) else size) - f.length
  (roundF64 (decimal (i ++ f) * 10^scale.toNat) (10^(-scale).toNat)).map fun bits =>
    UInt64.ofNat (if t.head? = some '-' then 2^63 + bits else bits)

def parseFloatLiteral (t : Text) : Option UInt64 := if floatShaped t then parseF64 t else none

def classifyDefault : Option Text → DefaultValue
  | none => .none
  | some s =>
    let t := trim s
    if eqIgnoreAsciiCase t "NULL" then .literalNull
    else if eqIgnoreAsciiCase t "TRUE" then .literalBool true
    else if eqIgnoreAsciiCase t "FALSE" then .literalBool false
    else if eqIgnoreAsciiCase t "CURRENT_TIME" then .current .time
    else if eqIgnoreAsciiCase t "CURRENT_DATE" then .current .date
    else if eqIgnoreAsciiCase t "CURRENT_TIMESTAMP" then .current .timestamp
    else
      match parseTextLiteral t with
      | some text => .literalText text
      | none =>
        match parseBlobLiteral t with
        | some bytes => .blob bytes
        | none =>
          if looksLikeInt t then
            match parseIntLiteral t with
            | some i => .literalInt i
            | none => .expr s
          else
            match parseFloatLiteral t with
            | some f => .literalFloat f
            | none => .expr s

example : classifyDefault (some " -1.5e1\n".toList) = .literalFloat 0xC02E000000000000 := by decide

example : classifyDefault (some "9e999".toList) = .expr "9e999".toList := by decide +kernel

end Xqlite.Default

import Xqlite.Terms
set_option autoImplicit false

namespace Xqlite

structure Utf8Error where
  validUpTo : Nat
  errorLen : Option Nat
  deriving DecidableEq, Repr

def utf8CharWidth (b : UInt8) : Nat :=
  if b < 0x80 then 1
  else if 0xC2 ≤ b ∧ b ≤ 0xDF then 2
  else if 0xE0 ≤ b ∧ b ≤ 0xEF then 3
  else if 0xF0 ≤ b ∧ b ≤ 0xF4 then 4
  else 0

def isContinuation (b : UInt8) : Bool := 0x80 ≤ b && b ≤ 0xBF

/-- The second byte after a three- or four-byte lead: surrogates, overlong forms
and code points past the last plane are cut out here. -/
def secondByteOk (first second : UInt8) : Bool :=
  if first = 0xE0 then 0xA0 ≤ second && second ≤ 0xBF
  else if first = 0xED then 0x80 ≤ second && second ≤ 0x9F
  else if first = 0xF0 then 0x90 ≤ second && second ≤ 0xBF
  else if first = 0xF4 then 0x80 ≤ second && second ≤ 0x8F
  else isContinuation second

-- Deriving the equations of this match takes the depth.
set_option maxRecDepth 4000 in
def utf8ErrorFrom (offset : Nat) : List UInt8 → Option Utf8Error
  | [] => none
  | a :: rest =>
    match utf8CharWidth a, rest with
    | 1, rest => utf8ErrorFrom (offset+1) rest
    | 2, [] => some ⟨offset,none⟩
    | 2, b :: rest =>
        if isContinuation b then utf8ErrorFrom (offset+2) rest else some ⟨offset,some 1⟩
    | 3, [] => some ⟨offset,none⟩
    | 3, [b] => if secondByteOk a b then some ⟨offset,none⟩ else some ⟨offset,some 1⟩
    | 3, b :: c :: rest =>
        if ¬ secondByteOk a b then some ⟨offset,some 1⟩
        else if ¬ isContinuation c then some ⟨offset,some 2⟩
        else utf8ErrorFrom (offset+3) rest
    | 4, [] => some ⟨offset,none⟩
    | 4, [b] => if secondByteOk a b then some ⟨offset,none⟩ else some ⟨offset,some 1⟩
    | 4, [b,c] =>
        if ¬ secondByteOk a b then some ⟨offset,some 1⟩
        else if isContinuation c then some ⟨offset,none⟩ else some ⟨offset,some 2⟩
    | 4, b :: c :: d :: rest =>
        if ¬ secondByteOk a b then some ⟨offset,some 1⟩
        else if ¬ isContinuation c then some ⟨offset,some 2⟩
        else if ¬ isContinuation d then some ⟨offset,some 3⟩
        else utf8ErrorFrom (offset+4) rest
    | _, _ => some ⟨offset,some 1⟩

def fromUtf8 (bytes : List UInt8) : Option Utf8Error := utf8ErrorFrom 0 bytes

def Utf8Error.toText (e : Utf8Error) : String :=
  match e.errorLen with
  | some n => "invalid utf-8 sequence of " ++ toString n ++ " bytes from index " ++
      toString e.validUpTo
  | none => "incomplete utf-8 byte sequence from index " ++ toString e.validUpTo

example : fromUtf8 [0x67,0xC3,0xA9] = none := by decide
example : (fromUtf8 [0x67,0xFF,0xFE]).map Utf8Error.toText =
    some "invalid utf-8 sequence of 1 bytes from index 1" := by decide

/-- What SQLite answers for one column of the current row. The two null-pointer
answers are the ones the decoder tests for. -/
inductive Cell where
  | integer (n : Int)
  | float (bits : UInt64)
  | text (bytes : List UInt8)
  | textNull
  | blob (bytes : List UInt8)
  | blobNull (len : Nat)
  | null
  | unknown (columnType : Int)
  deriving DecidableEq, Repr

def encodeF64 (bits : UInt64) : Term :=
  if bits.toNat / 2^52 % 2^11 ≠ 2047 then .float bits
  else if bits = 0x7FF0000000000000 then .atom "positive_infinity"
  else if bits = 0xFFF0000000000000 then .atom "negative_infinity"
  else .atom "nil"

def encodeVal : Value → Term
  | .null => .atom "nil"
  | .integer n => .int n
  | .real bits => encodeF64 bits
  | .text bytes => .binary bytes
  | .blob bytes => .binary bytes

def cellToTerm (i : Nat) : Cell → Except XqliteError Term
  | .integer n => .ok (.int n)
  | .float bits => .ok (encodeF64 bits)
  | .text bytes =>
      match fromUtf8 bytes with
      | none => .ok (.binary bytes)
      | some e => .error (.utf8Error i e.toText)
  | .textNull => .error (.internalEncodingError
      ("SQLite TEXT column pointer was null for column index " ++ toString i))
  | .blob bytes => .ok (.binary bytes)
  | .blobNull len =>
      if len = 0 then .ok (.binary [])
      else .error (.internalEncodingError
        ("SQLite BLOB column pointer was null for non-empty blob (column index " ++
          toString i ++ ")"))
  | .null => .ok (.atom "nil")
  | .unknown columnType => .error (.internalEncodingError
      ("Unknown SQLite column type: " ++ toString columnType ++ " for column index " ++
        toString i))

def cellsToTerms (i : Nat) : List Cell → Except XqliteError (List Term)
  | [] => .ok []
  | c :: cs => do
      let t ← cellToTerm i c
      let ts ← cellsToTerms (i+1) cs
      pure (t :: ts)

def sqliteRowToElixirTerms (cells : List Cell) : Except XqliteError (List Term) :=
  cellsToTerms 0 cells

theorem cellsToTerms_length {i : Nat} {cells : List Cell} {terms : List Term}
    (h : cellsToTerms i cells = .ok terms) : terms.length = cells.length := by
  induction cells generalizing i terms with
  | nil =>
    cases h
    rfl
  | cons c cs ih =>
    cases hc : cellToTerm i c with
    | error e => simp [cellsToTerms,hc,bind,Except.bind] at h
    | ok t =>
      cases hcs : cellsToTerms (i+1) cs with
      | error e => simp [cellsToTerms,hc,hcs,bind,Except.bind] at h
      | ok ts =>
        simp only [cellsToTerms,hc,hcs,bind,Except.bind,pure,Except.pure,
          Except.ok.injEq] at h
        have hlen := ih hcs
        rw [← h]
        simp [hlen]

theorem sqliteRowToElixirTerms_length {cells : List Cell} {terms : List Term}
    (h : sqliteRowToElixirTerms cells = .ok terms) : terms.length = cells.length :=
  cellsToTerms_length h

end Xqlite

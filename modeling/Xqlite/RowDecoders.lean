import Xqlite.Utf8
set_option autoImplicit false

/-! The two ways a row becomes Elixir terms: over rusqlite's values, in `query` and
`execute`, and over SQLite's column pointers, in streams and statements. Here the
allocation of a binary may fail; `alloc n` says that one of `n` bytes is granted. -/

namespace Xqlite.Row

/-- A cell of a row, by its storage class. Text is any bytes. -/
inductive Stored where
  | null
  | integer (n : Int)
  | real (bits : UInt64)
  | text (bytes : List UInt8)
  | blob (bytes : List UInt8)
  deriving DecidableEq, Repr

inductive Backing where
  | owned | resource
  deriving DecidableEq, Repr

/-- A binary of the BEAM. Where its bytes are kept is not seen by Elixir. -/
structure Binary where
  backing : Backing
  bytes : List UInt8
  deriving DecidableEq, Repr

def Binary.encode (b : Binary) : Term := .binary b.bytes

/-- `OwnedBinary::new`, filled with the bytes. -/
def ownedBinary (alloc : Nat → Bool) (bytes : List UInt8) : Option Binary :=
  if alloc bytes.length then some ⟨.owned,bytes⟩ else none

def heapBinaryThreshold : Nat := 64

def wrapBlobResource (bytes : List UInt8) : Binary := ⟨.resource,bytes⟩

def encodeBlob (alloc : Nat → Bool) (bytes : List UInt8) : Binary :=
  if bytes.length > heapBinaryThreshold then wrapBlobResource bytes
  else
    match ownedBinary alloc bytes with
    | some b => b
    | none => wrapBlobResource bytes

def encodeText (alloc : Nat → Bool) (bytes : List UInt8) : Except XqliteError Term :=
  match ownedBinary alloc bytes with
  | some b => .ok b.encode
  | none => .error (.internalEncodingError
      ("Failed to allocate " ++ toString bytes.length ++ "-byte OwnedBinary for TEXT value"))

def encodeVal (alloc : Nat → Bool) : Value → Except XqliteError Term
  | .null => .ok (.atom "nil")
  | .integer n => .ok (.int n)
  | .real bits => .ok (encodeF64 bits)
  | .text bytes => encodeText alloc bytes
  | .blob bytes => .ok (encodeBlob alloc bytes).encode

/-- rusqlite's `Row::get::<Value>`; `rejected` is its error for text that is not UTF-8. -/
def get (rejected : Nat → Utf8Error → XqliteError) (i : Nat) : Stored → Except XqliteError Value
  | .null => .ok .null
  | .integer n => .ok (.integer n)
  | .real bits => .ok (.real bits)
  | .text bytes =>
      match fromUtf8 bytes with
      | none => .ok (.text bytes)
      | some e => .error (rejected i e)
  | .blob bytes => .ok (.blob bytes)

def processRow (alloc : Nat → Bool) (rejected : Nat → Utf8Error → XqliteError) (i : Nat) :
    List Stored → Except XqliteError (List Term)
  | [] => .ok []
  | cell :: row => do
      let val ← get rejected i cell
      let term ← encodeVal alloc val
      let terms ← processRow alloc rejected (i+1) row
      pure (term :: terms)

/-- `rows` is what `rows.next()` returns, call by call, until there is no row left. -/
def processRows (alloc : Nat → Bool) (rejected : Nat → Utf8Error → XqliteError) :
    List (Except XqliteError (List Stored)) → Except XqliteError (List (List Term))
  | [] => .ok []
  | .error e :: _ => .error e
  | .ok row :: rows => do
      let terms ← processRow alloc rejected 0 row
      let results ← processRows alloc rejected rows
      pure (terms :: results)

def columnToTerm (alloc : Nat → Bool) (i : Nat) : Cell → Except XqliteError Term
  | .text bytes =>
      match fromUtf8 bytes with
      | none => encodeText alloc bytes
      | some e => .error (.utf8Error i e.toText)
  | .blob bytes =>
      match ownedBinary alloc bytes with
      | some b => .ok b.encode
      | none => .error (.internalEncodingError
          ("Failed to allocate " ++ toString bytes.length ++ "-byte OwnedBinary for blob"))
  | .blobNull 0 =>
      match ownedBinary alloc [] with
      | some b => .ok b.encode
      | none => .error (.internalEncodingError "Failed to allocate 0-byte OwnedBinary")
  | cell => cellToTerm i cell

def columnsToTerms (alloc : Nat → Bool) (i : Nat) : List Cell → Except XqliteError (List Term)
  | [] => .ok []
  | cell :: cells => do
      let term ← columnToTerm alloc i cell
      let terms ← columnsToTerms alloc (i+1) cells
      pure (term :: terms)

def sqliteRowToElixirTerms (alloc : Nat → Bool) (cells : List Cell) :
    Except XqliteError (List Term) :=
  columnsToTerms alloc 0 cells

/-- What the column functions of SQLite may answer for a cell. The pointer to an empty
blob may be null. -/
inductive Presents : Stored → Cell → Prop where
  | null : Presents .null .null
  | integer (n : Int) : Presents (.integer n) (.integer n)
  | real (bits : UInt64) : Presents (.real bits) (.float bits)
  | text (bytes : List UInt8) : Presents (.text bytes) (.text bytes)
  | blob (bytes : List UInt8) : Presents (.blob bytes) (.blob bytes)
  | emptyBlob : Presents (.blob []) (.blobNull 0)

def IsUtf8 (bytes : List UInt8) : Prop :=
  ∃ s : String, s.toList.flatMap String.utf8EncodeChar = bytes

def Stored.readable : Stored → Bool
  | .text bytes => (fromUtf8 bytes).isNone
  | _ => true

def Stored.term : Stored → Term
  | .null => .atom "nil"
  | .integer n => .int n
  | .real bits => encodeF64 bits
  | .text bytes | .blob bytes => .binary bytes

theorem toOption_cons {ε α : Type} {first : Except ε α} {rest : Except ε (List α)} {b bs : Bool}
    {a : α} {as : List α} (hfirst : first.toOption = if b then some a else none)
    (hrest : rest.toOption = if bs then some as else none) :
    (do let x ← first
        let xs ← rest
        pure (x :: xs) : Except ε (List α)).toOption =
      if b && bs then some (a :: as) else none := by
  cases first with
  | error e =>
    cases b with
    | true => cases hfirst
    | false => rfl
  | ok x =>
    cases b with
    | false => cases hfirst
    | true =>
      obtain rfl : x = a := Option.some.inj hfirst
      cases rest with
      | error e =>
        cases bs with
        | true => cases hrest
        | false => rfl
      | ok xs =>
        cases bs with
        | false => cases hrest
        | true =>
          obtain rfl : xs = as := Option.some.inj hrest
          rfl

/-- On either side of the threshold, with or without memory for a copy, Elixir sees the
same binary. -/
theorem encodeBlob_encode (alloc : Nat → Bool) (bytes : List UInt8) :
    (encodeBlob alloc bytes).encode = .binary bytes := by
  unfold encodeBlob ownedBinary
  split_ifs <;> rfl

theorem encodeText_bytes (alloc : Nat → Bool) (bytes : List UInt8) :
    ((∃ term, encodeText alloc bytes = .ok term) ↔ alloc bytes.length = true) ∧
    ∀ term, encodeText alloc bytes = .ok term → term = .binary bytes := by
  unfold encodeText ownedBinary
  cases hgranted : alloc bytes.length with
  | false => exact ⟨by simp,fun term h => by cases h⟩
  | true =>
    refine ⟨by simp,fun term h => ?_⟩
    cases h
    rfl

section Granted

variable {alloc : Nat → Bool} (halloc : ∀ n, alloc n = true)
include halloc

theorem ownedBinary_granted (bytes : List UInt8) :
    ownedBinary alloc bytes = some ⟨.owned,bytes⟩ := by
  simp [ownedBinary,halloc]

theorem encodeVal_granted (val : Value) : encodeVal alloc val = .ok (Xqlite.encodeVal val) := by
  cases val with
  | text bytes => simp [encodeVal,encodeText,ownedBinary_granted halloc,Xqlite.encodeVal,Binary.encode]
  | blob bytes => simp [encodeVal,encodeBlob_encode alloc,Xqlite.encodeVal]
  | _ => rfl

theorem columnToTerm_granted (i : Nat) (cell : Cell) :
    columnToTerm alloc i cell = cellToTerm i cell := by
  cases cell with
  | text bytes =>
    cases hutf8 : fromUtf8 bytes <;>
      simp [columnToTerm,cellToTerm,hutf8,encodeText,ownedBinary_granted halloc,Binary.encode]
  | blob bytes => simp [columnToTerm,cellToTerm,ownedBinary_granted halloc,Binary.encode]
  | blobNull len =>
    cases len with
    | zero => simp [columnToTerm,cellToTerm,ownedBinary_granted halloc,Binary.encode]
    | succ len => rfl
  | _ => rfl

theorem columnsToTerms_granted (i : Nat) (cells : List Cell) :
    columnsToTerms alloc i cells = cellsToTerms i cells := by
  induction cells generalizing i with
  | nil => rfl
  | cons cell cells ih => simp only [columnsToTerms,cellsToTerms,columnToTerm_granted halloc,ih]

/-- With memory this is the decoder in the model of streams and statements. -/
theorem sqliteRowToElixirTerms_granted (cells : List Cell) :
    sqliteRowToElixirTerms alloc cells = Xqlite.sqliteRowToElixirTerms cells :=
  columnsToTerms_granted halloc 0 cells

theorem query_cell (rejected : Nat → Utf8Error → XqliteError) (i : Nat) (cell : Stored) :
    (get rejected i cell >>= encodeVal alloc).toOption =
      if cell.readable then some cell.term else none := by
  cases cell with
  | text bytes =>
    cases hutf8 : fromUtf8 bytes <;>
      simp [get,hutf8,bind,Except.bind,encodeVal_granted halloc,Xqlite.encodeVal,Stored.readable,
        Stored.term,Except.toOption]
  | _ =>
    simp [get,bind,Except.bind,encodeVal_granted halloc,Xqlite.encodeVal,Stored.readable,
      Stored.term,Except.toOption]

theorem stream_cell (i : Nat) {cell : Stored} {answer : Cell} (h : Presents cell answer) :
    (columnToTerm alloc i answer).toOption = if cell.readable then some cell.term else none := by
  rw [columnToTerm_granted halloc]
  cases h with
  | text bytes =>
    cases hutf8 : fromUtf8 bytes <;>
      simp [cellToTerm,hutf8,Stored.readable,Stored.term,Except.toOption]
  | _ => rfl

theorem processRow_toOption (rejected : Nat → Utf8Error → XqliteError) (i : Nat)
    (row : List Stored) : (processRow alloc rejected i row).toOption =
      if row.all Stored.readable then some (row.map Stored.term) else none := by
  induction row generalizing i with
  | nil => rfl
  | cons cell row ih =>
    have hassoc : processRow alloc rejected i (cell :: row) =
        (do let term ← get rejected i cell >>= encodeVal alloc
            let terms ← processRow alloc rejected (i+1) row
            pure (term :: terms)) := by
      cases hget : get rejected i cell <;> simp [processRow,hget,bind,Except.bind]
    rw [hassoc]
    exact toOption_cons (query_cell halloc rejected i cell) (ih (i+1))

theorem columnsToTerms_toOption (i : Nat) {row : List Stored} {cells : List Cell}
    (h : List.Forall₂ Presents row cells) : (columnsToTerms alloc i cells).toOption =
      if row.all Stored.readable then some (row.map Stored.term) else none := by
  induction h generalizing i with
  | nil => rfl
  | cons hcell _ ih => exact toOption_cons (stream_cell halloc i hcell) (ih (i+1))

theorem processRows_toOption (rejected : Nat → Utf8Error → XqliteError) (rows : List (List Stored)) :
    (processRows alloc rejected (rows.map .ok)).toOption =
      if rows.all (fun row => row.all Stored.readable) then some (rows.map (List.map Stored.term))
      else none := by
  induction rows with
  | nil => rfl
  | cons row rows ih => exact toOption_cons (processRow_toOption halloc rejected 0 row) ih

omit halloc in
theorem all_readable_iff (row : List Stored) :
    row.all Stored.readable = false ↔ ∃ bytes, Stored.text bytes ∈ row ∧ ¬IsUtf8 bytes := by
  rw [List.all_eq_false]
  constructor
  · rintro ⟨cell,hmem,hcell⟩
    cases cell with
    | text bytes =>
      refine ⟨bytes,hmem,?_⟩
      intro hutf8
      exact hcell (by simp [Stored.readable,fromUtf8_eq_none_iff.mpr hutf8])
    | _ => exact absurd rfl hcell
  · rintro ⟨bytes,hmem,hbytes⟩
    refine ⟨.text bytes,hmem,?_⟩
    intro hreadable
    exact hbytes (fromUtf8_eq_none_iff.mp (by simpa [Stored.readable] using hreadable))

/-- For every row the two decoders give the same terms or both fail, and they fail exactly
if a text in it is not UTF-8. -/
theorem row_decoders_agree (rejected : Nat → Utf8Error → XqliteError) {row : List Stored}
    {cells : List Cell} (h : List.Forall₂ Presents row cells) :
    (processRows alloc rejected [.ok row]).toOption =
        (sqliteRowToElixirTerms alloc cells).toOption.map (fun terms => [terms]) ∧
      ((sqliteRowToElixirTerms alloc cells).toOption = none ↔
        ∃ bytes, Stored.text bytes ∈ row ∧ ¬IsUtf8 bytes) := by
  have hquery := processRows_toOption halloc rejected [row]
  have hstream := columnsToTerms_toOption halloc 0 h
  rw [sqliteRowToElixirTerms,hstream,← all_readable_iff]
  cases hall : row.all Stored.readable with
  | false => exact ⟨by simpa [hall] using hquery,by simp⟩
  | true => exact ⟨by simpa [hall] using hquery,by simp⟩

end Granted

/-- An infinite float, an empty blob behind a null pointer and a text with a NUL in it. -/
theorem row_decoders_agree_mixed :
    (processRows (fun _ => true) (fun i e => .utf8Error i e.toText)
        [.ok [.real 0x7FF0000000000000,.blob [],.text [0x61,0,0xC3,0xA9]]]).toOption =
      (sqliteRowToElixirTerms (fun _ => true)
        [.float 0x7FF0000000000000,.blobNull 0,.text [0x61,0,0xC3,0xA9]]).toOption.map
          (fun terms => [terms]) :=
  (row_decoders_agree (fun _ => rfl) _
    (.cons (.real _) (.cons .emptyBlob (.cons (.text _) .nil)))).1

end Xqlite.Row

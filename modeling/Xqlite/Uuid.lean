import Xqlite.Lib.Base16
import Xqlite.Lib.SqlText
import Xqlite.Params
import Xqlite.RowDecoders
set_option autoImplicit false

/-! `Xqlite.TypeExtension.UUID`, and its values on the way through a column: bound as text
or as a blob, whichever their bytes allow, and read back. `none` is `:skip`. -/

namespace Xqlite.Uuid
open Codec
open SqlText (utf8)

def hyphen : UInt8 := 45

/-- `Base.decode16` with `case: :mixed`. -/
def encodeHex (hex : List UInt8) : Option Term := (Base16.decode hex).map .binary

def encode : Term → Option Term
  | .binary value =>
    if value.length = 36 then
      match readGroups hyphen [8,4,4,4,12] value with
      | some parts => encodeHex parts.flatten
      | none => none
    else none
  | _ => none

def decode : Term → Option Term
  | .binary value =>
    if value.length = 16 then
      some (.binary ([hyphen].intercalate (([4,2,2,2,6].splitLengths value).map Base16.encode)))
    else none
  | _ => none

def IsUuid (s : List UInt8) : Prop :=
  ∃ a b c d e : List UInt8,
    s = a ++ hyphen :: (b ++ hyphen :: (c ++ hyphen :: (d ++ hyphen :: e))) ∧
    a.length = 8 ∧ b.length = 4 ∧ c.length = 4 ∧ d.length = 4 ∧ e.length = 12 ∧
    (a ++ b ++ c ++ d ++ e).all Base16.isDigit = true

def downcase (s : List UInt8) : List UInt8 := s.map Base16.lower

theorem lower_hyphen (c : UInt8) : Base16.lower c = hyphen ↔ c = hyphen := by
  rw [← UInt8.toNat_inj,← UInt8.toNat_inj,Base16.toNat_lower]
  have hnat : hyphen.toNat = 45 := rfl
  rw [hnat]
  split_ifs <;> omega

def render (bytes : List UInt8) : List UInt8 :=
  writeGrouped hyphen Base16.encode [4,2,2,2,6] bytes

/-- The texts of the same sixteen bytes differ in their case only. -/
theorem canonical : Canonical (readGrouped hyphen Base16.decode [8,4,4,4,12]) render downcase
    fun bytes => bytes.length = 16 :=
  Base16.canonical.grouped Base16.even_encode lower_hyphen [4,2,2,2,6]

theorem isUuid_iff {s : List UInt8} :
    IsUuid s ↔ ∃ groups, readGroups hyphen [8,4,4,4,12] s = some groups ∧
      groups.flatten.all Base16.isDigit = true := by
  constructor
  · rintro ⟨a,b,c,d,e,rfl,ha,hb,hc,hd,he,hall⟩
    refine ⟨[a,b,c,d,e],readGroups_eq_some.mpr ⟨?_,?_⟩,?_⟩
    · simp [List.intercalate_cons_cons,List.intercalate_singleton]
    · simp only [List.map_cons,List.map_nil,ha,hb,hc,hd,he]
    · simpa using hall
  · rintro ⟨groups,hread,hall⟩
    obtain ⟨rfl,hlengths⟩ := readGroups_eq_some.mp hread
    obtain ⟨a,groups,rfl,ha,hlengths⟩ := List.map_eq_cons_iff.mp hlengths
    obtain ⟨b,groups,rfl,hb,hlengths⟩ := List.map_eq_cons_iff.mp hlengths
    obtain ⟨c,groups,rfl,hc,hlengths⟩ := List.map_eq_cons_iff.mp hlengths
    obtain ⟨d,groups,rfl,hd,hlengths⟩ := List.map_eq_cons_iff.mp hlengths
    obtain ⟨e,rfl,he⟩ := List.map_eq_singleton_iff.mp hlengths
    refine ⟨a,b,c,d,e,?_,ha,hb,hc,hd,he,?_⟩
    · simp [List.intercalate_cons_cons,List.intercalate_singleton]
    · simpa using hall

theorem IsUuid.length {s : List UInt8} (h : IsUuid s) : s.length = 36 := by
  obtain ⟨a,b,c,d,e,rfl,ha,hb,hc,hd,he,-⟩ := h
  simp only [List.length_append,List.length_cons,ha,hb,hc,hd,he]

theorem isSome_readGrouped (s : List UInt8) :
    (readGrouped hyphen Base16.decode [8,4,4,4,12] s).isSome = true ↔ IsUuid s := by
  rw [isUuid_iff,readGrouped]
  cases hread : readGroups hyphen [8,4,4,4,12] s with
  | none => simp
  | some groups =>
    obtain ⟨-,hlengths⟩ := readGroups_eq_some.mp hread
    have hpairs : groups.flatten.length % 2 = 0 := by rw [List.length_flatten,hlengths]; rfl
    rw [Option.bind_some,Base16.isSome_decode]
    simp only [hpairs,true_and,Option.some.injEq,exists_eq_left',List.all_eq_true]

theorem encode_eq (s : List UInt8) :
    encode (.binary s) = (readGrouped hyphen Base16.decode [8,4,4,4,12] s).map .binary := by
  by_cases hlength : s.length = 36
  · simp only [encode,if_pos hlength,readGrouped]
    cases readGroups hyphen [8,4,4,4,12] s <;> rfl
  · have hnone : readGrouped hyphen Base16.decode [8,4,4,4,12] s = none := by
      rw [← Option.not_isSome_iff_eq_none,isSome_readGrouped]
      exact fun h => hlength h.length
    simp only [encode,if_neg hlength,hnone,Option.map_none]

theorem encode_eq_some {s : List UInt8} {term : Term} :
    encode (.binary s) = some term ↔ ∃ bytes : List UInt8, term = .binary bytes ∧
      bytes.length = 16 ∧ downcase s = render bytes := by
  rw [encode_eq,Option.map_eq_some_iff]
  constructor
  · rintro ⟨bytes,hread,rfl⟩
    exact ⟨bytes,rfl,canonical.reads.mp hread⟩
  · rintro ⟨bytes,rfl,hbytes⟩
    exact ⟨bytes,canonical.reads.mpr hbytes,rfl⟩

theorem decode_eq {bytes : List UInt8} (h : bytes.length = 16) :
    decode (.binary bytes) = some (.binary (render bytes)) :=
  if_pos h

section Storage

/-- A column that applies no conversion. -/
def store : Value → Row.Stored
  | .null => .null
  | .integer n => .integer n
  | .real bits => .real bits
  | .text bytes => .text bytes
  | .blob bytes => .blob bytes

/-- `row.get` and `encode_val`, in column `i` of a row. -/
def readBack (alloc : Nat → Bool) (rejected : Nat → Utf8Error → XqliteError) (i : Nat)
    (value : Value) : Except XqliteError Term :=
  Row.get rejected i (store value) >>= Row.encodeVal alloc

def PickedFor (bytes : List UInt8) (value : Value) : Prop :=
  value = .text bytes ∧ Row.IsUtf8 bytes ∨ value = .blob bytes ∧ ¬ Row.IsUtf8 bytes

theorem bound_binary (bytes : List UInt8) :
    ∃ value, elixirTermToRusqliteValue (.binary bytes) = .ok value ∧ PickedFor bytes value := by
  by_cases hutf8 : fromUtf8 bytes = none
  · exact ⟨.text bytes,if_pos hutf8,.inl ⟨rfl,fromUtf8_eq_none_iff.mp hutf8⟩⟩
  · exact ⟨.blob bytes,if_neg hutf8,.inr ⟨rfl,fun h => hutf8 (fromUtf8_eq_none_iff.mpr h)⟩⟩

/-- Whatever is read back has the bytes that were bound, and only a text can fail to be
read, for want of memory. -/
theorem readBack_bound {bytes : List UInt8} {value : Value} (h : PickedFor bytes value)
    (alloc : Nat → Bool) (rejected : Nat → Utf8Error → XqliteError) (i : Nat) :
    ((∃ term, readBack alloc rejected i value = .ok term) ↔
      (Row.IsUtf8 bytes → alloc bytes.length = true)) ∧
    ∀ term, readBack alloc rejected i value = .ok term → term = .binary bytes := by
  rcases h with ⟨rfl,hutf8⟩ | ⟨rfl,hutf8⟩
  · have hread : readBack alloc rejected i (.text bytes) = Row.encodeText alloc bytes := by
      simp only [readBack,store,Row.get,fromUtf8_eq_none_iff.mpr hutf8]
      rfl
    obtain ⟨hgranted,hbytes⟩ := Row.encodeText_bytes alloc bytes
    rw [hread]
    exact ⟨hgranted.trans ⟨fun hmemory _ => hmemory,fun hmemory => hmemory hutf8⟩,hbytes⟩
  · have hread : readBack alloc rejected i (.blob bytes) = .ok (.binary bytes) :=
      congrArg Except.ok (Row.encodeBlob_encode alloc bytes)
    rw [hread]
    refine ⟨⟨fun _ hvalid => absurd hvalid hutf8,fun _ => ⟨_,rfl⟩⟩,fun term hterm => ?_⟩
    cases hterm
    rfl

end Storage

/-- What is said of the value that `s` is encoded to: its size, and that it comes back from
a column as `s` in lower case. Reading takes memory for a text. -/
structure Survives (s bytes : List UInt8) (value : Value) : Prop where
  size : bytes.length = 16
  bound : elixirTermToRusqliteValue (.binary bytes) = .ok value
  picked : PickedFor bytes value
  granted : ∀ alloc rejected i, alloc 16 = true → ∃ term, readBack alloc rejected i value = .ok term
  back : ∀ alloc rejected i term, readBack alloc rejected i value = .ok term →
    decode term = some (.binary (downcase s))

theorem survives_of_encode {s bytes : List UInt8}
    (h : encode (.binary s) = some (.binary bytes)) : ∃ value, Survives s bytes value := by
  obtain ⟨bytes',hbytes,hsize,hdown⟩ := encode_eq_some.mp h
  cases hbytes
  obtain ⟨value,hbound,hpicked⟩ := bound_binary bytes
  refine ⟨value,hsize,hbound,hpicked,?_,?_⟩
  · intro alloc rejected i hmemory
    exact (readBack_bound hpicked alloc rejected i).1.mpr fun _ => hsize.symm ▸ hmemory
  · intro alloc rejected i term hread
    rw [(readBack_bound hpicked alloc rejected i).2 term hread,decode_eq hsize,hdown]

theorem isSome_encode (term : Term) :
    (∃ value, encode term = some value) ↔ ∃ s, term = .binary s ∧ IsUuid s := by
  cases term with
  | binary s =>
    rw [← Option.isSome_iff_exists,encode_eq,Option.isSome_map,isSome_readGrouped]
    simp
  | _ => simp [encode]

/-- UUIDs of either case are accepted and nothing else is; they come back from storage in
lower case, and any sixteen bytes are those of the UUID they are shown as. -/
theorem uuid_survives :
    (∀ term, (∃ value, encode term = some value) ↔ ∃ s, term = .binary s ∧ IsUuid s) ∧
    (∀ s encoded, encode (.binary s) = some encoded →
      ∃ bytes value, encoded = .binary bytes ∧ Survives s bytes value) ∧
    (∀ bytes : List UInt8, bytes.length = 16 →
      ∃ text, decode (.binary bytes) = some text ∧ encode text = some (.binary bytes)) ∧
    ∀ s s' : List UInt8, IsUuid s →
      (encode (.binary s) = encode (.binary s') ↔ downcase s = downcase s') := by
  refine ⟨isSome_encode,?_,?_,?_⟩
  · intro s encoded h
    obtain ⟨bytes,rfl,-⟩ := encode_eq_some.mp h
    obtain ⟨value,hvalue⟩ := survives_of_encode h
    exact ⟨bytes,value,rfl,hvalue⟩
  · intro bytes hsize
    refine ⟨.binary (render bytes),decode_eq hsize,?_⟩
    rw [encode_eq,canonical.read_write hsize]
    rfl
  · intro s s' hs
    have hinjective : Function.Injective Term.binary := fun a b h => Term.binary.inj h
    rw [encode_eq,encode_eq,(Option.map_injective hinjective).eq_iff]
    exact canonical.read_eq_iff ((isSome_readGrouped s).mpr hs)

/-- The letters from a to p as sixteen bytes, which are stored as a text. -/
theorem uuid_survives_letters :
    encode (.binary (utf8 "61626364-6566-6768-696A-6B6C6D6E6F70")) =
        some (.binary (utf8 "abcdefghijklmnop")) ∧
      ∃ value, Survives (utf8 "61626364-6566-6768-696A-6B6C6D6E6F70") (utf8 "abcdefghijklmnop")
        value := by
  have hencoded : encode (.binary (utf8 "61626364-6566-6768-696A-6B6C6D6E6F70")) =
      some (.binary (utf8 "abcdefghijklmnop")) := by rfl
  obtain ⟨bytes,value,hbytes,hvalue⟩ := uuid_survives.2.1 _ _ hencoded
  cases hbytes
  exact ⟨hencoded,value,hvalue⟩

end Xqlite.Uuid

import Xqlite.Lib.Codec
set_option autoImplicit false

namespace Base16
open Codec

def lower (c : UInt8) : UInt8 := if 65 ≤ c.toNat ∧ c.toNat ≤ 90 then c+32 else c

def isDigit (c : UInt8) : Bool :=
  48 ≤ c.toNat && c.toNat ≤ 57 || 65 ≤ c.toNat && c.toNat ≤ 70 || 97 ≤ c.toNat && c.toNat ≤ 102

def value (c : UInt8) : Option Nat :=
  if 48 ≤ c.toNat ∧ c.toNat ≤ 57 then some (c.toNat-48)
  else if 65 ≤ c.toNat ∧ c.toNat ≤ 70 then some (c.toNat-55)
  else if 97 ≤ c.toNat ∧ c.toNat ≤ 102 then some (c.toNat-87)
  else none

def digit (d : Nat) : UInt8 := UInt8.ofNat (if d < 10 then 48+d else 87+d)

def encode (bytes : List UInt8) : List UInt8 :=
  bytes.flatMap fun b => [digit (b.toNat/16),digit (b.toNat%16)]

/-- Digits without a partner are not read. -/
def decode : List UInt8 → Option (List UInt8)
  | [] => some []
  | [_] => none
  | hi :: lo :: rest => do
      let x ← value hi
      let y ← value lo
      let bytes ← decode rest
      pure (UInt8.ofNat (x*16+y) :: bytes)

theorem toNat_lower (c : UInt8) :
    (lower c).toNat = if 65 ≤ c.toNat ∧ c.toNat ≤ 90 then c.toNat+32 else c.toNat := by
  unfold lower
  split_ifs with h
  · rw [UInt8.toNat_add]
    exact Nat.mod_eq_of_lt (by simp only [UInt8.reduceToNat]; omega)
  · rfl

theorem toNat_digit {d : Nat} (h : d < 16) :
    (digit d).toNat = if d < 10 then 48+d else 87+d := by
  rw [digit,UInt8.toNat_ofNat']
  split_ifs <;> omega

theorem value_eq_some {c : UInt8} {d : Nat} : value c = some d ↔ d < 16 ∧ lower c = digit d := by
  have hsmall : value c = some d → d < 16 := by
    unfold value
    split_ifs <;> intro h <;> cases h <;> omega
  constructor
  · intro h
    have hd := hsmall h
    refine ⟨hd,UInt8.toNat_inj.mp ?_⟩
    rw [toNat_lower,toNat_digit hd]
    unfold value at h
    split_ifs at h <;> cases h <;> split_ifs <;> omega
  · rintro ⟨hd,h⟩
    have hnat := congrArg UInt8.toNat h
    rw [toNat_lower,toNat_digit hd] at hnat
    unfold value
    split_ifs at hnat ⊢ <;> first | exact congrArg some (by omega) | omega

theorem isSome_value (c : UInt8) : (value c).isSome = isDigit c := by
  unfold value isDigit
  split_ifs <;> simp <;> omega

theorem encode_cons (b : UInt8) (bytes : List UInt8) :
    encode (b :: bytes) = digit (b.toNat/16) :: digit (b.toNat%16) :: encode bytes := rfl

theorem decode_pair {hi lo : UInt8} {rest bytes : List UInt8} :
    decode (hi :: lo :: rest) = some bytes ↔ ∃ x y more, value hi = some x ∧ value lo = some y ∧
      decode rest = some more ∧ UInt8.ofNat (x*16+y) :: more = bytes := by
  simp only [decode,Option.bind_eq_bind,Option.bind_eq_some_iff,Option.pure_def,Option.some.injEq]
  constructor
  · rintro ⟨x,hx,y,hy,more,hmore,heq⟩
    exact ⟨x,y,more,hx,hy,hmore,heq⟩
  · rintro ⟨x,y,more,hx,hy,hmore,heq⟩
    exact ⟨x,hx,y,hy,more,hmore,heq⟩

theorem decode_eq_some {s bytes : List UInt8} :
    decode s = some bytes ↔ s.map lower = encode bytes := by
  induction s using decode.induct generalizing bytes with
  | case1 =>
    cases bytes with
    | nil => exact iff_of_true rfl rfl
    | cons b bytes => simp [decode,encode_cons]
  | case2 c =>
    cases bytes with
    | nil => simp [decode,encode]
    | cons b bytes => simp [decode,encode_cons]
  | case3 hi lo rest ih =>
    rw [decode_pair]
    constructor
    · rintro ⟨x,y,more,hx,hy,hmore,rfl⟩
      obtain ⟨hx16,hhi⟩ := value_eq_some.mp hx
      obtain ⟨hy16,hlo⟩ := value_eq_some.mp hy
      have hbyte : (UInt8.ofNat (x*16+y)).toNat = x*16+y := by
        rw [UInt8.toNat_ofNat']
        exact Nat.mod_eq_of_lt (by omega)
      have hhigh : (x*16+y)/16 = x := by omega
      have hlow : (x*16+y)%16 = y := by omega
      rw [List.map_cons,List.map_cons,encode_cons,hbyte,hhigh,hlow,hhi,hlo,ih.mp hmore]
    · intro h
      cases bytes with
      | nil => cases h
      | cons b bytes =>
        rw [List.map_cons,List.map_cons,encode_cons,List.cons.injEq,List.cons.injEq] at h
        have hb := b.toNat_lt
        have hbyte : b.toNat/16*16+b.toNat%16 = b.toNat := by omega
        refine ⟨b.toNat/16,b.toNat%16,bytes,value_eq_some.mpr ⟨by omega,h.1⟩,
          value_eq_some.mpr ⟨by omega,h.2.1⟩,ih.mpr h.2.2,?_⟩
        rw [hbyte,UInt8.ofNat_toNat]

theorem isSome_decode (s : List UInt8) :
    (decode s).isSome = true ↔ s.length % 2 = 0 ∧ ∀ c ∈ s, isDigit c = true := by
  induction s using decode.induct with
  | case1 => simp [decode]
  | case2 c => simp [decode]
  | case3 hi lo rest ih =>
    have hpair : (decode (hi :: lo :: rest)).isSome =
        ((value hi).isSome && (value lo).isSome && (decode rest).isSome) := by
      rw [decode]
      cases value hi <;> cases value lo <;> cases decode rest <;> rfl
    rw [hpair,isSome_value,isSome_value,Bool.and_eq_true,Bool.and_eq_true,ih]
    simp only [List.length_cons,List.forall_mem_cons]
    have hlength : (rest.length+1+1)%2 = rest.length%2 := by omega
    rw [hlength]
    tauto

theorem even_encode : Even encode 2 where
  pos := by decide
  nil := rfl
  append := fun _ _ => List.flatMap_append
  length := by
    intro b
    induction b with
    | nil => rfl
    | cons b bytes ih =>
      rw [encode_cons,List.length_cons,List.length_cons,ih,List.length_cons]
      omega

theorem lower_digit {d : Nat} (h : d < 16) : lower (digit d) = digit d := by
  refine UInt8.toNat_inj.mp ?_
  rw [toNat_lower,toNat_digit h]
  split_ifs <;> omega

theorem lower_encode (bytes : List UInt8) : (encode bytes).map lower = encode bytes := by
  induction bytes with
  | nil => rfl
  | cons b bytes ih =>
    have hb := b.toNat_lt
    rw [encode_cons,List.map_cons,List.map_cons,lower_digit (by omega),lower_digit (by omega),ih]

theorem canonical : Canonical decode encode (List.map lower) fun _ => True where
  reads := by
    intro s b
    rw [decode_eq_some,true_and]
  fixed := fun _ => lower_encode _

end Base16

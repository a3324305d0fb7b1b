import Xqlite.RowTerms
set_option autoImplicit false

namespace Xqlite

theorem utf8CharWidth_iff (a : UInt8) : (utf8CharWidth a = 1 ↔ a.toNat < 0x80) ∧
    (utf8CharWidth a = 2 ↔ 0xC2 ≤ a.toNat ∧ a.toNat ≤ 0xDF) ∧
    (utf8CharWidth a = 3 ↔ 0xE0 ≤ a.toNat ∧ a.toNat ≤ 0xEF) ∧
    (utf8CharWidth a = 4 ↔ 0xF0 ≤ a.toNat ∧ a.toNat ≤ 0xF4) := by
  simp only [utf8CharWidth,UInt8.lt_iff_toNat_lt,UInt8.le_iff_toNat_le]
  split_ifs <;> simp_all <;> omega

theorem utf8CharWidth_one {a : UInt8} : utf8CharWidth a = 1 ↔ a.toNat < 0x80 :=
  (utf8CharWidth_iff a).1

theorem utf8CharWidth_two {a : UInt8} : utf8CharWidth a = 2 ↔ 0xC2 ≤ a.toNat ∧ a.toNat ≤ 0xDF :=
  (utf8CharWidth_iff a).2.1

theorem utf8CharWidth_three {a : UInt8} : utf8CharWidth a = 3 ↔ 0xE0 ≤ a.toNat ∧ a.toNat ≤ 0xEF :=
  (utf8CharWidth_iff a).2.2.1

theorem utf8CharWidth_four {a : UInt8} : utf8CharWidth a = 4 ↔ 0xF0 ≤ a.toNat ∧ a.toNat ≤ 0xF4 :=
  (utf8CharWidth_iff a).2.2.2

theorem isContinuation_iff {b : UInt8} :
    isContinuation b = true ↔ 0x80 ≤ b.toNat ∧ b.toNat ≤ 0xBF := by
  simp [isContinuation,UInt8.le_iff_toNat_le]

/-- The second byte keeps out overlong forms, surrogates and what is past the last plane. -/
theorem secondByteOk_iff {a b : UInt8} : secondByteOk a b = true ↔
    (0x80 ≤ b.toNat ∧ b.toNat ≤ 0xBF) ∧ (a.toNat = 0xE0 → 0xA0 ≤ b.toNat) ∧
      (a.toNat = 0xED → b.toNat ≤ 0x9F) ∧ (a.toNat = 0xF0 → 0x90 ≤ b.toNat) ∧
      (a.toNat = 0xF4 → b.toNat ≤ 0x8F) := by
  simp only [secondByteOk,← UInt8.toNat_inj]
  split_ifs <;> simp_all [isContinuation_iff,UInt8.le_iff_toNat_le] <;> omega

inductive Encodes : List UInt8 → Prop where
  | one (a : UInt8) : utf8CharWidth a = 1 → Encodes [a]
  | two (a b : UInt8) : utf8CharWidth a = 2 → isContinuation b = true → Encodes [a,b]
  | three (a b c : UInt8) : utf8CharWidth a = 3 → secondByteOk a b = true →
      isContinuation c = true → Encodes [a,b,c]
  | four (a b c d : UInt8) : utf8CharWidth a = 4 → secondByteOk a b = true →
      isContinuation c = true → isContinuation d = true → Encodes [a,b,c,d]

theorem toNat_ofNat_of_lt {n : Nat} (h : n < 256) : (UInt8.ofNat n).toNat = n := by
  simp [Nat.mod_eq_of_lt h]

theorem encodes_utf8EncodeChar (c : Char) : Encodes (String.utf8EncodeChar c) := by
  have hvalid : c.val.toNat < 0xD800 ∨ 0xDFFF < c.val.toNat ∧ c.val.toNat < 0x110000 := c.valid
  simp only [String.utf8EncodeChar]
  generalize c.val.toNat = v at hvalid
  split_ifs with h₁ h₂ h₃
  · refine .one _ (utf8CharWidth_one.mpr ?_)
    rw [toNat_ofNat_of_lt (by omega)]
    omega
  · refine .two _ _ (utf8CharWidth_two.mpr ?_) (isContinuation_iff.mpr ?_)
    · rw [toNat_ofNat_of_lt (by omega)]
      omega
    · rw [toNat_ofNat_of_lt (by omega)]
      omega
  · refine .three _ _ _ (utf8CharWidth_three.mpr ?_) (secondByteOk_iff.mpr ?_)
      (isContinuation_iff.mpr ?_)
    · rw [toNat_ofNat_of_lt (by omega)]
      omega
    · rw [toNat_ofNat_of_lt (by omega),toNat_ofNat_of_lt (by omega)]
      omega
    · rw [toNat_ofNat_of_lt (by omega)]
      omega
  · refine .four _ _ _ _ (utf8CharWidth_four.mpr ?_) (secondByteOk_iff.mpr ?_)
      (isContinuation_iff.mpr ?_) (isContinuation_iff.mpr ?_)
    · rw [toNat_ofNat_of_lt (by omega)]
      omega
    · rw [toNat_ofNat_of_lt (by omega),toNat_ofNat_of_lt (by omega)]
      omega
    · rw [toNat_ofNat_of_lt (by omega)]
      omega
    · rw [toNat_ofNat_of_lt (by omega)]
      omega

theorem Encodes.eq_singleton {bytes : List UInt8} (h : Encodes bytes) {a : UInt8} (ha : a ∈ bytes)
    (hlt : a.toNat < 0x80) : bytes = [a] := by
  cases h with
  | one b hb => rw [List.mem_singleton.mp ha]
  | two b c hb hc =>
    have hb := utf8CharWidth_two.mp hb
    have hc := isContinuation_iff.mp hc
    simp only [List.mem_cons,List.not_mem_nil,or_false] at ha
    rcases ha with rfl | rfl <;> omega
  | three b c d hb hc hd =>
    have hb := utf8CharWidth_three.mp hb
    have hc := (secondByteOk_iff.mp hc).1
    have hd := isContinuation_iff.mp hd
    simp only [List.mem_cons,List.not_mem_nil,or_false] at ha
    rcases ha with rfl | rfl | rfl <;> omega
  | four b c d e hb hc hd he =>
    have hb := utf8CharWidth_four.mp hb
    have hc := (secondByteOk_iff.mp hc).1
    have hd := isContinuation_iff.mp hd
    have he := isContinuation_iff.mp he
    simp only [List.mem_cons,List.not_mem_nil,or_false] at ha
    rcases ha with rfl | rfl | rfl | rfl <;> omega

theorem utf8EncodeChar_ascii {c : Char} (h : c.toNat < 0x80) :
    String.utf8EncodeChar c = [UInt8.ofNat c.toNat] := by
  have hle : c.val.toNat ≤ 127 := Nat.le_of_lt_succ h
  rw [String.utf8EncodeChar,if_pos hle]
  rfl

theorem mem_utf8EncodeChar {c : Char} {a : UInt8} (ha : a.toNat < 0x80) :
    a ∈ String.utf8EncodeChar c ↔ c.toNat = a.toNat := by
  constructor
  · intro h
    have hone := (encodes_utf8EncodeChar c).eq_singleton h ha
    by_cases hc : c.toNat < 0x80
    · rw [utf8EncodeChar_ascii hc] at hone
      rw [← (List.cons.inj hone).1,toNat_ofNat_of_lt (by omega)]
    · have hlen := congrArg List.length hone
      have hwide : ¬ c.val.toNat ≤ 127 := fun hle => hc (Nat.lt_succ_of_le hle)
      simp only [String.utf8EncodeChar,hwide,if_false] at hlen
      split_ifs at hlen <;> cases hlen
  · intro h
    rw [utf8EncodeChar_ascii (by omega),h,UInt8.ofNat_toNat]
    exact List.mem_singleton.mpr rfl

theorem mem_flatMap_utf8EncodeChar {q : Char} {a : UInt8} (ha : a.toNat < 0x80)
    (hq : q.toNat = a.toNat) (s : List Char) :
    a ∈ s.flatMap String.utf8EncodeChar ↔ q ∈ s := by
  rw [List.mem_flatMap]
  constructor
  · rintro ⟨c,hc,hmem⟩
    have hsame : c = q := Char.toNat_inj.mp (((mem_utf8EncodeChar ha).mp hmem).trans hq.symm)
    rwa [← hsame]
  · intro hmem
    exact ⟨q,hmem,(mem_utf8EncodeChar ha).mpr hq⟩

theorem val_ofNat_of_valid {n : Nat} (h : n.isValidChar) : (Char.ofNat n).val.toNat = n := by
  rw [Char.ofNat,dif_pos h]
  rfl

theorem ofNat_eq {n : Nat} {a : UInt8} (h : n = a.toNat) : UInt8.ofNat n = a := by
  rw [h,UInt8.ofNat_toNat]

theorem Encodes.exists_char {bytes : List UInt8} (h : Encodes bytes) :
    ∃ c, String.utf8EncodeChar c = bytes := by
  cases h with
  | one a ha =>
    have ha := utf8CharWidth_one.mp ha
    have hvalid : a.toNat.isValidChar := Or.inl (by omega)
    refine ⟨Char.ofNat a.toNat,?_⟩
    have h₁ : a.toNat ≤ 127 := by omega
    simp only [String.utf8EncodeChar,val_ofNat_of_valid hvalid,h₁,if_true,UInt8.ofNat_toNat]
  | two a b ha hb =>
    have ha := utf8CharWidth_two.mp ha
    have hb := isContinuation_iff.mp hb
    obtain ⟨v,hv⟩ : ∃ v, v = (a.toNat - 0xC0) * 64 + (b.toNat - 0x80) := ⟨_,rfl⟩
    have hvalid : v.isValidChar := Or.inl (by omega)
    refine ⟨Char.ofNat v,?_⟩
    have h₁ : ¬v ≤ 127 := by omega
    have h₂ : v ≤ 2047 := by omega
    simp only [String.utf8EncodeChar,val_ofNat_of_valid hvalid,h₁,h₂,if_true,if_false]
    rw [ofNat_eq (a := a) (by omega),ofNat_eq (a := b) (by omega)]
  | three a b c ha hb hc =>
    have ha := utf8CharWidth_three.mp ha
    have hb := secondByteOk_iff.mp hb
    have hc := isContinuation_iff.mp hc
    obtain ⟨v,hv⟩ : ∃ v, v = (a.toNat - 0xE0) * 4096 + (b.toNat - 0x80) * 64 + (c.toNat - 0x80) :=
      ⟨_,rfl⟩
    have hvalid : v.isValidChar := by
      unfold Nat.isValidChar
      omega
    refine ⟨Char.ofNat v,?_⟩
    have h₁ : ¬v ≤ 127 := by omega
    have h₂ : ¬v ≤ 2047 := by omega
    have h₃ : v ≤ 65535 := by omega
    simp only [String.utf8EncodeChar,val_ofNat_of_valid hvalid,h₁,h₂,h₃,if_true,if_false]
    rw [ofNat_eq (a := a) (by omega),ofNat_eq (a := b) (by omega),ofNat_eq (a := c) (by omega)]
  | four a b c d ha hb hc hd =>
    have ha := utf8CharWidth_four.mp ha
    have hb := secondByteOk_iff.mp hb
    have hc := isContinuation_iff.mp hc
    have hd := isContinuation_iff.mp hd
    obtain ⟨v,hv⟩ : ∃ v, v = (a.toNat - 0xF0) * 262144 + (b.toNat - 0x80) * 4096 +
      (c.toNat - 0x80) * 64 + (d.toNat - 0x80) := ⟨_,rfl⟩
    have hvalid : v.isValidChar := by
      unfold Nat.isValidChar
      omega
    refine ⟨Char.ofNat v,?_⟩
    have h₁ : ¬v ≤ 127 := by omega
    have h₂ : ¬v ≤ 2047 := by omega
    have h₃ : ¬v ≤ 65535 := by omega
    simp only [String.utf8EncodeChar,val_ofNat_of_valid hvalid,h₁,h₂,h₃,if_false]
    rw [ofNat_eq (a := a) (by omega),ofNat_eq (a := b) (by omega),ofNat_eq (a := c) (by omega),
      ofNat_eq (a := d) (by omega)]

theorem Encodes.utf8ErrorFrom_append {bytes : List UInt8} (h : Encodes bytes) (offset : Nat)
    (rest : List UInt8) :
    utf8ErrorFrom offset (bytes ++ rest) = utf8ErrorFrom (offset+bytes.length) rest := by
  cases h with
  | one a ha =>
    rw [List.singleton_append,utf8ErrorFrom.eq_def]
    simp only [ha,List.length_singleton]
  | two a b ha hb =>
    rw [List.cons_append,List.singleton_append,utf8ErrorFrom.eq_def]
    simp only [ha,hb,if_true]
    rfl
  | three a b c ha hb hc =>
    rw [List.cons_append,List.cons_append,List.singleton_append,utf8ErrorFrom.eq_def]
    simp only [ha,hb,hc,not_true,if_false]
    rfl
  | four a b c d ha hb hc hd =>
    rw [List.cons_append,List.cons_append,List.cons_append,List.singleton_append,
      utf8ErrorFrom.eq_def]
    simp only [ha,hb,hc,hd,not_true,if_false]
    rfl

theorem utf8ErrorFrom_encoded (chars : List Char) (offset : Nat) :
    utf8ErrorFrom offset (chars.flatMap String.utf8EncodeChar) = none := by
  induction chars generalizing offset with
  | nil => rfl
  | cons c chars ih =>
    rw [List.flatMap_cons,(encodes_utf8EncodeChar c).utf8ErrorFrom_append]
    exact ih _

theorem exists_cons_char {bytes rest : List UInt8} (h : Encodes bytes)
    (hrest : ∃ chars : List Char, chars.flatMap String.utf8EncodeChar = rest) :
    ∃ chars : List Char, chars.flatMap String.utf8EncodeChar = bytes ++ rest := by
  obtain ⟨c,hc⟩ := h.exists_char
  obtain ⟨chars,hchars⟩ := hrest
  exact ⟨c :: chars,by rw [List.flatMap_cons,hc,hchars]⟩

theorem exists_chars_of_none {offset : Nat} {bytes : List UInt8}
    (h : utf8ErrorFrom offset bytes = none) :
    ∃ chars : List Char, chars.flatMap String.utf8EncodeChar = bytes := by
  fun_induction utf8ErrorFrom offset bytes with
  | case1 => exact ⟨[],rfl⟩
  | case2 offset a rest ha ih => exact exists_cons_char (.one a ha) (ih h)
  | case4 offset a b rest ha hb ih => exact exists_cons_char (.two a b ha hb) (ih h)
  | case11 offset a b c rest ha hb hc ih =>
    exact exists_cons_char (.three a b c ha (not_not.mp hb) (not_not.mp hc)) (ih h)
  | case21 offset a b c d rest ha hb hc hd ih =>
    exact exists_cons_char
      (.four a b c d ha (not_not.mp hb) (not_not.mp hc) (not_not.mp hd)) (ih h)
  | _ => cases h

/-- A byte sequence is accepted exactly if it is the UTF-8 of some string. -/
theorem fromUtf8_eq_none_iff {bytes : List UInt8} :
    fromUtf8 bytes = none ↔ ∃ s : String, s.toList.flatMap String.utf8EncodeChar = bytes := by
  constructor
  · intro h
    obtain ⟨chars,hchars⟩ := exists_chars_of_none h
    exact ⟨String.ofList chars,by rw [String.toList_ofList,hchars]⟩
  · rintro ⟨s,rfl⟩
    exact utf8ErrorFrom_encoded s.toList 0

end Xqlite

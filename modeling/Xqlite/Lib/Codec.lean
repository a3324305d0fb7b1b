import Mathlib.Algebra.BigOperators.Ring.List
import Mathlib.Algebra.Order.Ring.Int
import Mathlib.Data.List.SplitLengths
set_option autoImplicit false

/-! Texts with more than one spelling: a reader that accepts all of them, a writer that
picks one, and a map that folds every spelling onto the one that is written. Then codecs
whose text is cut into groups with a mark between them. -/

namespace Codec

section Canonical
variable {α β : Type}

/-- `read` takes the spellings of what `write` writes, and `good` are the values it has
spellings for. -/
structure Canonical (read : α → Option β) (write : β → α) (fold : α → α) (good : β → Prop) :
    Prop where
  reads : ∀ {s : α} {b : β}, read s = some b ↔ good b ∧ fold s = write b
  fixed : ∀ {b : β}, good b → fold (write b) = write b

variable {read : α → Option β} {write : β → α} {fold : α → α} {good : β → Prop}

theorem Canonical.read_write (h : Canonical read write fold good) {b : β} (hb : good b) :
    read (write b) = some b :=
  h.reads.mpr ⟨hb,h.fixed hb⟩

theorem Canonical.read_eq_iff (h : Canonical read write fold good) {s s' : α}
    (hs : (read s).isSome = true) : read s = read s' ↔ fold s = fold s' := by
  obtain ⟨b,hb⟩ := Option.isSome_iff_exists.mp hs
  obtain ⟨hgood,hfold⟩ := h.reads.mp hb
  rw [hb,hfold]
  constructor
  · intro heq
    exact (h.reads.mp heq.symm).2.symm
  · intro heq
    exact (h.reads.mpr ⟨hgood,heq.symm⟩).symm

end Canonical

section Groups
variable {α : Type} [DecidableEq α] {sep : α}

/-- Groups of the given sizes with the mark between them, and nothing else. -/
def readGroups (sep : α) : List Nat → List α → Option (List (List α))
  | [], s => if s = [] then some [] else none
  | [n], s => if s.length = n then some [s] else none
  | n :: m :: sizes, s =>
    if s[n]? = some sep then (readGroups sep (m :: sizes) (s.drop (n+1))).map (s.take n :: ·)
    else none

omit [DecidableEq α] in
theorem eq_append_cons_iff {n : Nat} {s first rest : List α} :
    s = first ++ sep :: rest ∧ first.length = n ↔
      s[n]? = some sep ∧ first = s.take n ∧ rest = s.drop (n+1) := by
  constructor
  · rintro ⟨rfl,rfl⟩
    refine ⟨by simp,by simp,?_⟩
    rw [List.drop_append,List.drop_eq_nil_of_le (Nat.le_succ _)]
    simp
  · rintro ⟨hsep,rfl,rfl⟩
    obtain ⟨hlt,hget⟩ := List.getElem?_eq_some_iff.mp hsep
    refine ⟨?_,List.length_take_of_le (Nat.le_of_lt hlt)⟩
    rw [← hget,← List.drop_eq_getElem_cons hlt,List.take_append_drop]

theorem readGroups_eq_some {sizes : List Nat} {s : List α} {groups : List (List α)} :
    readGroups sep sizes s = some groups ↔
      s = [sep].intercalate groups ∧ groups.map List.length = sizes := by
  induction sizes generalizing s groups with
  | nil =>
    rw [readGroups,List.map_eq_nil_iff]
    constructor
    · intro h
      split_ifs at h with hs
      cases h
      exact ⟨hs,rfl⟩
    · rintro ⟨rfl,rfl⟩
      rfl
  | cons n sizes ih =>
    cases sizes with
    | nil =>
      rw [readGroups,List.map_eq_singleton_iff]
      constructor
      · intro h
        split_ifs at h with hs
        cases h
        exact ⟨List.intercalate_singleton.symm,s,rfl,hs⟩
      · rintro ⟨rfl,first,rfl,hfirst⟩
        rw [List.intercalate_singleton,if_pos hfirst]
    | cons m sizes =>
      rw [readGroups]
      constructor
      · intro h
        split_ifs at h with hs
        obtain ⟨more,hmore,rfl⟩ := Option.map_eq_some_iff.mp h
        obtain ⟨hrest,hlengths⟩ := ih.mp hmore
        obtain ⟨hcut,hlength⟩ := eq_append_cons_iff.mpr ⟨hs,rfl,rfl⟩
        cases more with
        | nil => cases hlengths
        | cons second more =>
          refine ⟨?_,by rw [List.map_cons,hlength,hlengths]⟩
          rw [List.intercalate_cons_cons,List.append_assoc,List.singleton_append,← hrest]
          exact hcut
      · rintro ⟨hs,hlengths⟩
        obtain ⟨first,more,rfl,hfirst,hmore⟩ := List.map_eq_cons_iff.mp hlengths
        obtain ⟨second,more,rfl,-,-⟩ := List.map_eq_cons_iff.mp hmore
        rw [List.intercalate_cons_cons,List.append_assoc,List.singleton_append] at hs
        obtain ⟨hsep,rfl,hdrop⟩ := eq_append_cons_iff.mp ⟨hs,hfirst⟩
        rw [if_pos hsep,← hdrop,ih.mpr ⟨rfl,hmore⟩]
        rfl

theorem readGroups_map {f : α → α} (hf : ∀ c, f c = sep ↔ c = sep) (sizes : List Nat)
    (s : List α) :
    readGroups sep sizes (s.map f) = (readGroups sep sizes s).map (List.map (List.map f)) := by
  induction sizes generalizing s with
  | nil => cases s <;> rfl
  | cons n sizes ih =>
    cases sizes with
    | nil =>
      simp only [readGroups,List.length_map]
      split_ifs <;> rfl
    | cons m sizes =>
      have hmark : (s.map f)[n]? = some sep ↔ s[n]? = some sep := by
        rw [List.getElem?_map,Option.map_eq_some_iff]
        constructor
        · rintro ⟨c,hc,hsep⟩
          rw [hc,(hf c).mp hsep]
        · intro hsep
          exact ⟨sep,hsep,(hf sep).mpr rfl⟩
      simp only [readGroups,hmark]
      split_ifs
      · rw [← List.map_drop,ih,Option.map_map,Option.map_map,← List.map_take]
        rfl
      · rfl

omit [DecidableEq α] in
theorem splitLengths_flatten (groups : List (List α)) :
    (groups.map List.length).splitLengths groups.flatten = groups := by
  induction groups with
  | nil => rfl
  | cons first groups ih =>
    rw [List.map_cons,List.splitLengths_cons,List.flatten_cons,List.take_left,List.drop_left,ih]

end Groups

section Grouped
variable {α β : Type} [DecidableEq α] {sep : α} {f : α → α} {read : List α → Option (List β)}
  {write : List β → List α} {width : Nat}

structure Even (write : List β → List α) (width : Nat) : Prop where
  pos : 0 < width
  nil : write [] = []
  append : ∀ b b', write (b ++ b') = write b ++ write b'
  length : ∀ b, (write b).length = width*b.length

def readGrouped (sep : α) (read : List α → Option (List β)) (sizes : List Nat) (s : List α) :
    Option (List β) :=
  (readGroups sep sizes s).bind fun groups => read groups.flatten

def writeGrouped (sep : α) (write : List β → List α) (sizes : List Nat) (b : List β) : List α :=
  [sep].intercalate ((sizes.splitLengths b).map write)

omit [DecidableEq α] in
theorem Even.flatten_map (h : Even write width) (parts : List (List β)) :
    (parts.map write).flatten = write parts.flatten := by
  induction parts with
  | nil => exact h.nil.symm
  | cons part parts ih =>
    rw [List.map_cons,List.flatten_cons,List.flatten_cons,h.append,ih]

omit [DecidableEq α] in
theorem Even.lengths (h : Even write width) (parts : List (List β)) :
    (parts.map write).map List.length = (parts.map List.length).map (width * ·) := by
  rw [List.map_map,List.map_map]
  exact List.map_congr_left fun part _ => h.length part

theorem Even.readGroups_written (h : Even write width) {sizes : List Nat} {b : List β}
    (hb : b.length = sizes.sum) :
    readGroups sep (sizes.map (width * ·)) (writeGrouped sep write sizes b) =
      some ((sizes.splitLengths b).map write) := by
  refine readGroups_eq_some.mpr ⟨rfl,?_⟩
  rw [h.lengths,List.map_splitLengths_length b sizes (Nat.le_of_eq hb.symm)]

omit [DecidableEq α] in
theorem Even.flatten_written (h : Even write width) {sizes : List Nat} {b : List β}
    (hb : b.length = sizes.sum) : ((sizes.splitLengths b).map write).flatten = write b := by
  rw [h.flatten_map,List.flatten_splitLengths b sizes (Nat.le_of_eq hb)]

omit [DecidableEq α] in
theorem Even.groups_eq (h : Even write width) {sizes : List Nat} {b : List β}
    {groups : List (List α)} (hsizes : groups.map List.length = sizes.map (width * ·))
    (hflat : groups.flatten = write b) :
    b.length = sizes.sum ∧ groups = (sizes.splitLengths b).map write := by
  have hlength : width*b.length = width*sizes.sum := by
    rw [← h.length,← hflat,List.length_flatten,hsizes,List.sum_map_mul_left,List.map_id']
  have hb : b.length = sizes.sum := Nat.eq_of_mul_eq_mul_left h.pos hlength
  have hwritten := splitLengths_flatten ((sizes.splitLengths b).map write)
  rw [h.lengths,List.map_splitLengths_length b sizes (Nat.le_of_eq hb.symm),h.flatten_written hb,
    ← hsizes,← hflat,splitLengths_flatten] at hwritten
  exact ⟨hb,hwritten⟩

/-- A codec of plain text gives one of text in groups, as long as no character is folded
onto the mark. -/
theorem Canonical.grouped (h : Canonical read write (List.map f) fun _ => True)
    (heven : Even write width) (hsep : ∀ c, f c = sep ↔ c = sep) (sizes : List Nat) :
    Canonical (readGrouped sep read (sizes.map (width * ·))) (writeGrouped sep write sizes)
      (List.map f) fun b => b.length = sizes.sum where
  reads := by
    intro s b
    rw [readGrouped,Option.bind_eq_some_iff]
    constructor
    · rintro ⟨groups,hgroups,hread⟩
      have hfolded : readGroups sep (sizes.map (width * ·)) (s.map f) =
          some (groups.map (List.map f)) := by
        rw [readGroups_map hsep,hgroups]
        rfl
      obtain ⟨hs,hsizes⟩ := readGroups_eq_some.mp hfolded
      have hflat : (groups.map (List.map f)).flatten = write b :=
        List.map_flatten.symm.trans (h.reads.mp hread).2
      obtain ⟨hb,hwritten⟩ := heven.groups_eq hsizes hflat
      exact ⟨hb,hs.trans (congrArg [sep].intercalate hwritten)⟩
    · rintro ⟨hb,hs⟩
      have hfolded : readGroups sep (sizes.map (width * ·)) (s.map f) =
          some ((sizes.splitLengths b).map write) := hs ▸ heven.readGroups_written hb
      rw [readGroups_map hsep] at hfolded
      obtain ⟨groups,hgroups,hwritten⟩ := Option.map_eq_some_iff.mp hfolded
      refine ⟨groups,hgroups,h.reads.mpr ⟨trivial,?_⟩⟩
      rw [List.map_flatten,hwritten,heven.flatten_written hb]
  fixed := by
    intro b hb
    have hread := readGroups_map hsep (sizes.map (width * ·)) (writeGrouped sep write sizes b)
    have hparts : (List.map (List.map f)) ((sizes.splitLengths b).map write) =
        (sizes.splitLengths b).map write := by
      rw [List.map_map]
      exact List.map_congr_left fun part _ => h.fixed trivial
    rw [heven.readGroups_written hb,Option.map_some,hparts] at hread
    exact (readGroups_eq_some.mp hread).1

end Grouped

end Codec

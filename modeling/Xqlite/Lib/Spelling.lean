import Mathlib.Data.List.Forall2
import Mathlib.Data.List.Infix
set_option autoImplicit false

namespace Spelling

variable {α β : Type*}

section Append
variable {k k2 k3 : β} {ks a : List β}

theorem singleton_prefix_append (hne : a ≠ []) (b : List β) :
    [k] <+: a ++ b ↔ [k] <+: a := by
  cases a with
  | nil => exact absurd rfl hne
  | cons x a => simp

theorem cons_prefix_append (hne : a ≠ []) (hpair : ¬ [k,k2] <+: a) (b : List β) :
    k :: k2 :: ks <+: a ++ b ↔ a = [k] ∧ k2 :: ks <+: b := by
  cases a with
  | nil => exact absurd rfl hne
  | cons x a =>
    cases a with
    | nil => simp [List.cons_prefix_cons,eq_comm]
    | cons y a =>
      simp only [List.cons_prefix_cons,List.nil_prefix,and_true] at hpair
      simp only [List.cons_append,List.cons_prefix_cons,List.cons.injEq,reduceCtorEq,and_false,
        false_and,iff_false]
      intro h
      exact hpair ⟨h.1,h.2.1⟩

theorem cons_infix_append (hpair : ¬ [k2,k3] <:+: a) (b : List β) :
    k :: k2 :: k3 :: ks <:+: a ++ b ↔
      ([k] <:+ a ∧ k2 :: k3 :: ks <+: b) ∨ ([k,k2] <:+ a ∧ k3 :: ks <+: b) ∨
        k :: k2 :: k3 :: ks <:+: b := by
  induction a with
  | nil => simp
  | cons x a ih =>
    have hrest : ¬ [k2,k3] <:+: a := fun h => hpair (h.trans (List.suffix_cons x a).isInfix)
    rw [List.cons_append,List.infix_cons_iff,ih hrest,List.cons_prefix_cons]
    cases a with
    | nil => simp [List.suffix_cons_iff]
    | cons y a =>
      have hnext : k2 :: k3 :: ks <+: y :: a ++ b ↔ k2 = y ∧ a = [] ∧ k3 :: ks <+: b := by
        cases a with
        | nil => simp [List.cons_prefix_cons]
        | cons z a =>
          simp only [List.cons_append,List.cons_prefix_cons,reduceCtorEq,false_and,and_false,
            iff_false]
          rintro ⟨rfl,rfl,-⟩
          exact hrest ⟨[],a,rfl⟩
      rw [hnext]
      simp only [List.suffix_cons_iff,List.cons.injEq,reduceCtorEq,and_false,false_or]
      constructor
      · rintro (⟨rfl,rfl,rfl,h⟩ | h | h | h)
        · exact .inr (.inl ⟨.inl ⟨rfl,rfl,rfl⟩,h⟩)
        · exact .inl h
        · exact .inr (.inl ⟨.inr h.1,h.2⟩)
        · exact .inr (.inr h)
      · rintro (h | ⟨⟨rfl,rfl,rfl⟩ | h,h'⟩ | h)
        · exact .inr (.inl h)
        · exact .inl ⟨rfl,rfl,rfl,h'⟩
        · exact .inr (.inr (.inl ⟨h,h'⟩))
        · exact .inr (.inr (.inr h))

theorem flatMap_eq_cons {up : α → List β} (hne : ∀ c, up c ≠ []) {l : List α}
    (hpair : ∀ c k2, ks.head? = some k2 → ¬ [k,k2] <+: up c) (h : l.flatMap up = k :: ks) :
    ∃ c l', l = c :: l' ∧ up c = [k] ∧ l'.flatMap up = ks := by
  cases l with
  | nil => cases h
  | cons c l =>
    rw [List.flatMap_cons] at h
    cases hup : up c with
    | nil => exact absurd hup (hne c)
    | cons x a =>
      rw [hup,List.cons_append] at h
      obtain ⟨rfl,htail⟩ := List.cons.inj h
      cases a with
      | nil => exact ⟨c,l,rfl,hup,htail⟩
      | cons y a =>
        have hhead : ks.head? = some y := by rw [← htail]; rfl
        refine absurd ?_ (hpair c y hhead)
        rw [hup]
        exact ⟨a,rfl⟩

end Append

variable [DecidableEq α]

def startsSpelled : List (List α) → List α → Bool
  | [], _ => true
  | _ :: _, [] => false
  | set :: sets, c :: l => set.contains c && startsSpelled sets l

def spells (sets : List (List α)) : List α → Bool
  | [] => sets.isEmpty
  | c :: l => startsSpelled sets (c :: l) || spells sets l

/-- Of what characters a word of three letters or more is made: those that bring its first
letter last, those that bring its first two letters last, and those of its other letters. -/
structure Pattern (α : Type*) where
  first : List α
  both : List α
  second : List α
  rest : List (List α)

def Pattern.spelled (p : Pattern α) (l : List α) : Bool :=
  spells (p.first :: p.second :: p.rest) l || spells (p.both :: p.rest) l

theorem startsSpelled_mono {sets sets' : List (List α)} (h : List.Forall₂ (· ⊆ ·) sets sets')
    {l : List α} (hl : startsSpelled sets l = true) : startsSpelled sets' l = true := by
  induction h generalizing l with
  | nil => exact hl
  | cons hset _ ih =>
    cases l with
    | nil => cases hl
    | cons c l =>
      simp only [startsSpelled,Bool.and_eq_true,List.contains_iff_mem] at hl ⊢
      exact ⟨hset hl.1,ih hl.2⟩

theorem spells_mono {sets sets' : List (List α)} (h : List.Forall₂ (· ⊆ ·) sets sets')
    {l : List α} (hl : spells sets l = true) : spells sets' l = true := by
  induction l with
  | nil => cases h <;> exact hl
  | cons c l ih =>
    simp only [spells,Bool.or_eq_true] at hl ⊢
    exact hl.imp (startsSpelled_mono h) ih

theorem Pattern.spelled_mono {p p' : Pattern α} (hfirst : p.first ⊆ p'.first)
    (hboth : p.both ⊆ p'.both) (hsecond : p.second ⊆ p'.second)
    (hrest : List.Forall₂ (· ⊆ ·) p.rest p'.rest) {l : List α} (hl : p.spelled l = true) :
    p'.spelled l = true := by
  simp only [Pattern.spelled,Bool.or_eq_true] at hl ⊢
  exact hl.imp (spells_mono (.cons hfirst (.cons hsecond hrest))) (spells_mono (.cons hboth hrest))

/-- The word is read through `up` off characters of the sets and no others. -/
def Reads (up : α → List β) : List β → List (List α) → Prop
  | [k], [set] => ∀ c, [k] <+: up c ↔ c ∈ set
  | k :: k2 :: ks, set :: sets =>
    (∀ c, up c = [k] ↔ c ∈ set) ∧ (∀ c, ¬ [k,k2] <+: up c) ∧ Reads up (k2 :: ks) sets
  | _, _ => False

section FlatMap
variable {up : α → List β} (hne : ∀ c, up c ≠ [])
include hne

theorem prefix_flatMap_iff {word : List β} {sets : List (List α)} (h : Reads up word sets)
    (l : List α) : word <+: l.flatMap up ↔ startsSpelled sets l = true := by
  induction word generalizing sets l with
  | nil => cases h
  | cons k ks ih =>
    cases sets with
    | nil => cases ks <;> cases h
    | cons set sets =>
      cases l with
      | nil => simp [startsSpelled]
      | cons c l =>
        simp only [List.flatMap_cons,startsSpelled,Bool.and_eq_true,List.contains_iff_mem]
        cases ks with
        | nil =>
          cases sets with
          | nil => rw [singleton_prefix_append (hne c),h c]; simp [startsSpelled]
          | cons set' sets => cases h
        | cons k2 ks =>
          obtain ⟨hone,hpair,hrest⟩ := h
          rw [cons_prefix_append (hne c) (hpair c),hone c,ih hrest l]

theorem infix_flatMap_iff {k k2 k3 : β} {ks : List β} {p : Pattern α}
    (hfirst : ∀ c, [k] <:+ up c ↔ c ∈ p.first) (hboth : ∀ c, [k,k2] <:+ up c ↔ c ∈ p.both)
    (hpair : ∀ c, ¬ [k2,k3] <:+: up c) (h : Reads up (k2 :: k3 :: ks) (p.second :: p.rest))
    (l : List α) : k :: k2 :: k3 :: ks <:+: l.flatMap up ↔ p.spelled l = true := by
  induction l with
  | nil => simp [Pattern.spelled,spells]
  | cons c l ih =>
    rw [List.flatMap_cons,cons_infix_append (hpair c),hfirst c,hboth c,ih,
      prefix_flatMap_iff hne h l,prefix_flatMap_iff hne h.2.2 l]
    simp only [Pattern.spelled,spells,startsSpelled,Bool.or_eq_true,Bool.and_eq_true,
      List.contains_iff_mem]
    tauto

end FlatMap

section Table
variable {up : α → List β} {table : List (α × List β)} {beyond : β → Bool}

/-- All there is to know of `up`: a table, and that no other character brings anything but
letters `beyond` those of the words. -/
structure Tabled (up : α → List β) (table : List (α × List β)) (beyond : β → Bool) : Prop where
  ne_nil : ∀ c, up c ≠ []
  listed : ∀ e ∈ table, up e.1 = e.2
  unlisted : ∀ c, c ∉ table.map Prod.fst → ∀ d ∈ up c, beyond d = true

/-- The entries with the property, in the order of the table, are those of the set. -/
def agrees (table : List (α × List β)) (holds : List β → Bool) (set : List α) : Bool :=
  (table.filter fun e => holds e.2).map Prod.fst == set

theorem Tabled.iff (h : Tabled up table beyond) {holds : List β → Bool} {set : List α}
    (hholds : ∀ t, holds t = true → ∃ d ∈ t, beyond d = false)
    (hcheck : agrees table holds set = true) (c : α) : holds (up c) = true ↔ c ∈ set := by
  rw [agrees,beq_iff_eq] at hcheck
  rw [← hcheck]
  simp only [List.mem_map,List.mem_filter]
  constructor
  · intro htrue
    by_cases hmem : c ∈ table.map Prod.fst
    · obtain ⟨e,he,rfl⟩ := List.mem_map.mp hmem
      exact ⟨e,⟨he,h.listed e he ▸ htrue⟩,rfl⟩
    · obtain ⟨d,hd,hword⟩ := hholds _ htrue
      rw [h.unlisted c hmem d hd] at hword
      cases hword
  · rintro ⟨e,⟨he,htrue⟩,rfl⟩
    rwa [h.listed e he]

variable [DecidableEq β]

def readsTable (table : List (α × List β)) : List β → List (List α) → Bool
  | [k], [set] => agrees table ([k].isPrefixOf ·) set
  | k :: k2 :: ks, set :: sets =>
    agrees table (· == [k]) set && agrees table ([k,k2].isPrefixOf ·) [] &&
      readsTable table (k2 :: ks) sets
  | _, _ => false

/-- What has to be looked up in the table for the pattern to be that of the word. -/
def Pattern.checks (p : Pattern α) (table : List (α × List β)) : List β → Bool
  | k :: k2 :: k3 :: ks =>
    agrees table ([k].isSuffixOf ·) p.first && agrees table ([k,k2].isSuffixOf ·) p.both &&
      agrees table (fun t => decide ([k2,k3] <:+: t)) [] &&
      readsTable table (k2 :: k3 :: ks) (p.second :: p.rest)
  | _ => false

theorem Tabled.reads (h : Tabled up table beyond) {word : List β} {sets : List (List α)}
    (hword : ∀ k ∈ word, beyond k = false) (hcheck : readsTable table word sets = true) :
    Reads up word sets := by
  induction word generalizing sets with
  | nil => cases hcheck
  | cons k ks ih =>
    have hk : beyond k = false := hword k List.mem_cons_self
    cases sets with
    | nil => cases ks <;> cases hcheck
    | cons set sets =>
      cases ks with
      | nil =>
        cases sets with
        | nil =>
          intro c
          rw [← h.iff (fun t ht => ⟨k,?_,hk⟩) hcheck c,List.isPrefixOf_iff_prefix]
          exact (List.isPrefixOf_iff_prefix.mp ht).subset List.mem_cons_self
        | cons set' sets => cases hcheck
      | cons k2 ks =>
        simp only [readsTable,Bool.and_eq_true] at hcheck
        refine ⟨fun c => ?_,fun c => ?_,ih (fun j hj => hword j (List.mem_cons_of_mem k hj))
          hcheck.2⟩
        · rw [← h.iff (fun t ht => ⟨k,?_,hk⟩) hcheck.1.1 c,beq_iff_eq]
          rw [beq_iff_eq] at ht
          rw [ht]
          exact List.mem_cons_self
        · have hnone := h.iff (fun t ht => ⟨k,?_,hk⟩) hcheck.1.2 c
          · simpa [List.isPrefixOf_iff_prefix] using hnone
          · exact (List.isPrefixOf_iff_prefix.mp ht).subset List.mem_cons_self

/-- A word occurs in the rewritten text exactly where the text itself spells its pattern. -/
theorem Tabled.infix_iff (h : Tabled up table beyond) {word : List β} {p : Pattern α}
    (hword : (word.all fun k => !beyond k) = true) (hcheck : p.checks table word = true)
    (l : List α) : word <:+: l.flatMap up ↔ p.spelled l = true := by
  simp only [List.all_eq_true,Bool.not_eq_true'] at hword
  match word,hword,hcheck with
  | k :: k2 :: k3 :: ks,hword,hcheck =>
    have hk : beyond k = false := hword k (by simp)
    have hk2 : beyond k2 = false := hword k2 (by simp)
    simp only [Pattern.checks,Bool.and_eq_true] at hcheck
    obtain ⟨⟨⟨hfirst,hboth⟩,hpair⟩,hreads⟩ := hcheck
    refine infix_flatMap_iff h.ne_nil (fun c => ?_) (fun c => ?_) (fun c => ?_)
      (h.reads (fun j hj => hword j (List.mem_cons_of_mem k hj)) hreads) l
    · rw [← h.iff (fun t ht => ⟨k,?_,hk⟩) hfirst c,List.isSuffixOf_iff_suffix]
      exact (List.isSuffixOf_iff_suffix.mp ht).subset List.mem_cons_self
    · rw [← h.iff (fun t ht => ⟨k,?_,hk⟩) hboth c,List.isSuffixOf_iff_suffix]
      exact (List.isSuffixOf_iff_suffix.mp ht).subset List.mem_cons_self
    · have hnone := h.iff (fun t ht => ⟨k2,?_,hk2⟩) hpair c
      · simpa using hnone
      · exact (of_decide_eq_true ht).subset List.mem_cons_self

end Table

end Spelling

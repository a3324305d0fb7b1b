import Mathlib.Data.List.Infix
import Mathlib.Data.List.TakeWhile
import Mathlib.Data.Nat.Find
set_option autoImplicit false

namespace Split

variable {α : Type} [DecidableEq α]

theorem dropPrefix_eq_some {l p s : List α} : l.dropPrefix? p = some s ↔ l = p ++ s := by
  simp [List.dropPrefix?_eq_some_iff]

@[simp] theorem dropPrefix_append (p s : List α) : (p ++ s).dropPrefix? p = some s :=
  dropPrefix_eq_some.mpr rfl

theorem dropPrefix_eq_none {l p : List α} : l.dropPrefix? p = none ↔ ¬ p <+: l := by
  rw [Option.eq_none_iff_forall_ne_some]
  constructor
  · rintro h ⟨s,rfl⟩
    exact h s (dropPrefix_append p s)
  · intro h s hs
    exact h ⟨s,(dropPrefix_eq_some.mp hs).symm⟩

omit [DecidableEq α] in
theorem not_prefix_append {p q : List α} (hp : ¬ p <+: q) (hq : ¬ q <+: p) (s : List α) :
    ¬ p <+: q ++ s := by
  intro h
  rcases List.prefix_or_prefix_of_prefix h (List.prefix_append q s) with hpq | hqp
  · exact hp hpq
  · exact hq hqp

theorem or_dropPrefix_eq_some {p q : List α} (hp : ¬ p <+: q) (hq : ¬ q <+: p)
    {l s : List α} :
    (l.dropPrefix? p).or (l.dropPrefix? q) = some s ↔ l = p ++ s ∨ l = q ++ s := by
  cases h : l.dropPrefix? p with
  | none =>
    rw [dropPrefix_eq_none] at h
    rw [Option.none_or,dropPrefix_eq_some]
    exact (or_iff_right fun hl => h ⟨s,hl.symm⟩).symm
  | some r =>
    rw [dropPrefix_eq_some] at h
    subst h
    rw [Option.some_or,Option.some.injEq]
    constructor
    · rintro rfl
      exact .inl rfl
    · rintro (hl | hl)
      · exact List.append_cancel_left hl
      · exact absurd ⟨r,hl⟩ (not_prefix_append hp hq s)

theorem or_dropPrefix_eq_none {p q l : List α} :
    (l.dropPrefix? p).or (l.dropPrefix? q) = none ↔ ¬ p <+: l ∧ ¬ q <+: l := by
  rw [Option.or_eq_none_iff,dropPrefix_eq_none,dropPrefix_eq_none]

theorem dropSuffix_eq_some {l s r : List α} : l.dropSuffix? s = some r ↔ l = r ++ s := by
  simp [List.dropSuffix?_eq_some_iff]

@[simp] theorem dropSuffix_append (r s : List α) : (r ++ s).dropSuffix? s = some r :=
  dropSuffix_eq_some.mpr rfl

theorem dropInfix_eq_some {l i p s : List α} :
    l.dropInfix? i = some (p,s) ↔
      l = p ++ i ++ s ∧ ∀ p' s', l = p' ++ i ++ s' → p.length ≤ p'.length := by
  rw [List.dropInfix?_eq_some_iff]
  constructor
  · rintro ⟨⟨i',hl,hi⟩,hmin⟩
    rw [eq_of_beq hi] at hl
    exact ⟨hl,fun p' s' h => hmin p' i s' h (beq_self_eq_true i)⟩
  · rintro ⟨hl,hmin⟩
    refine ⟨⟨i,hl,beq_self_eq_true i⟩,?_⟩
    intro p' i' s' h hi
    rw [eq_of_beq hi] at h
    exact hmin p' s' h

theorem dropInfix_eq_none {l i : List α} : l.dropInfix? i = none ↔ ¬ i <:+: l := by
  constructor
  · intro h hi
    -- Among the occurrences there is one with the shortest text before it.
    have hex : ∃ n p s, p.length = n ∧ p ++ i ++ s = l := by
      obtain ⟨p,s,hl⟩ := hi
      exact ⟨p.length,p,s,rfl,hl⟩
    classical
    obtain ⟨p,s,hn,hl⟩ := Nat.find_spec hex
    have hsome : l.dropInfix? i = some (p,s) := by
      refine dropInfix_eq_some.mpr ⟨hl.symm,?_⟩
      intro p' s' hl'
      rw [hn]
      exact Nat.find_min' hex ⟨p',s',rfl,hl'.symm⟩
    rw [h] at hsome
    cases hsome
  · intro h
    rw [Option.eq_none_iff_forall_ne_some]
    rintro ⟨p,s⟩ hs
    exact h ⟨p,s,(dropInfix_eq_some.mp hs).1.symm⟩

theorem dropInfix_head {c : α} {i p : List α} (hi : i.head? = some c) (h : c ∉ p) (s : List α) :
    (p ++ i ++ s).dropInfix? i = some (p,s) := by
  refine dropInfix_eq_some.mpr ⟨rfl,?_⟩
  intro p' s' hl
  by_contra hlt
  push Not at hlt
  obtain ⟨i,rfl⟩ := List.head?_eq_some_iff.mp hi
  have hget : (p ++ c :: i ++ s)[p'.length]? = some c := by simp [hl]
  rw [List.append_assoc,List.getElem?_append_left hlt] at hget
  exact h (List.mem_of_getElem? hget)

omit [DecidableEq α] in
theorem infix_append_cons {c : α} {i : List α} (hc : c ∉ i) (a b : List α) :
    i <:+: a ++ c :: b ↔ i <:+: a ∨ i <:+: b := by
  constructor
  · rintro ⟨x,y,h⟩
    rw [List.append_assoc] at h
    rcases List.append_eq_append_iff.mp h with ⟨mid,rfl,hmid⟩ | ⟨mid,rfl,hmid⟩
    · rcases List.append_eq_append_iff.mp hmid with ⟨rest,rfl,_⟩ | ⟨rest,rfl,hrest⟩
      · exact .inl ⟨x,rest,by simp⟩
      · cases rest with
        | nil => exact .inl ⟨x,[],by simp⟩
        | cons d rest =>
          obtain ⟨rfl,_⟩ := List.cons.inj hrest
          exact absurd (by simp) hc
    · cases mid with
      | nil =>
        cases i with
        | nil => exact .inl (List.nil_infix)
        | cons d i =>
          obtain ⟨rfl,_⟩ := List.cons.inj hmid
          exact absurd (by simp) hc
      | cons d mid => exact .inr ⟨mid,y,by simpa using (List.cons.inj hmid).2.symm⟩
  · rintro (⟨x,y,rfl⟩ | ⟨x,y,rfl⟩)
    · exact ⟨x,y ++ c :: b,by simp⟩
    · exact ⟨a ++ c :: x,y,by simp⟩

omit [DecidableEq α] in
theorem infix_append_left {c : α} {i a : List α} (hi : i.head? = some c) (h : c ∉ a)
    (b : List α) : i <:+: a ++ b ↔ i <:+: b := by
  obtain ⟨i,rfl⟩ := List.head?_eq_some_iff.mp hi
  induction a with
  | nil => rfl
  | cons d a ih =>
    simp only [List.mem_cons,not_or] at h
    rw [List.cons_append,List.infix_cons_iff,List.cons_prefix_cons,ih h.2]
    simp [h.1]

omit [DecidableEq α] in
theorem infix_append_right {c : α} {i b : List α} (hi : i.getLast? = some c) (h : c ∉ b)
    (a : List α) : i <:+: a ++ b ↔ i <:+: a := by
  rw [← List.reverse_infix,List.reverse_append,
    infix_append_left (by rwa [List.head?_reverse]) (by simpa using h),List.reverse_infix]

omit [DecidableEq α] in
theorem infix_append_block {i block : List α} (hne : block ≠ []) (h : ∀ c ∈ block, c ∉ i)
    (a b : List α) : i <:+: a ++ (block ++ b) ↔ i <:+: a ∨ i <:+: b := by
  induction block generalizing a with
  | nil => exact absurd rfl hne
  | cons c block ih =>
    have hc := h c (by simp)
    have hblock : ∀ d ∈ block, d ∉ i := fun d hd => h d (List.mem_cons_of_mem _ hd)
    rw [List.cons_append,infix_append_cons hc]
    cases block with
    | nil => rfl
    | cons d block =>
      have hrest := ih (by simp) hblock []
      rw [List.nil_append] at hrest
      rw [hrest]
      constructor
      · rintro (hl | hl | hl)
        · exact .inl hl
        · exact .inl (hl.trans List.nil_infix)
        · exact .inr hl
      · rintro (hl | hl)
        · exact .inl hl
        · exact .inr (.inr hl)

def Unbordered (sep : List α) : Prop := ∀ k < sep.length, 0 < k → ¬ sep.drop k <+: sep

instance (sep : List α) : Decidable (Unbordered sep) :=
  inferInstanceAs (Decidable (∀ k < sep.length, 0 < k → ¬ sep.drop k <+: sep))

/-- An occurrence that reached out of the text before the separator would share with
the separator one of its ends. -/
theorem dropInfix_unbordered {sep p : List α} (hu : Unbordered sep) (h : ¬ sep <:+: p)
    (s : List α) : (p ++ sep ++ s).dropInfix? sep = some (p,s) := by
  refine dropInfix_eq_some.mpr ⟨rfl,?_⟩
  intro p' s' hl
  by_contra hlt
  push Not at hlt
  rw [List.append_assoc,List.append_assoc] at hl
  obtain ⟨mid,rfl⟩ : p' <+: p :=
    List.prefix_of_prefix_length_le ⟨_,hl.symm⟩ ⟨_,rfl⟩ hlt.le
  rw [List.append_assoc,List.append_cancel_left_eq] at hl
  have hmid : 0 < mid.length := by simpa using hlt
  by_cases hlong : sep.length ≤ mid.length
  · obtain ⟨rest,rfl⟩ : sep <+: mid := List.prefix_of_prefix_length_le ⟨s',hl.symm⟩ ⟨_,rfl⟩ hlong
    exact h ⟨p',rest,by simp⟩
  · push Not at hlong
    obtain ⟨rest,hsep⟩ : mid <+: sep := List.prefix_of_prefix_length_le ⟨_,hl⟩ ⟨s',rfl⟩ hlong.le
    refine hu mid.length hlong hmid ?_
    have hdrop : sep.drop mid.length = rest := by rw [← hsep,List.drop_left]
    rw [hdrop]
    have hrest : sep ++ s = rest ++ s' := by
      have hl' : mid ++ (sep ++ s) = mid ++ (rest ++ s') := by rw [hl,← List.append_assoc,hsep]
      exact List.append_cancel_left hl'
    refine List.prefix_of_prefix_length_le ⟨s',hrest.symm⟩ ⟨s,rfl⟩ ?_
    rw [← hdrop,List.length_drop]
    omega

/-- The pieces between the occurrences; the first argument bounds the cuts left. -/
def pieces (sep : List α) : Nat → List α → List (List α)
  | 0, s => [s]
  | n+1, s =>
    match s.dropInfix? sep with
    | none => [s]
    | some (piece,rest) => piece :: pieces sep n rest

/-- A separator that is not empty occurs at most as often as the text is long. -/
def split (sep s : List α) : List (List α) := pieces sep s.length s

theorem pieces_of_not_infix {sep s : List α} (h : ¬ sep <:+: s) (n : Nat) :
    pieces sep n s = [s] := by
  cases n with
  | zero => rfl
  | succ n => simp only [pieces,dropInfix_eq_none.mpr h]

theorem pieces_ne_nil (sep : List α) (n : Nat) (s : List α) : pieces sep n s ≠ [] := by
  cases n with
  | zero => exact List.cons_ne_nil _ _
  | succ n =>
    unfold pieces
    split <;> exact List.cons_ne_nil _ _

theorem one_lt_length_split {sep s : List α} (hsep : sep ≠ []) (h : sep <:+: s) :
    1 < (split sep s).length := by
  have hlen : 0 < s.length := (List.length_pos_of_ne_nil hsep).trans_le h.length_le
  obtain ⟨n,hn⟩ := Nat.exists_eq_succ_of_ne_zero hlen.ne'
  cases hd : s.dropInfix? sep with
  | none => exact absurd h (dropInfix_eq_none.mp hd)
  | some r =>
    have hpos := List.length_pos_of_ne_nil (pieces_ne_nil sep n r.2)
    simp only [split,hn,pieces,hd,List.length_cons]
    omega

theorem pieces_intercalate {sep : List α} (hu : Unbordered sep) {parts : List (List α)}
    (hne : parts ≠ []) (h : ∀ p ∈ parts, ¬ sep <:+: p) (n : Nat) (hn : parts.length ≤ n+1) :
    pieces sep n (sep.intercalate parts) = parts := by
  induction parts generalizing n with
  | nil => exact absurd rfl hne
  | cons p parts ih =>
    cases parts with
    | nil =>
      rw [List.intercalate_singleton]
      exact pieces_of_not_infix (h p (by simp)) n
    | cons q parts =>
      obtain ⟨n,rfl⟩ : ∃ m, n = m+1 := ⟨n-1,by simp only [List.length_cons] at hn; omega⟩
      have hrest := ih (by simp) (fun r hr => h r (List.mem_cons_of_mem _ hr)) n
        (by simp only [List.length_cons] at hn ⊢; omega)
      have hfirst := dropInfix_unbordered hu (h p (by simp)) (sep.intercalate (q :: parts))
      rw [List.append_assoc] at hfirst
      rw [List.intercalate_cons_cons,List.append_assoc]
      simp only [pieces,hfirst,hrest]

omit [DecidableEq α] in
theorem length_intercalate_ge {sep : List α} (hsep : sep ≠ []) (parts : List (List α)) :
    parts.length ≤ (sep.intercalate parts).length + 1 := by
  have hpos := List.length_pos_of_ne_nil hsep
  induction parts with
  | nil => simp
  | cons p parts ih =>
    cases parts with
    | nil => simp
    | cons q parts =>
      rw [List.intercalate_cons_cons]
      simp only [List.length_append,List.length_cons] at ih ⊢
      omega

theorem split_intercalate {sep : List α} (hsep : sep ≠ []) (hu : Unbordered sep)
    {parts : List (List α)} (hne : parts ≠ []) (h : ∀ p ∈ parts, ¬ sep <:+: p) :
    split sep (sep.intercalate parts) = parts :=
  pieces_intercalate hu hne h _ (length_intercalate_ge hsep parts)

/-- The text before the first element that satisfies `p`, and the text after it. -/
def cutAt (p : α → Bool) (s : List α) : Option (List α × List α) :=
  match s.dropWhile fun c => !p c with
  | [] => none
  | _ :: rest => some (s.takeWhile (fun c => !p c),rest)

omit [DecidableEq α] in
theorem cutAt_append {p : α → Bool} {a : List α} {c : α} (ha : ∀ x ∈ a, p x = false)
    (hc : p c = true) (b : List α) : cutAt p (a ++ c :: b) = some (a,b) := by
  have hall : ∀ x ∈ a, (!p x) = true := fun x hx => by simp [ha x hx]
  simp [cutAt,List.dropWhile_append_of_pos hall,List.takeWhile_append_of_pos hall,hc]

omit [DecidableEq α] in
theorem cutAt_eq_some {p : α → Bool} {s a b : List α} :
    cutAt p s = some (a,b) ↔ ∃ c, p c = true ∧ s = a ++ c :: b ∧ ∀ x ∈ a, p x = false := by
  constructor
  · intro h
    have hsplit : s.takeWhile (fun c => !p c) ++ s.dropWhile (fun c => !p c) = s :=
      List.takeWhile_append_dropWhile
    cases hd : s.dropWhile fun c => !p c with
    | nil => simp [cutAt,hd] at h
    | cons c rest =>
      have hc : p c = true := by
        have hhead := List.head?_dropWhile_not (fun c => !p c) s
        simpa [hd] using hhead
      simp only [cutAt,hd,Option.some.injEq,Prod.mk.injEq] at h
      obtain ⟨rfl,rfl⟩ := h
      refine ⟨c,hc,by rw [← hd,hsplit],?_⟩
      intro x hx
      simpa using List.mem_takeWhile_imp hx
  · rintro ⟨c,hc,rfl,ha⟩
    exact cutAt_append ha hc b

omit [DecidableEq α] in
theorem cutAt_eq_none {p : α → Bool} {s : List α} :
    cutAt p s = none ↔ ∀ x ∈ s, p x = false := by
  constructor
  · intro h x hx
    cases hd : s.dropWhile fun c => !p c with
    | nil => simpa using List.dropWhile_eq_nil_iff.mp hd x hx
    | cons c rest => simp [cutAt,hd] at h
  · intro h
    have hd : s.dropWhile (fun c => !p c) = [] :=
      List.dropWhile_eq_nil_iff.mpr fun x hx => by simp [h x hx]
    simp [cutAt,hd]

end Split

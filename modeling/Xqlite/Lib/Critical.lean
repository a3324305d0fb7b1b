import Mathlib.Data.List.Pairwise
import Xqlite.Lib.Mutex
import Xqlite.Lib.Runs
set_option autoImplicit false

/-! Operations of many agents on one object, each of them step by step between lock and
unlock of the object's mutex. Whatever the agents do, every operation returns what it would
return if the operations ran alone, one after another, and that order agrees with the order
in which they were called and returned. -/

namespace Critical
open Runs Mutex

/-- What operations do while they have the mutex. A choice is what is decided elsewhere. -/
structure Object (S Op Loc R Choice : Type*) where
  ready : S → Op → Bool
  enter : Op → Loc
  step : S → Loc → Choice → S × (Loc ⊕ R)

inductive Place (Op Loc R : Type*) where
  | idle
  | waiting (ticket : Nat) (op : Op)
  | inside (ticket : Nat) (op : Op) (l : Loc)
  | leaving (ticket : Nat) (op : Op) (r : R)
  | returning (ticket : Nat) (op : Op) (r : R)

structure State (α S Op Loc R : Type*) where
  shared : S
  mutex : Option α
  pc : α → Place Op Loc R
  calls : Nat

inductive Input (Op Choice : Type*) where
  | call (op : Op)
  | next (c : Choice)

/-- What is written down. Calls and returns are seen from outside. -/
inductive Mark (α Op R : Type*) where
  | called (ticket : Nat) (a : α) (op : Op)
  | finished (ticket : Nat) (a : α) (op : Op) (r : R)
  | returned (ticket : Nat) (a : α) (r : R)

variable {α S Op Loc R Choice : Type*}

def Place.holds : Place Op Loc R → Bool
  | .inside _ _ _ | .leaving _ _ _ => true
  | _ => false

def Mark.ticket : Mark α Op R → Nat
  | .called k _ _ | .finished k _ _ _ | .returned k _ _ => k

def Place.ticket? : Place Op Loc R → Option Nat
  | .idle => none
  | .waiting k _ | .inside k _ _ | .leaving k _ _ | .returning k _ _ => some k

def Mark.agent : Mark α Op R → α
  | .called _ a _ | .finished _ a _ _ | .returned _ a _ => a

def Mark.kind : Mark α Op R → Nat
  | .called _ _ _ => 0
  | .finished _ _ _ _ => 1
  | .returned _ _ _ => 2

def Mark.Distinct (m m' : Mark α Op R) : Prop := m.ticket = m'.ticket → m.kind ≠ m'.kind

def Mark.completion? : Mark α Op R → Option (Op × R)
  | .finished _ _ op r => some (op,r)
  | _ => none

def completions (marks : List (Mark α Op R)) : List (Op × R) := marks.filterMap Mark.completion?

theorem completions_append (ms ms' : List (Mark α Op R)) :
    completions (ms ++ ms') = completions ms ++ completions ms' :=
  List.filterMap_append

@[simp] theorem completions_finished (ms : List (Mark α Op R)) (k : Nat) (a : α) (op : Op) (r : R) :
    completions (.finished k a op r :: ms) = (op,r) :: completions ms := rfl

theorem mem_completions {ms : List (Mark α Op R)} {k : Nat} {a : α} {op : Op} {r : R}
    (h : Mark.finished k a op r ∈ ms) : (op,r) ∈ completions ms :=
  List.mem_filterMap.mpr ⟨_,h,rfl⟩

def State.initial (init : S) : State α S Op Loc R := ⟨init,none,fun _ => .idle,0⟩

section Alone

variable (o : Object S Op Loc R Choice)

inductive Reaches (s : S) (l : Loc) : S → Loc → Prop where
  | refl : Reaches s l s l
  | step {s' s'' : S} {l' l'' : Loc} (c : Choice) (h : Reaches s l s' l')
      (hstep : o.step s' l' c = (s'',.inl l'')) : Reaches s l s'' l''

def Alone (s : S) (l : Loc) (s' : S) (r : R) : Prop :=
  ∃ t m c, Reaches o s l t m ∧ o.step t m c = (s',.inr r)

inductive Sequential (init : S) : List (Op × R) → S → Prop where
  | nil : Sequential init [] init
  | snoc {cs : List (Op × R)} {s s' : S} {op : Op} {r : R} (h : Sequential init cs s)
      (hop : Alone o s (o.enter op) s' r) : Sequential init (cs ++ [(op,r)]) s'

variable {o} {s s' init : S} {l l' : Loc} {r : R} {cs : List (Op × R)}

theorem Reaches.inv {J : S → Loc → Prop}
    (hmore : ∀ s l c s' l', J s l → o.step s l c = (s',.inl l') → J s' l')
    (h : Reaches o s l s' l') (hJ : J s l) : J s' l' := by
  induction h with
  | refl => exact hJ
  | step c _ hstep ih => exact hmore _ _ c _ _ ih hstep

theorem Alone.inv {J : S → Loc → Prop} {Q : S → R → Prop}
    (hmore : ∀ s l c s' l', J s l → o.step s l c = (s',.inl l') → J s' l')
    (hlast : ∀ s l c s' r, J s l → o.step s l c = (s',.inr r) → Q s' r)
    (h : Alone o s l s' r) (hJ : J s l) : Q s' r := by
  obtain ⟨t,m,c,hreach,hstep⟩ := h
  exact hlast t m c s' r (hreach.inv hmore hJ) hstep

/-- The rule for what every operation keeps when it runs alone. -/
theorem Sequential.inv {I : List (Op × R) → S → Prop} (hinit : I [] init)
    (hop : ∀ cs s op s' r, I cs s → Alone o s (o.enter op) s' r → I (cs ++ [(op,r)]) s')
    (h : Sequential o init cs s) : I cs s := by
  induction h with
  | nil => exact hinit
  | snoc _ halone ih => exact hop _ _ _ _ _ ih halone

theorem Sequential.split {later : List (Op × R)} {op : Op}
    (h : Sequential o init (cs ++ (op,r) :: later) s) :
    ∃ t t', Sequential o init cs t ∧ Alone o t (o.enter op) t' r := by
  generalize hall : cs ++ (op,r) :: later = all at h
  induction h generalizing later with
  | nil => simp at hall
  | @snoc earlier t t' op' r' hseq hop ih =>
    rcases List.eq_nil_or_concat later with rfl | ⟨rest,c,rfl⟩
    · obtain ⟨rfl,heq⟩ := List.append_inj' hall rfl
      cases heq
      exact ⟨t,t',hseq,hop⟩
    · rw [List.concat_eq_append,← List.cons_append,← List.append_assoc] at hall
      exact ih (List.append_inj' hall rfl).1

/-- `I` holds of the object whenever no operation is at work on it, `J` at each step. -/
structure Keeps (o : Object S Op Loc R Choice) (I : S → Prop) (J : S → Loc → Prop) : Prop where
  enter : ∀ s op, I s → J s (o.enter op)
  more : ∀ s l c s' l', J s l → o.step s l c = (s',.inl l') → J s' l'
  last : ∀ s l c s' r, J s l → o.step s l c = (s',.inr r) → I s'

theorem Sequential.keeps {I : S → Prop} {J : S → Loc → Prop} (hk : Keeps o I J) (hinit : I init)
    (h : Sequential o init cs s) : I s :=
  h.inv (I := fun _ s => I s) hinit
    (fun _ s op _ _ hI halone => halone.inv (Q := fun s _ => I s) hk.more hk.last
      (hk.enter s op hI))

end Alone

section Machine

variable [DecidableEq α] (o : Object S Op Loc R Choice)

def State.goto (s : State α S Op Loc R) (a : α) (p : Place Op Loc R) : State α S Op Loc R :=
  { s with pc := Function.update s.pc a p }

def advance (s : State α S Op Loc R) (a : α) (c : Choice) :
    State α S Op Loc R × Option (Mark α Op R) :=
  match s.pc a with
  | .idle => (s,none)
  | .waiting k op =>
    if s.mutex.isNone then
      (State.goto { s with mutex := some a } a (.inside k op (o.enter op)),none)
    else (s,none)
  | .inside k op l =>
    match o.step s.shared l c with
    | (shared,.inl l') => (State.goto { s with shared } a (.inside k op l'),none)
    | (shared,.inr r) =>
      (State.goto { s with shared } a (.leaving k op r),some (.finished k a op r))
  | .leaving k op r => (State.goto { s with mutex := none } a (.returning k op r),none)
  | .returning k _ r => (s.goto a .idle,some (.returned k a r))

def step (s : State α S Op Loc R) : α × Input Op Choice → State α S Op Loc R × Option (Mark α Op R)
  | (a,.call op) =>
    match s.pc a with
    | .idle =>
      if o.ready s.shared op then
        (State.goto { s with calls := s.calls+1 } a (.waiting s.calls op),
          some (.called s.calls a op))
      else (s,none)
    | _ => (s,none)
  | (a,.next c) => advance o s a c

def marks (init : S) (is : List (α × Input Op Choice)) : List (Mark α Op R) :=
  history (step o) (fun s i => (step o s i).2.toList) (.initial init) is

inductive Moves (s : State α S Op Loc R) (a : α) :
    State α S Op Loc R → Option (Mark α Op R) → Prop where
  | rest : Moves s a s none
  | call (op : Op) (hpc : s.pc a = .idle) (hready : o.ready s.shared op = true) :
      Moves s a (State.goto { s with calls := s.calls+1 } a (.waiting s.calls op))
        (some (.called s.calls a op))
  | lock (k : Nat) (op : Op) (hpc : s.pc a = .waiting k op) (hfree : s.mutex = none) :
      Moves s a (State.goto { s with mutex := some a } a (.inside k op (o.enter op))) none
  | more (k : Nat) (op : Op) (l l' : Loc) (c : Choice) (shared : S)
      (hpc : s.pc a = .inside k op l) (hstep : o.step s.shared l c = (shared,.inl l')) :
      Moves s a (State.goto { s with shared } a (.inside k op l')) none
  | finish (k : Nat) (op : Op) (l : Loc) (c : Choice) (shared : S) (r : R)
      (hpc : s.pc a = .inside k op l) (hstep : o.step s.shared l c = (shared,.inr r)) :
      Moves s a (State.goto { s with shared } a (.leaving k op r)) (some (.finished k a op r))
  | unlock (k : Nat) (op : Op) (r : R) (hpc : s.pc a = .leaving k op r) :
      Moves s a (State.goto { s with mutex := none } a (.returning k op r)) none
  | back (k : Nat) (op : Op) (r : R) (hpc : s.pc a = .returning k op r) :
      Moves s a (s.goto a .idle) (some (.returned k a r))

variable {o}

theorem step_moves (s : State α S Op Loc R) (i : α × Input Op Choice) :
    Moves o s i.1 (step o s i).1 (step o s i).2 := by
  obtain ⟨a,i⟩ := i
  cases i with
  | call op =>
    cases hpc : s.pc a with
    | idle =>
      cases hready : o.ready s.shared op with
      | false => simpa [step,hpc,hready] using Moves.rest
      | true => simpa [step,hpc,hready] using Moves.call op hpc hready
    | _ => simpa only [step,hpc] using Moves.rest
  | next c =>
    cases hpc : s.pc a with
    | idle => simpa only [step,advance,hpc] using Moves.rest
    | waiting k op =>
      cases hm : s.mutex with
      | none => simpa [step,advance,hpc,hm] using Moves.lock k op hpc hm
      | some b => simpa [step,advance,hpc,hm] using Moves.rest
    | inside k op l =>
      cases hstep : o.step s.shared l c with
      | mk shared after =>
        cases after with
        | inl l' =>
          simpa only [step,advance,hpc,hstep] using Moves.more k op l l' c shared hpc hstep
        | inr r =>
          simpa only [step,advance,hpc,hstep] using Moves.finish k op l c shared r hpc hstep
    | leaving k op r => simpa only [step,advance,hpc] using Moves.unlock k op r hpc
    | returning k op r => simpa only [step,advance,hpc] using Moves.back k op r hpc

@[simp] theorem goto_pc_self (s : State α S Op Loc R) (a : α) (p : Place Op Loc R) :
    (s.goto a p).pc a = p := by
  simp [State.goto]

theorem goto_pc_other (s : State α S Op Loc R) {a b : α} (p : Place Op Loc R) (h : b ≠ a) :
    (s.goto a p).pc b = s.pc b := by
  simp [State.goto,h]

theorem goto_forall {P : α → Place Op Loc R → Prop} {s : State α S Op Loc R} {a : α}
    {p : Place Op Loc R} (hself : P a p) (hother : ∀ b, b ≠ a → P b (s.pc b)) (b : α) :
    P b ((s.goto a p).pc b) := by
  by_cases hb : b = a
  · rw [hb,goto_pc_self]
    exact hself
  · rw [goto_pc_other s p hb]
    exact hother b hb

end Machine

section Order

theorem before_trans {β : Type*} {l : List β} (hl : l.Nodup) {x y z : β}
    (hxy : [x,y].Sublist l) (hyz : [y,z].Sublist l) : [x,z].Sublist l := by
  induction l with
  | nil => cases hxy
  | cons w l ih =>
    obtain ⟨hw,hl⟩ := List.nodup_cons.mp hl
    cases hxy with
    | cons _ hxy =>
      cases hyz with
      | cons _ hyz => exact (ih hl hxy hyz).cons w
      | cons_cons _ hz => exact absurd (hxy.subset (by simp)) hw
    | cons_cons _ hy =>
      cases hyz with
      | cons _ hyz => exact .cons_cons _ (List.singleton_sublist.mpr (hyz.subset (by simp)))
      | cons_cons _ hz => exact absurd (hy.subset (by simp)) hw

theorem not_before_both {β : Type*} {l : List β} (hl : l.Nodup) {x y : β}
    (hxy : [x,y].Sublist l) (hyx : [y,x].Sublist l) : False := by
  have hxx := hl.sublist (before_trans hl hxy hyx)
  simp at hxx

theorem before_of_mem {β : Type*} {l : List β} {x y : β} (h : y ∈ l) : [x,y].Sublist (x :: l) :=
  (List.singleton_sublist.mpr h).cons_cons x

theorem before_split {β : Type*} {l : List β} {x y : β} (h : [x,y].Sublist l) :
    ∃ earlier rest, l = earlier ++ x :: rest ∧ y ∈ rest := by
  obtain ⟨l₁,l₂,rfl,hx,hy⟩ := List.cons_sublist_iff.mp h
  obtain ⟨earlier,later,rfl⟩ := List.append_of_mem hx
  exact ⟨earlier,later ++ l₂,by simp,
    List.mem_append_right later (List.singleton_sublist.mp hy)⟩

variable (o : Object S Op Loc R Choice)

/-- What the holder of the mutex has done to the object since the last operation. -/
def Place.Within (init : S) (cs : List (Op × R)) (shared : S) : Place Op Loc R → Prop
  | .inside _ op l => ∃ s, Sequential o init cs s ∧ Reaches o s (o.enter op) shared l
  | .leaving _ _ _ => Sequential o init cs shared
  | _ => True

def Place.Marked (marks : List (Mark α Op R)) (a : α) : Place Op Loc R → Prop
  | .idle => True
  | .waiting k op | .inside k op _ =>
    Mark.called k a op ∈ marks ∧ ∀ m ∈ marks, m.ticket = k → m = .called k a op
  | .leaving k op r | .returning k op r =>
    Mark.finished k a op r ∈ marks ∧
      ∀ m ∈ marks, m.ticket = k → m = .called k a op ∨ m = .finished k a op r

def Mark.After (marks : List (Mark α Op R)) : Mark α Op R → Prop
  | .called _ _ _ => True
  | .finished k a op r => [.called k a op,.finished k a op r].Sublist marks
  | .returned k a r => ∃ op, [.finished k a op r,.returned k a r].Sublist marks

structure Inv (init : S) (marks : List (Mark α Op R)) (s : State α S Op Loc R) : Prop where
  exclusive : Exclusive Place.holds s.mutex s.pc
  free : s.mutex = none → Sequential o init (completions marks) s.shared
  within : ∀ a, (s.pc a).Within o init (completions marks) s.shared
  fresh : ∀ m ∈ marks, m.ticket < s.calls
  marked : ∀ a, (s.pc a).Marked marks a
  after : ∀ m ∈ marks, m.After marks
  distinct : marks.Pairwise Mark.Distinct

variable {o} {init : S} {marks : List (Mark α Op R)} {s : State α S Op Loc R} {a b : α}

theorem Inv.initial : Inv o init ([] : List (Mark α Op R)) (.initial init) where
  exclusive a := by simp [State.initial,Place.holds]
  free _ := .nil
  within _ := trivial
  fresh m hm := by cases hm
  marked _ := trivial
  after m hm := by cases hm
  distinct := List.Pairwise.nil

theorem Mark.After.mono {m m' : Mark α Op R} (h : m.After marks) : m.After (marks ++ [m']) := by
  cases m with
  | called k a op => trivial
  | finished k a op r => exact h.trans (List.sublist_append_left _ _)
  | returned k a r =>
    obtain ⟨op,h⟩ := h
    exact ⟨op,h.trans (List.sublist_append_left _ _)⟩

theorem before_snoc {β : Type*} {l : List β} {x y : β} (hx : x ∈ l) : [x,y].Sublist (l ++ [y]) := by
  have hpair : [x,y] = [x] ++ [y] := rfl
  rw [hpair]
  exact (List.singleton_sublist.mpr hx).append (List.Sublist.refl [y])

theorem Place.within_of_not_holds {p : Place Op Loc R} (h : p.holds = false)
    (cs : List (Op × R)) (shared : S) : p.Within o init cs shared := by
  cases p with
  | inside k op l | leaving k op r => cases h
  | _ => trivial

theorem Place.Marked.exists_mark {p : Place Op Loc R} {k : Nat} (h : p.Marked marks a)
    (hk : p.ticket? = some k) : ∃ m ∈ marks, m.ticket = k := by
  cases p with
  | idle => cases hk
  | waiting j op | inside j op l | leaving j op r | returning j op r =>
    cases hk
    exact ⟨_,h.1,rfl⟩

theorem Place.Marked.agent_eq {p : Place Op Loc R} {k : Nat} {m : Mark α Op R}
    (h : p.Marked marks a) (hk : p.ticket? = some k) (hm : m ∈ marks) (hmk : m.ticket = k) :
    m.agent = a := by
  cases p with
  | idle => cases hk
  | waiting j op | inside j op l =>
    cases hk
    rw [h.2 m hm hmk]
    rfl
  | leaving j op r | returning j op r =>
    cases hk
    obtain hcalled | hfinished := h.2 m hm hmk
    · rw [hcalled]
      rfl
    · rw [hfinished]
      rfl

theorem Place.Marked.mono {p : Place Op Loc R} {m : Mark α Op R} (h : p.Marked marks a)
    (hother : p.ticket? ≠ some m.ticket) : p.Marked (marks ++ [m]) a := by
  have hall : ∀ {Q : Mark α Op R → Prop} {k : Nat}, some k ≠ some m.ticket →
      (∀ m' ∈ marks, m'.ticket = k → Q m') → ∀ m' ∈ marks ++ [m], m'.ticket = k → Q m' := by
    intro Q k hne hQ m' hm' hk
    obtain hold | hnew := List.mem_append.mp hm'
    · exact hQ m' hold hk
    · rw [List.mem_singleton.mp hnew] at hk
      exact absurd (congrArg some hk.symm) hne
  cases p with
  | idle => trivial
  | waiting k op | inside k op l | leaving k op r | returning k op r =>
    exact ⟨List.mem_append_left _ h.1,hall hother h.2⟩

theorem Inv.ticket_lt (h : Inv o init marks s) {k : Nat} (hk : (s.pc a).ticket? = some k) :
    k < s.calls := by
  obtain ⟨m,hm,rfl⟩ := (h.marked a).exists_mark hk
  exact h.fresh m hm

theorem Inv.ticket_ne (h : Inv o init marks s) (hb : b ≠ a) {k : Nat}
    (hk : (s.pc a).ticket? = some k) : (s.pc b).ticket? ≠ some k := by
  intro hk'
  obtain ⟨m,hm,hmk⟩ := (h.marked a).exists_mark hk
  apply hb
  rw [← (h.marked b).agent_eq hk' hm hmk,(h.marked a).agent_eq hk hm hmk]

theorem Inv.after_snoc (h : Inv o init marks s) {m : Mark α Op R} (hm : m.After (marks ++ [m])) :
    ∀ m' ∈ marks ++ [m], m'.After (marks ++ [m]) := by
  intro m' hm'
  obtain hold | hnew := List.mem_append.mp hm'
  · exact (h.after m' hold).mono
  · rw [List.mem_singleton.mp hnew]
    exact hm

theorem Inv.distinct_snoc (h : Inv o init marks s) {m : Mark α Op R}
    (hm : ∀ m' ∈ marks, m'.Distinct m) : (marks ++ [m]).Pairwise Mark.Distinct := by
  refine List.pairwise_append.mpr ⟨h.distinct,List.pairwise_singleton _ m,?_⟩
  intro m' hm' m'' hm''
  rw [List.mem_singleton.mp hm'']
  exact hm m' hm'

theorem Inv.nodup (h : Inv o init marks s) : marks.Nodup := by
  refine h.distinct.imp ?_
  intro m m' hdistinct heq
  exact hdistinct (congrArg Mark.ticket heq) (congrArg Mark.kind heq)

theorem Inv.eq_of_kind (h : Inv o init marks s) {m m' : Mark α Op R} (hm : m ∈ marks)
    (hm' : m' ∈ marks) (hticket : m.ticket = m'.ticket) (hkind : m.kind = m'.kind) : m = m' := by
  by_contra hne
  have hsymm : Std.Symm fun m m' : Mark α Op R => m.Distinct m' :=
    ⟨fun _ _ hd ht hk => hd ht.symm hk.symm⟩
  exact h.distinct.forall hm hm' hne hticket hkind

theorem Inv.within_other (h : Inv o init marks s) (ha : (s.pc a).holds = true) (hb : b ≠ a)
    (cs : List (Op × R)) (shared : S) : (s.pc b).Within o init cs shared :=
  Place.within_of_not_holds (h.exclusive.other ((h.exclusive a).mp ha) hb) cs shared

section Step

variable [DecidableEq α]

theorem Inv.call (h : Inv o init marks s) {op : Op} (hpc : s.pc a = .idle) :
    Inv o init (marks ++ [.called s.calls a op])
      (State.goto { s with calls := s.calls+1 } a (.waiting s.calls op)) := by
  have hnew : ∀ m ∈ marks, m.Distinct (.called s.calls a op) :=
    fun m hm hticket => absurd (hticket ▸ h.fresh m hm) (Nat.lt_irrefl _)
  have hsame : completions (marks ++ [.called s.calls a op]) = completions marks := by
    simp [completions,Mark.completion?]
  refine ⟨h.exclusive.move (by rw [hpc]; rfl),?_,?_,?_,?_,h.after_snoc trivial,
    h.distinct_snoc hnew⟩
  · rw [hsame]
    exact h.free
  · rw [hsame]
    exact goto_forall (P := fun _ p => p.Within o init (completions marks) s.shared) trivial
      (fun b _ => h.within b)
  · intro m hm
    obtain hold | hlast := List.mem_append.mp hm
    · exact Nat.lt_succ_of_lt (h.fresh m hold)
    · rw [List.mem_singleton.mp hlast]
      exact Nat.lt_succ_self s.calls
  · refine goto_forall (P := fun b p => p.Marked (marks ++ [.called s.calls a op]) b) ?_ ?_
    · refine ⟨List.mem_append_right _ (List.mem_singleton_self _),?_⟩
      intro m hm hk
      obtain hold | hlast := List.mem_append.mp hm
      · exact absurd (hk ▸ h.fresh m hold) (Nat.lt_irrefl _)
      · exact List.mem_singleton.mp hlast
    · intro b _
      exact (h.marked b).mono (fun hk => absurd (h.ticket_lt hk) (Nat.lt_irrefl _))

theorem Inv.lock (h : Inv o init marks s) {k : Nat} {op : Op} (hpc : s.pc a = .waiting k op)
    (hfree : s.mutex = none) :
    Inv o init marks
      (State.goto { s with mutex := some a } a (.inside k op (o.enter op))) := by
  have hmarked := h.marked a
  rw [hpc] at hmarked
  refine ⟨h.exclusive.lock hfree rfl,?_,?_,h.fresh,?_,h.after,h.distinct⟩
  · intro hnone
    cases hnone
  · exact goto_forall (P := fun _ p => p.Within o init (completions marks) s.shared)
      ⟨s.shared,h.free hfree,.refl⟩ (fun b _ => h.within b)
  · exact goto_forall (P := fun b p => p.Marked marks b) hmarked (fun b _ => h.marked b)

theorem Inv.more (h : Inv o init marks s) {k : Nat} {op : Op} {l l' : Loc} {c : Choice}
    {shared : S} (hpc : s.pc a = .inside k op l)
    (hstep : o.step s.shared l c = (shared,.inl l')) :
    Inv o init marks (State.goto { s with shared } a (.inside k op l')) := by
  have hholds : (s.pc a).holds = true := by rw [hpc]; rfl
  have hmarked := h.marked a
  have hwithin := h.within a
  rw [hpc] at hmarked hwithin
  obtain ⟨t,hseq,hreach⟩ := hwithin
  refine ⟨h.exclusive.move hholds.symm,?_,?_,h.fresh,?_,h.after,h.distinct⟩
  · intro hnone
    exact absurd ((h.exclusive a).mp hholds) (by simp [show s.mutex = none from hnone])
  · exact goto_forall (P := fun _ p => p.Within o init (completions marks) shared)
      ⟨t,hseq,hreach.step c hstep⟩ (fun b hb => h.within_other hholds hb _ _)
  · exact goto_forall (P := fun b p => p.Marked marks b) hmarked (fun b _ => h.marked b)

theorem Inv.finish (h : Inv o init marks s) {k : Nat} {op : Op} {l : Loc} {c : Choice}
    {shared : S} {r : R} (hpc : s.pc a = .inside k op l)
    (hstep : o.step s.shared l c = (shared,.inr r)) :
    Inv o init (marks ++ [.finished k a op r])
      (State.goto { s with shared } a (.leaving k op r)) := by
  have hholds : (s.pc a).holds = true := by rw [hpc]; rfl
  have hticket : (s.pc a).ticket? = some k := by rw [hpc]; rfl
  have hmarked := h.marked a
  have hwithin := h.within a
  rw [hpc] at hmarked hwithin
  obtain ⟨t,hseq,hreach⟩ := hwithin
  have hnew : ∀ m ∈ marks, m.Distinct (.finished k a op r) := by
    intro m hm hticket
    rw [hmarked.2 m hm hticket]
    simp [Mark.kind]
  have hsnoc : completions (marks ++ [.finished k a op r]) = completions marks ++ [(op,r)] := by
    simp [completions,Mark.completion?]
  refine ⟨h.exclusive.move hholds.symm,?_,?_,?_,?_,h.after_snoc (before_snoc hmarked.1),
    h.distinct_snoc hnew⟩
  · intro hnone
    exact absurd ((h.exclusive a).mp hholds) (by simp [show s.mutex = none from hnone])
  · rw [hsnoc]
    exact goto_forall (P := fun _ p => p.Within o init (completions marks ++ [(op,r)]) shared)
      (hseq.snoc ⟨_,_,c,hreach,hstep⟩) (fun b hb => h.within_other hholds hb _ _)
  · intro m hm
    obtain hold | hlast := List.mem_append.mp hm
    · exact h.fresh m hold
    · rw [List.mem_singleton.mp hlast]
      exact h.ticket_lt hticket
  · refine goto_forall (P := fun b p => p.Marked (marks ++ [.finished k a op r]) b) ?_ ?_
    · refine ⟨List.mem_append_right _ (List.mem_singleton_self _),?_⟩
      intro m hm hk
      obtain hold | hlast := List.mem_append.mp hm
      · exact .inl (hmarked.2 m hold hk)
      · exact .inr (List.mem_singleton.mp hlast)
    · intro b hb
      exact (h.marked b).mono (h.ticket_ne hb hticket)

theorem Inv.unlock (h : Inv o init marks s) {k : Nat} {op : Op} {r : R}
    (hpc : s.pc a = .leaving k op r) :
    Inv o init marks (State.goto { s with mutex := none } a (.returning k op r)) := by
  have hholds : (s.pc a).holds = true := by rw [hpc]; rfl
  have hmarked := h.marked a
  have hwithin := h.within a
  rw [hpc] at hmarked hwithin
  refine ⟨h.exclusive.unlock hholds rfl,fun _ => hwithin,?_,h.fresh,?_,h.after,h.distinct⟩
  · exact goto_forall (P := fun _ p => p.Within o init (completions marks) s.shared) trivial
      (fun b _ => h.within b)
  · exact goto_forall (P := fun b p => p.Marked marks b) hmarked (fun b _ => h.marked b)

theorem Inv.back (h : Inv o init marks s) {k : Nat} {op : Op} {r : R}
    (hpc : s.pc a = .returning k op r) :
    Inv o init (marks ++ [.returned k a r]) (s.goto a .idle) := by
  have hticket : (s.pc a).ticket? = some k := by rw [hpc]; rfl
  have hmarked := h.marked a
  rw [hpc] at hmarked
  have hnew : ∀ m ∈ marks, m.Distinct (.returned k a r) := by
    intro m hm hticket
    obtain hcalled | hfinished := hmarked.2 m hm hticket
    · simp [hcalled,Mark.kind]
    · simp [hfinished,Mark.kind]
  have hsame : completions (marks ++ [.returned k a r]) = completions marks := by
    simp [completions,Mark.completion?]
  refine ⟨h.exclusive.move (by rw [hpc]; rfl),?_,?_,?_,?_,
    h.after_snoc ⟨op,before_snoc hmarked.1⟩,h.distinct_snoc hnew⟩
  · rw [hsame]
    exact h.free
  · rw [hsame]
    exact goto_forall (P := fun _ p => p.Within o init (completions marks) s.shared) trivial
      (fun b _ => h.within b)
  · intro m hm
    obtain hold | hlast := List.mem_append.mp hm
    · exact h.fresh m hold
    · rw [List.mem_singleton.mp hlast]
      exact h.ticket_lt hticket
  · refine goto_forall (P := fun b p => p.Marked (marks ++ [.returned k a r]) b) ?_ ?_
    · exact True.intro
    · intro b hb
      exact (h.marked b).mono (h.ticket_ne hb hticket)

theorem Inv.moves (h : Inv o init marks s) {s' : State α S Op Loc R} {m : Option (Mark α Op R)}
    (hmoves : Moves o s a s' m) : Inv o init (marks ++ m.toList) s' := by
  cases hmoves with
  | rest => simpa using h
  | call op hpc _ => exact h.call hpc
  | lock k op hpc hfree => simpa using h.lock hpc hfree
  | more k op l l' c shared hpc hstep => simpa using h.more hpc hstep
  | finish k op l c shared r hpc hstep => exact h.finish hpc hstep
  | unlock k op r hpc => simpa using h.unlock hpc
  | back k op r hpc => exact h.back hpc

end Step

end Order

section Runs

variable [DecidableEq α] (o : Object S Op Loc R Choice) (init : S)
  (is : List (α × Input Op Choice))

theorem inv_run : Inv o init (marks o init is) (run (step o) (.initial init) is).1 := by
  have hstep : ∀ (l : List (Mark α Op R)) (s : State α S Op Loc R) (i : α × Input Op Choice),
      Inv o init l s → True → Inv o init (l ++ (step o s i).2.toList) (step o s i).1 :=
    fun l s i h _ => h.moves (step_moves s i)
  have h := history_inv (step o) hstep Inv.initial
    (allSteps_of_forall (step o) (fun _ _ => trivial) (.initial init) is)
  simpa [marks] using h

/-- The operations finished so far are a run of them one after another, and the object is
as they left it but for the operation that has the mutex. -/
theorem shared_reached :
    ∃ t, Sequential o init (completions (marks o init is)) t ∧
      ((run (step o) (.initial init) is).1.shared = t ∨
        ∃ op l, Reaches o t (o.enter op) (run (step o) (.initial init) is).1.shared l) := by
  have h := inv_run o init is
  cases hm : (run (step o) (.initial init) is).1.mutex with
  | none => exact ⟨_,h.free hm,.inl rfl⟩
  | some a =>
    have hwithin := h.within a
    have hholds := (h.exclusive a).mpr hm
    cases hpc : (run (step o) (.initial init) is).1.pc a with
    | inside k op l =>
      rw [hpc] at hwithin
      obtain ⟨t,hseq,hreach⟩ := hwithin
      exact ⟨t,hseq,.inr ⟨op,l,hreach⟩⟩
    | leaving k op r =>
      rw [hpc] at hwithin
      exact ⟨_,hwithin,.inl rfl⟩
    | idle | waiting k op | returning k op r =>
      rw [hpc] at hholds
      cases hholds

variable {o init}

theorem always_keeps {I K : S → Prop} {J : S → Loc → Prop} (hk : Keeps o I J) (hinit : I init)
    (hI : ∀ s, I s → K s) (hJ : ∀ s l, J s l → K s) :
    K (run (step o) (.initial init) is).1.shared := by
  obtain ⟨t,hseq,hshared⟩ := shared_reached o init is
  have ht := hseq.keeps hk hinit
  obtain hsame | ⟨op,l,hreach⟩ := hshared
  · rw [hsame]
    exact hI t ht
  · exact hJ _ l (hreach.inv hk.more (hk.enter t op ht))

variable {is}

theorem free_keeps {I : S → Prop} {J : S → Loc → Prop} (hk : Keeps o I J) (hinit : I init)
    (hfree : (run (step o) (.initial init) is).1.mutex = none) :
    I (run (step o) (.initial init) is).1.shared :=
  ((inv_run o init is).free hfree).keeps hk hinit

theorem inside_keeps {I : S → Prop} {J : S → Loc → Prop} (hk : Keeps o I J) (hinit : I init)
    {a : α} {k : Nat} {op : Op} {l : Loc}
    (hpc : (run (step o) (.initial init) is).1.pc a = .inside k op l) :
    J (run (step o) (.initial init) is).1.shared l := by
  have hwithin := (inv_run o init is).within a
  rw [hpc] at hwithin
  obtain ⟨s,hseq,hreach⟩ := hwithin
  exact hreach.inv hk.more (hk.enter s op (hseq.keeps hk hinit))

theorem returned_finished {k : Nat} {a : α} {r : R}
    (h : Mark.returned k a r ∈ marks o init is) :
    ∃ op, [.finished k a op r,.returned k a r].Sublist (marks o init is) :=
  (inv_run o init is).after _ h

/-- An operation that was called after another had returned is finished after it. -/
theorem finished_order {k j : Nat} {a b : α} {op op' : Op} {r r' : R}
    (hreal : [.returned k a r,.called j b op'].Sublist (marks o init is))
    (hk : Mark.finished k a op r ∈ marks o init is)
    (hj : Mark.finished j b op' r' ∈ marks o init is) :
    [.finished k a op r,.finished j b op' r'].Sublist (marks o init is) := by
  have hinv := inv_run o init is
  obtain ⟨op'',hreturned⟩ := returned_finished (hreal.subset List.mem_cons_self)
  rw [hinv.eq_of_kind (hreturned.subset List.mem_cons_self) hk rfl rfl] at hreturned
  have hlater : [.called j b op',.finished j b op' r'].Sublist (marks o init is) := hinv.after _ hj
  exact before_trans hinv.nodup (before_trans hinv.nodup hreturned hreal) hlater

end Runs

end Critical

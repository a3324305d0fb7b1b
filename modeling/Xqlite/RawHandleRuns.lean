import Xqlite.Lib.Mutex
import Xqlite.RawHandles
set_option autoImplicit false

namespace Xqlite.Raw
open Runs Lifecycle Mutex

variable {Tid Handle Ptr : Type}

/-- Every raw pointer is in its handle's cell, in the hands of the one thread that
swapped it out, or destroyed. -/
structure Inv (ptrs : Handle → Option Ptr) (log : List (Event Tid Ptr Ffi))
    (s : State Tid Handle Ptr) : Prop where
  sound : Sound Ffi.destroys log
  mutex : ∀ t, (s.pc t).holds = true ↔ s.mutex = some t
  cells : ∀ h p, s.cell h = some p → ptrs h = some p ∧ p ∉ destroyed Ffi.destroys log
  owners : ∀ t h p, (s.pc t).owns = some (h,p) →
    ptrs h = some p ∧ s.cell h = none ∧ p ∉ destroyed Ffi.destroys log
  distinct : ∀ t u h p, (s.pc t).owns = some (h,p) → (s.pc u).owns = some (h,p) → t = u
  borrowers : ∀ t p, (s.pc t).borrows = some p → p ∉ destroyed Ffi.destroys log
  accounted : ∀ h p, ptrs h = some p →
    s.cell h = some p ∨ (∃ t, (s.pc t).owns = some (h,p)) ∨ p ∈ destroyed Ffi.destroys log

def Distinct (ptrs : Handle → Option Ptr) : Prop :=
  ∀ h h' p, ptrs h = some p → ptrs h' = some p → h = h'

def State.initial (connOpen : Bool) (ptrs : Handle → Option Ptr) : State Tid Handle Ptr :=
  ⟨none,connOpen,ptrs,fun _ => .idle⟩

theorem Inv.initial (connOpen : Bool) (ptrs : Handle → Option Ptr) :
    Inv ptrs ([] : List (Event Tid Ptr Ffi)) (.initial connOpen ptrs) where
  sound := .nil _
  mutex t := by simp [State.initial,Pc.holds]
  cells h p hp := ⟨hp,by simp [destroyed]⟩
  owners t h p hp := by simp [State.initial,Pc.owns] at hp
  distinct t u h p hp := by simp [State.initial,Pc.owns] at hp
  borrowers t p hp := by simp [State.initial,Pc.borrows] at hp
  accounted h p hp := .inl hp

section Preserve

variable {ptrs : Handle → Option Ptr} {log : List (Event Tid Ptr Ffi)}
  {s s' : State Tid Handle Ptr} {t : Tid}

theorem Inv.mutual (h : Inv ptrs log s) : Exclusive Pc.holds s.mutex s.pc := h.mutex

theorem Inv.quiet (h : Inv ptrs log s) (hcell : s'.cell = s.cell)
    (hpc : ∀ u, u ≠ t → s'.pc u = s.pc u) (howns : (s'.pc t).owns = (s.pc t).owns)
    (hborrows : ∀ p, (s'.pc t).borrows = some p →
      (s.pc t).borrows = some p ∨ ∃ k, s.cell k = some p)
    (hmutex : ∀ u, (s'.pc u).holds = true ↔ s'.mutex = some u) : Inv ptrs log s' := by
  have hown : ∀ u, (s'.pc u).owns = (s.pc u).owns := by
    intro u
    by_cases hu : u = t
    · rw [hu,howns]
    · rw [hpc u hu]
  refine ⟨h.sound,hmutex,?_,?_,?_,?_,?_⟩
  · rw [hcell]
    exact h.cells
  · intro u k p hu
    rw [hown] at hu
    rw [hcell]
    exact h.owners u k p hu
  · intro u v k p hu hv
    rw [hown] at hu hv
    exact h.distinct u v k p hu hv
  · intro u p hu
    by_cases hut : u = t
    · subst hut
      rcases hborrows p hu with hb | ⟨k,hk⟩
      · exact h.borrowers u p hb
      · exact (h.cells k p hk).2
    · rw [hpc u hut] at hu
      exact h.borrowers u p hu
  · intro k p hp
    simp only [hcell,hown]
    exact h.accounted k p hp

theorem Inv.silent (h : Inv ptrs log s) (hcell : s'.cell = s.cell)
    (hpc : ∀ u, u ≠ t → s'.pc u = s.pc u) (howns : (s'.pc t).owns = (s.pc t).owns)
    (hborrows : (s'.pc t).borrows = none)
    (hmutex : ∀ u, (s'.pc u).holds = true ↔ s'.mutex = some u) : Inv ptrs log s' := by
  refine h.quiet hcell hpc howns ?_ hmutex
  intro p hp
  rw [hborrows] at hp
  cases hp

theorem Inv.owner_swapped (h : Inv ptrs log s) {k : Handle} {p : Ptr} (hk : s.cell k = some p)
    (hpc : ∀ u, u ≠ t → s'.pc u = s.pc u) (howns' : (s'.pc t).owns = some (k,p))
    {u : Tid} {k' : Handle} {q : Ptr} (hu : (s'.pc u).owns = some (k',q)) :
    u = t ∧ k' = k ∧ q = p ∨ k' ≠ k ∧ (s.pc u).owns = some (k',q) := by
  by_cases hut : u = t
  · rw [hut,howns'] at hu
    cases hu
    exact .inl ⟨hut,rfl,rfl⟩
  · rw [hpc u hut] at hu
    refine .inr ⟨fun hkk => ?_,hu⟩
    have hnone := (h.owners u k' q hu).2.1
    rw [hkk,hk] at hnone
    cases hnone

theorem Inv.swapped [DecidableEq Handle] (h : Inv ptrs log s) {k : Handle} {p : Ptr}
    (hk : s.cell k = some p) (hcell : s'.cell = Function.update s.cell k none)
    (hpc : ∀ u, u ≠ t → s'.pc u = s.pc u) (howns : (s.pc t).owns = none)
    (howns' : (s'.pc t).owns = some (k,p)) (hborrows : (s'.pc t).borrows = none)
    (hmutex : ∀ u, (s'.pc u).holds = true ↔ s'.mutex = some u) : Inv ptrs log s' := by
  obtain ⟨hptr,hlive⟩ := h.cells k p hk
  refine ⟨h.sound,hmutex,?_,?_,?_,?_,?_⟩
  · intro k' q hq
    rw [hcell] at hq
    by_cases hkk : k' = k
    · simp [hkk] at hq
    · rw [Function.update_of_ne hkk] at hq
      exact h.cells k' q hq
  · intro u k' q hu
    rw [hcell]
    rcases h.owner_swapped hk hpc howns' hu with ⟨-,hkk,hqp⟩ | ⟨hkk,hu⟩
    · rw [hkk,hqp]
      exact ⟨hptr,Function.update_self k none s.cell,hlive⟩
    · obtain ⟨hq,hnone,hq'⟩ := h.owners u k' q hu
      exact ⟨hq,by rw [Function.update_of_ne hkk,hnone],hq'⟩
  · intro u v k' q hu hv
    rcases h.owner_swapped hk hpc howns' hu with ⟨hut,hkk,-⟩ | ⟨hkk,hu⟩ <;>
      rcases h.owner_swapped hk hpc howns' hv with ⟨hvt,hkk',-⟩ | ⟨hkk',hv⟩
    · rw [hut,hvt]
    · exact absurd hkk hkk'
    · exact absurd hkk' hkk
    · exact h.distinct u v k' q hu hv
  · intro u q hu
    by_cases hut : u = t
    · rw [hut,hborrows] at hu
      cases hu
    · rw [hpc u hut] at hu
      exact h.borrowers u q hu
  · intro k' q hq
    rcases h.accounted k' q hq with hc | ⟨u,hu⟩ | hd
    · by_cases hkk : k' = k
      · rw [hkk,hk] at hc
        cases hc
        exact .inr (.inl ⟨t,by rw [hkk]; exact howns'⟩)
      · exact .inl (by rw [hcell,Function.update_of_ne hkk,hc])
    · have hut : u ≠ t := by
        intro heq
        rw [heq,howns] at hu
        cases hu
      exact .inr (.inl ⟨u,by rw [hpc u hut]; exact hu⟩)
    · exact .inr (.inr hd)

theorem Inv.logged_use (h : Inv ptrs log s) {e : Event Tid Ptr Ffi}
    (hfn : e.fn.destroys = false) (hheld : e.holder = some e.agent)
    (hlive : e.resource ∉ destroyed Ffi.destroys log) : Inv ptrs (log ++ [e]) s := by
  have hsame : destroyed Ffi.destroys (log ++ [e]) = destroyed Ffi.destroys log := by
    rw [destroyed_append,destroyed_use _ hfn,List.append_nil]
  refine ⟨h.sound.snoc _ hheld hlive,h.mutex,?_,?_,h.distinct,?_,?_⟩
  · rw [hsame]
    exact h.cells
  · rw [hsame]
    exact h.owners
  · rw [hsame]
    exact h.borrowers
  · rw [hsame]
    exact h.accounted

/-- The owner destroys its pointer: it is in no cell, no other thread owns it, and
no other thread can have borrowed it, since borrowing needs the lock. -/
theorem Inv.destroyed_by (hptrs : Distinct ptrs) (h : Inv ptrs log s) {e : Event Tid Ptr Ffi}
    {k : Handle} (hfn : e.fn.destroys = true) (hheld : e.holder = some e.agent)
    (hmutex : s.mutex = some t) (hcell : s'.cell = s.cell)
    (hexclusive : Exclusive Pc.holds s'.mutex s'.pc)
    (hpc : ∀ u, u ≠ t → s'.pc u = s.pc u) (howns : (s.pc t).owns = some (k,e.resource))
    (howns' : (s'.pc t).owns = none) (hborrows : (s'.pc t).borrows = none) :
    Inv ptrs (log ++ [e]) s' := by
  obtain ⟨hptr,hnone,hlive⟩ := h.owners t k e.resource howns
  have hmem : ∀ q, q ∈ destroyed Ffi.destroys (log ++ [e]) ↔
      q ∈ destroyed Ffi.destroys log ∨ q = e.resource := by
    intro q
    rw [destroyed_append,destroyed_destroy _ hfn,List.mem_append,List.mem_singleton]
  have hother : ∀ u k' q, u ≠ t → (s'.pc u).owns = some (k',q) → (s.pc u).owns = some (k',q) := by
    intro u k' q hut hu
    rw [hpc u hut] at hu
    exact hu
  have hne : ∀ u k' q, (s'.pc u).owns = some (k',q) → u ≠ t := by
    intro u k' q hu hut
    rw [hut,howns'] at hu
    cases hu
  refine ⟨h.sound.snoc _ hheld hlive,hexclusive,?_,?_,?_,?_,?_⟩
  · intro k' q hq
    rw [hcell] at hq
    obtain ⟨hq',hql⟩ := h.cells k' q hq
    refine ⟨hq',?_⟩
    rw [hmem]
    rintro (hd | heq)
    · exact hql hd
    · rw [heq] at hq'
      rw [hptrs k' k _ hq' hptr,hnone] at hq
      cases hq
  · intro u k' q hu
    have hut := hne u k' q hu
    have hu' := hother u k' q hut hu
    obtain ⟨hq,hc,hql⟩ := h.owners u k' q hu'
    refine ⟨hq,by rw [hcell]; exact hc,?_⟩
    rw [hmem]
    rintro (hd | heq)
    · exact hql hd
    · rw [heq] at hq hu'
      rw [hptrs k' k _ hq hptr] at hu'
      exact hut (h.distinct u t k _ hu' howns)
  · intro u v k' q hu hv
    exact h.distinct u v k' q (hother u k' q (hne u k' q hu) hu) (hother v k' q (hne v k' q hv) hv)
  · intro u q hu
    have hut : u ≠ t := by
      intro heq
      rw [heq,hborrows] at hu
      cases hu
    rw [hpc u hut] at hu
    have hlock := (h.mutex u).mp (holds_of_borrows hu)
    rw [hmutex,Option.some.injEq] at hlock
    exact absurd hlock.symm hut
  · intro k' q hq
    rw [hmem,hcell]
    rcases h.accounted k' q hq with hc | ⟨u,hu⟩ | hd
    · exact .inl hc
    · by_cases hut : u = t
      · rw [hut,howns] at hu
        cases hu
        exact .inr (.inr (.inr rfl))
      · exact .inr (.inl ⟨u,by rw [hpc u hut]; exact hu⟩)
    · exact .inr (.inr (.inl hd))

theorem Inv.count_destroyed [DecidableEq Ptr] (hinv : Inv ptrs log s) {h : Handle} {p : Ptr}
    (hp : ptrs h = some p) (hcell : s.cell h = none)
    (hreturned : ∀ t, (s.pc t).target ≠ some h) : (destroyed Ffi.destroys log).count p = 1 := by
  rcases hinv.accounted h p hp with hc | ⟨t,ht⟩ | hd
  · rw [hcell] at hc
    cases hc
  · exact absurd (target_of_owns ht) (hreturned t)
  · exact List.count_eq_one_of_mem (hinv.sound.nodup_destroyed _) hd

end Preserve

section Goto

variable [DecidableEq Tid]

@[simp] theorem goto_pc_self (s : State Tid Handle Ptr) (t : Tid) (pc : Pc Handle Ptr) :
    (s.goto t pc).pc t = pc := by
  simp [State.goto]

theorem goto_pc_other (s : State Tid Handle Ptr) {t u : Tid} (h : u ≠ t) (pc : Pc Handle Ptr) :
    (s.goto t pc).pc u = s.pc u := by
  simp [State.goto,h]

@[simp] theorem goto_cell (s : State Tid Handle Ptr) (t : Tid) (pc : Pc Handle Ptr) :
    (s.goto t pc).cell = s.cell := rfl

end Goto

section Run

variable [DecidableEq Tid] [DecidableEq Handle]

theorem step_eq_perform (kind : Handle → Kind) (s : State Tid Handle Ptr)
    (i : Tid × Choice Handle) :
    step kind s i =
      ((perform s i.1 (advance kind s (s.pc i.1) i.2).2).1.goto i.1
          (advance kind s (s.pc i.1) i.2).1,
        (perform s i.1 (advance kind s (s.pc i.1) i.2).2).2) := rfl

def calls (kind : Handle → Kind) (s : State Tid Handle Ptr) (i : Tid × Choice Handle) :
    List (Event Tid Ptr Ffi) :=
  (step kind s i).2.toList

theorem Inv.preserved {ptrs : Handle → Option Ptr} (hptrs : Distinct ptrs)
    {log : List (Event Tid Ptr Ffi)} {s : State Tid Handle Ptr} (h : Inv ptrs log s)
    (kind : Handle → Kind) (i : Tid × Choice Handle) :
    Inv ptrs (log ++ calls kind s i) (step kind s i).1 := by
  obtain ⟨t,choice⟩ := i
  have heffect := advance_effect kind s (s.pc t) choice
  unfold calls
  rw [step_eq_perform]
  unfold Leads at heffect
  generalize hpc' : (advance kind s (s.pc t) choice).1 = pc' at heffect ⊢
  generalize hmove : (advance kind s (s.pc t) choice).2 = move at heffect ⊢
  cases heffect with
  | stay hholds howns hborrows =>
    rw [perform,Option.toList_none,List.append_nil]
    refine h.quiet rfl (fun u hu => goto_pc_other s hu pc') ?_ ?_ (h.mutual.move hholds)
    · rw [goto_pc_self,howns]
    · intro p hp
      rw [goto_pc_self] at hp
      exact hborrows p hp
  | takeConn hholds howns hborrows =>
    rw [perform,Option.toList_none,List.append_nil]
    refine h.silent rfl (fun u hu => goto_pc_other _ hu pc') ?_ ?_ (h.mutual.move hholds)
    · rw [goto_pc_self,howns]
    · rw [goto_pc_self,hborrows]
  | lock hfree hholds' howns hborrows =>
    rw [perform,Option.toList_none,List.append_nil]
    refine h.silent rfl (fun u hu => goto_pc_other _ hu pc') ?_ ?_ (h.mutual.lock hfree hholds')
    · rw [goto_pc_self,howns]
    · rw [goto_pc_self,hborrows]
  | unlock hholds hholds' howns howns' hborrows =>
    rw [perform,Option.toList_none,List.append_nil]
    refine h.silent rfl (fun u hu => goto_pc_other _ hu pc') ?_ ?_
      (h.mutual.unlock hholds hholds')
    · rw [goto_pc_self,howns,howns']
    · rw [goto_pc_self,hborrows]
  | swap k p hcell hholds howns howns' hborrows =>
    rw [perform,Option.toList_none,List.append_nil]
    refine h.swapped hcell rfl (fun u hu => goto_pc_other _ hu pc') howns ?_ ?_
      (h.mutual.move hholds)
    · rw [goto_pc_self,howns']
    · rw [goto_pc_self,hborrows]
  | use fn p hfn hholds hborrows howns' hborrows' =>
    have hlock := (h.mutex t).mp (holds_of_borrows hborrows)
    have hquiet : Inv ptrs log (s.goto t pc') := by
      refine h.quiet rfl (fun u hu => goto_pc_other s hu pc') ?_ ?_ (h.mutual.move ?_)
      · rw [goto_pc_self,howns',owns_of_borrows hborrows]
      · intro q hq
        rw [goto_pc_self] at hq
        rcases hborrows' with hsame | hnone
        · rw [← hq,hsame]
          exact .inl hborrows
        · rw [hnone] at hq
          cases hq
      · rw [hholds,holds_of_borrows hborrows]
    exact hquiet.logged_use hfn hlock (h.borrowers t p hborrows)
  | destroy fn k p hfn hholds hholds' howns howns' hborrows =>
    have hlock := (h.mutex t).mp hholds
    refine h.destroyed_by (t := t) (k := k) hptrs hfn hlock hlock rfl
      (h.mutual.move (hholds'.trans hholds.symm)) (fun u hu => goto_pc_other s hu pc') howns ?_ ?_
    · exact (congrArg Pc.owns (goto_pc_self s t pc')).trans howns'
    · exact (congrArg Pc.borrows (goto_pc_self s t pc')).trans hborrows

def callLog (kind : Handle → Kind) (connOpen : Bool) (ptrs : Handle → Option Ptr)
    (is : List (Tid × Choice Handle)) : List (Event Tid Ptr Ffi) :=
  history (step kind) (calls kind) (.initial connOpen ptrs) is

theorem Inv.reached {ptrs : Handle → Option Ptr} (hptrs : Distinct ptrs) (kind : Handle → Kind)
    (connOpen : Bool) (is : List (Tid × Choice Handle)) :
    Inv ptrs (callLog kind connOpen ptrs is)
      (run (step kind) (.initial connOpen ptrs) is).1 :=
  history_inv (step kind) (P := fun _ _ => True)
    (fun _ _ i h _ => h.preserved hptrs kind i) (Inv.initial connOpen ptrs)
    (allSteps_of_forall _ (fun _ _ => trivial) _ _)

theorem step_cell_none {kind : Handle → Kind} {s : State Tid Handle Ptr} {h : Handle}
    (hs : s.cell h = none) (i : Tid × Choice Handle) : (step kind s i).1.cell h = none := by
  rw [step_eq_perform,goto_cell]
  cases (advance kind s (s.pc i.1) i.2).2 with
  | swap k =>
    by_cases hk : h = k
    · simp [perform,hk]
    · simp [perform,hk,hs]
  | _ => exact hs

def Closing (h : Handle) (s : State Tid Handle Ptr) : Prop :=
  (∃ t, s.pc t = .closeSwap h) ∨ s.cell h = none

theorem Closing.preserved {kind : Handle → Kind} {s : State Tid Handle Ptr} {h : Handle}
    (hs : Closing h s) (i : Tid × Choice Handle) : Closing h (step kind s i).1 := by
  rcases hs with ⟨t,ht⟩ | hcell
  · rw [step_eq_perform]
    by_cases hti : t = i.1
    · subst hti
      rw [ht]
      cases hc : i.2 with
      | next =>
        cases hcell : s.cell h with
        | none => exact .inr (by simp [advance,hcell,perform])
        | some p => exact .inr (by simp [advance,hcell,perform])
      | _ => exact .inl ⟨i.1,by rw [goto_pc_self]; rfl⟩
    · refine .inl ⟨t,?_⟩
      rw [goto_pc_other _ hti]
      cases (advance kind s (s.pc i.1) i.2).2 <;> exact ht
  · exact .inr (step_cell_none hcell i)

def CloseCalled (kind : Handle → Kind) (s : State Tid Handle Ptr)
    (is : List (Tid × Choice Handle)) (h : Handle) : Prop :=
  ∃ before t after, is = before ++ (t,.start (.close h)) :: after ∧
    (run (step kind) s before).1.pc t = .idle

theorem Closing.of_called {kind : Handle → Kind} {s : State Tid Handle Ptr}
    {is : List (Tid × Choice Handle)} {h : Handle} (hcalled : CloseCalled kind s is h) :
    Closing h (run (step kind) s is).1 := by
  obtain ⟨before,t,after,his,hidle⟩ := hcalled
  rw [his,run_append,run_cons]
  refine run_inv_total (step kind) (fun s i hs => hs.preserved i) after ?_
  refine .inl ⟨t,?_⟩
  rw [step_eq_perform,goto_pc_self,hidle]
  rfl

/-- In every interleaving each raw pointer is destroyed at most once and not used
afterwards, every call is made by the holder of the lock, and a closed handle that
nobody operates on any more has had its pointer destroyed. -/
theorem raw_handles_destroyed_once [DecidableEq Ptr] {ptrs : Handle → Option Ptr}
    (hptrs : Distinct ptrs) (kind : Handle → Kind) (connOpen : Bool)
    (is : List (Tid × Choice Handle)) :
    let start : State Tid Handle Ptr := .initial connOpen ptrs
    let s := (run (step kind) start is).1
    let log := callLog kind connOpen ptrs is
    (∀ p, (destroyed Ffi.destroys log).count p ≤ 1) ∧
    (∀ before e after, log = before ++ e :: after → e.fn.destroys = true →
      ∀ later ∈ after, later.resource ≠ e.resource) ∧
    (∀ e ∈ log, e.holder = some e.agent) ∧
    (∀ h p, ptrs h = some p → s.cell h = none ∨ CloseCalled kind start is h →
      (∀ t, (s.pc t).target ≠ some h) → (destroyed Ffi.destroys log).count p = 1) := by
  have hinv : Inv ptrs (callLog kind connOpen ptrs is)
      (run (step kind) (.initial connOpen ptrs : State Tid Handle Ptr) is).1 :=
    .reached hptrs kind connOpen is
  refine ⟨?_,?_,hinv.sound.held,?_⟩
  · intro p
    exact List.nodup_iff_count_le_one.mp (hinv.sound.nodup_destroyed _) p
  · intro before e after hlog hfn later hlater
    have hordered := hinv.sound.ordered
    rw [hlog,List.pairwise_append,List.pairwise_cons] at hordered
    exact hordered.2.1.1 later hlater hfn
  · intro h p hp hclosed hreturned
    refine hinv.count_destroyed hp ?_ hreturned
    rcases hclosed with hcell | hcalled
    · exact hcell
    · rcases Closing.of_called hcalled with ⟨t,ht⟩ | hcell
      · exact absurd (by rw [ht]; rfl) (hreturned t)
      · exact hcell

/-- Two threads close one statement while a third steps it. -/
theorem raw_handles_destroyed_once_contended :
    Distinct (fun _ : Unit => some true) ∧
      (destroyed Ffi.destroys (callLog (fun _ : Unit => .statement) true
        (fun _ : Unit => some true)
        [((0 : Fin 3),.start (.withLive ())),(1,.start (.close ())),(2,.start (.close ())),
          (0,.next),(0,.next),(0,.next),(1,.next),(0,.call .step),(2,.next),(1,.next),
          (0,.next),(0,.next),(1,.next),(1,.next),(1,.next)])).count true = 1 := by
  have hptrs : Distinct (fun _ : Unit => some true) := fun _ _ _ _ _ => rfl
  exact ⟨hptrs,(raw_handles_destroyed_once hptrs _ true _).2.2.2 () true rfl (.inl rfl)
    (by decide)⟩

end Run

end Xqlite.Raw

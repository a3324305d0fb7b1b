import Mathlib.Data.List.Induction
import Xqlite.Lib.Mutex
import Xqlite.ProgressDispatch
set_option autoImplicit false

/-! Operations of many threads on one connection, and the guard that holds their cancel
tokens in the progress dispatch. A step is one lock or unlock of the connection's mutex,
one write of the cancel list, one load of a token's flag, or a `cancel_operation` by
anybody. -/

namespace Xqlite.Cancel
open Runs Mutex Hook Progress

/-- An operation without a guard acts as one with no tokens: an empty guard touches
nothing. -/
inductive Op (Token : Type) where
  | runSql (tokens : List Token)
  | closeConnection
  deriving DecidableEq, Repr

/-- Where a thread stands. `ids` is what the guard registered so far. During the callback
`rest` is the part of the snapshot that is still to be loaded, and `loads` is the tokens
loaded so far with what was found in them. -/
inductive Pc (Token : Type) where
  | idle
  | waiting (op : Op Token)
  | registering (tokens todo : List Token) (ids : List Nat)
  | running (tokens : List Token) (ids : List Nat)
  | checking (tokens : List Token) (ids : List Nat) (rest : List (HookEntry Token))
      (loads : List (Token × Bool)) (shouldInterrupt : Bool)
  | dropping (ids : List Nat)
  | unlocking
  deriving DecidableEq, Repr

variable {Tid Token : Type}

def Pc.runs : Pc Token → Option (List Token)
  | .running tokens _ | .checking tokens _ _ _ _ => some tokens
  | _ => none

def Pc.holds : Pc Token → Bool
  | .idle | .waiting _ => false
  | _ => true

structure State (Tid Token : Type) where
  mutex : Option Tid
  connOpen : Bool
  cancels : HookList Token
  signalled : Token → Bool
  pc : Tid → Pc Token

def State.opened (signalled : Token → Bool) : State Tid Token :=
  ⟨none,true,.new,signalled,fun _ => .idle⟩

/-- While SQL runs, SQLite either calls the progress handler or ends the statement, in
success or in error. -/
inductive Event (Tid Token : Type) where
  | call (t : Tid) (op : Op Token)
  | progress (t : Tid)
  | next (t : Tid)
  | cancel (token : Token)
  deriving DecidableEq, Repr

/-- What the progress callback returned to SQLite, for which tokens, and what it loaded. -/
structure Returned (Token : Type) where
  tokens : List Token
  loads : List (Token × Bool)
  code : Nat
  deriving DecidableEq, Repr

/-- The next place of a thread and what it leaves in the connection. -/
def advance [DecidableEq Tid] (s : State Tid Token) (t : Tid) :
    State Tid Token × Pc Token × Option (Returned Token) :=
  match s.pc t with
  | .idle => (s,.idle,none)
  | .waiting op =>
      if s.mutex.isSome then (s,.waiting op,none)
      else match op with
        | .closeConnection => ({ s with mutex := some t, connOpen := false },.unlocking,none)
        | .runSql tokens =>
            if s.connOpen then ({ s with mutex := some t },.registering tokens tokens [],none)
            else ({ s with mutex := some t },.unlocking,none)
  | .registering tokens [] ids => (s,.running tokens ids,none)
  | .registering tokens (token :: todo) ids =>
      ({ s with cancels := (register s.cancels token).1 },
        .registering tokens todo (ids ++ [(register s.cancels token).2]),none)
  | .running _ ids => (s,.dropping ids,none)
  | .checking tokens ids (entry :: rest) loads shouldInterrupt =>
      let flag := s.signalled entry.state
      (s,.checking tokens ids rest (loads ++ [(entry.state,flag)])
        (if flag then true else shouldInterrupt),none)
  | .checking tokens ids [] loads shouldInterrupt =>
      (s,.running tokens ids,some ⟨tokens,loads,if shouldInterrupt then 1 else 0⟩)
  | .dropping [] => (s,.unlocking,none)
  | .dropping (id :: ids) => ({ s with cancels := (unregister s.cancels id).1 },.dropping ids,none)
  | .unlocking => ({ s with mutex := none },.idle,none)

def State.goto [DecidableEq Tid] (s : State Tid Token) (t : Tid) (pc : Pc Token) :
    State Tid Token :=
  { s with pc := Function.update s.pc t pc }

def step [DecidableEq Tid] [DecidableEq Token] (s : State Tid Token) :
    Event Tid Token → State Tid Token × Option (Returned Token)
  | .call t op =>
      match s.pc t with
      | .idle => (s.goto t (.waiting op),none)
      | _ => (s,none)
  | .progress t =>
      match s.pc t with
      | .running tokens ids => (s.goto t (.checking tokens ids s.cancels.entries [] false),none)
      | _ => (s,none)
  | .next t => ((advance s t).1.goto t (advance s t).2.1,(advance s t).2.2)
  | .cancel token => ({ s with signalled := Function.update s.signalled token true },none)

/-- What the thread at `pc`, between lock and unlock, knows of the cancel list. -/
def Pc.Owns (cancels : HookList Token) : Pc Token → Prop
  | .idle | .waiting _ => True
  | .registering tokens todo ids =>
      cancels.entries.map HookEntry.id = ids ∧
        cancels.entries.map HookEntry.state ++ todo = tokens
  | .running tokens ids =>
      cancels.entries.map HookEntry.id = ids ∧ cancels.entries.map HookEntry.state = tokens
  | .checking tokens ids rest loads shouldInterrupt =>
      (cancels.entries.map HookEntry.id = ids ∧ cancels.entries.map HookEntry.state = tokens) ∧
        loads.map Prod.fst ++ rest.map HookEntry.state = tokens ∧
        shouldInterrupt = loads.any Prod.snd
  | .dropping ids => ∀ e ∈ cancels.entries, e.id ∈ ids
  | .unlocking => cancels.entries = []

structure Inv (s : State Tid Token) : Prop where
  exclusive : ∀ t, (s.pc t).holds = true ↔ s.mutex = some t
  owns : ∀ t, (s.pc t).Owns s.cancels
  free : s.mutex = none → s.cancels.entries = []

theorem owns_of_not_holds {pc : Pc Token} (h : pc.holds = false) (cancels : HookList Token) :
    pc.Owns cancels := by
  cases pc with
  | idle | waiting op => trivial
  | _ => simp [Pc.holds] at h

theorem inv_opened (signalled : Token → Bool) :
    Inv (State.opened signalled : State Tid Token) :=
  ⟨fun t => by simp [State.opened,Pc.holds],fun _ => trivial,fun _ => rfl⟩

theorem Inv.mutual {s : State Tid Token} (h : Inv s) : Exclusive Pc.holds s.mutex s.pc :=
  h.exclusive

theorem Inv.other {s : State Tid Token} (h : Inv s) {t u : Tid} (ht : (s.pc t).holds = true)
    (hu : u ≠ t) : (s.pc u).holds = false :=
  h.mutual.other ((h.exclusive t).mp ht) hu

theorem Inv.runs_entries {s : State Tid Token} (h : Inv s) {t : Tid} {tokens : List Token}
    (ht : (s.pc t).runs = some tokens) :
    s.mutex = some t ∧ s.cancels.entries.map HookEntry.state = tokens := by
  have howns := h.owns t
  have hholds := h.exclusive t
  cases hpc : s.pc t with
  | running tokens' ids =>
    rw [hpc] at ht howns hholds
    obtain rfl := Option.some.inj ht
    exact ⟨hholds.mp rfl,howns.2⟩
  | checking tokens' ids rest loads shouldInterrupt =>
    rw [hpc] at ht howns hholds
    obtain rfl := Option.some.inj ht
    exact ⟨hholds.mp rfl,howns.1.2⟩
  | _ => simp [hpc,Pc.runs] at ht

theorem signalled_entries {s : State Tid Token} (h : Inv s) {t : Tid} {tokens : List Token}
    (ht : (s.pc t).runs = some tokens) :
    cancelPass s.signalled s.cancels = true ↔ ∃ token ∈ tokens, s.signalled token = true := by
  rw [cancelPass_eq,← (h.runs_entries ht).2]
  simp

section Threads

variable [DecidableEq Tid]

@[simp] theorem goto_pc_self (s : State Tid Token) (t : Tid) (pc : Pc Token) :
    (s.goto t pc).pc t = pc := by
  simp [State.goto]

theorem goto_pc_other (s : State Tid Token) {t u : Tid} (pc : Pc Token) (h : u ≠ t) :
    (s.goto t pc).pc u = s.pc u := by
  simp [State.goto,h]

theorem owns_goto {s : State Tid Token} {t : Tid} {pc : Pc Token} {cancels : HookList Token}
    (hself : pc.Owns cancels) (hother : ∀ u, u ≠ t → (s.pc u).Owns cancels) (u : Tid) :
    ((s.goto t pc).pc u).Owns cancels := by
  by_cases hu : u = t
  · rw [hu,goto_pc_self]
    exact hself
  · rw [goto_pc_other s pc hu]
    exact hother u hu

theorem Inv.move {s : State Tid Token} (h : Inv s) {t : Tid} {pc : Pc Token}
    (hholds : pc.holds = (s.pc t).holds) (howns : pc.Owns s.cancels) : Inv (s.goto t pc) :=
  ⟨h.mutual.move hholds,owns_goto howns fun u _ => h.owns u,h.free⟩

theorem Inv.write {s : State Tid Token} (h : Inv s) {t : Tid} {pc : Pc Token}
    {cancels : HookList Token} (ht : (s.pc t).holds = true) (hholds : pc.holds = true)
    (howns : pc.Owns cancels) : Inv (State.goto { s with cancels } t pc) := by
  have hmutex := (h.exclusive t).mp ht
  refine ⟨h.mutual.move (hholds.trans ht.symm),?_,?_⟩
  · exact owns_goto howns fun u hu => owns_of_not_holds (h.other ht hu) cancels
  · intro hnone
    have hsome : s.mutex = none := hnone
    rw [hmutex] at hsome
    cases hsome

theorem Inv.lock {s : State Tid Token} (h : Inv s) {t : Tid} {pc : Pc Token} (connOpen : Bool)
    (hfree : s.mutex = none) (hholds : pc.holds = true)
    (howns : s.cancels.entries = [] → pc.Owns s.cancels) :
    Inv (State.goto { s with mutex := some t, connOpen } t pc) := by
  refine ⟨h.mutual.lock hfree hholds,?_,?_⟩
  · exact owns_goto (howns (h.free hfree)) fun u _ => h.owns u
  · intro hnone
    simp [State.goto] at hnone

theorem Inv.unlock {s : State Tid Token} (h : Inv s) {t : Tid} (ht : (s.pc t).holds = true)
    (hempty : s.cancels.entries = []) : Inv (State.goto { s with mutex := none } t .idle) :=
  ⟨h.mutual.unlock ht rfl,owns_goto trivial fun u _ => h.owns u,fun _ => hempty⟩

theorem inv_advance {s : State Tid Token} (h : Inv s) (t : Tid) :
    Inv ((advance s t).1.goto t (advance s t).2.1) := by
  have howns := h.owns t
  unfold advance
  cases hpc : s.pc t with
  | idle => exact h.move (by rw [hpc]) trivial
  | waiting op =>
    cases hm : s.mutex with
    | some u =>
      have hstay : Inv (s.goto t (.waiting op)) := h.move (by rw [hpc]) trivial
      exact hstay
    | none =>
      cases op with
      | closeConnection => exact h.lock false hm rfl (fun hempty => hempty)
      | runSql tokens =>
        cases hopen : s.connOpen with
        | false => exact h.lock false hm rfl (fun hempty => hempty)
        | true => exact h.lock true hm rfl (fun hempty => by simp [Pc.Owns,hempty])
  | registering tokens todo ids =>
    rw [hpc] at howns
    obtain ⟨hids,hstates⟩ := howns
    cases todo with
    | nil =>
      rw [List.append_nil] at hstates
      exact h.move (by rw [hpc]; rfl) ⟨hids,hstates⟩
    | cons token todo =>
      refine h.write (by rw [hpc]; rfl) rfl ?_
      simp [Pc.Owns,← hids,← hstates]
  | running tokens ids =>
    rw [hpc] at howns
    refine h.move (by rw [hpc]; rfl) ?_
    intro e he
    rw [← howns.1]
    exact List.mem_map_of_mem he
  | checking tokens ids rest loads shouldInterrupt =>
    rw [hpc] at howns
    obtain ⟨hlist,hloads,hflag⟩ := howns
    cases rest with
    | nil => exact h.move (by rw [hpc]; rfl) hlist
    | cons entry rest =>
      refine h.move (by rw [hpc]; rfl) ⟨hlist,by simp [← hloads],?_⟩
      cases hsig : s.signalled entry.state <;> simp [hflag]
  | dropping ids =>
    rw [hpc] at howns
    cases ids with
    | nil =>
      have hempty := List.eq_nil_iff_forall_not_mem.mpr (fun e he => List.not_mem_nil (howns e he))
      exact h.move (by rw [hpc]; rfl) hempty
    | cons id ids =>
      refine h.write (by rw [hpc]; rfl) rfl ?_
      intro e he
      rw [unregister_entries,List.mem_filter,decide_eq_true_eq] at he
      exact (List.mem_cons.mp (howns e he.1)).resolve_left he.2
  | unlocking =>
    rw [hpc] at howns
    exact h.unlock (by rw [hpc]; rfl) howns

/-- What a callback that returns has seen: the flag of each of its operation's tokens, once. -/
def Returned.Sound (r : Returned Token) : Prop :=
  r.loads.map Prod.fst = r.tokens ∧ (r.code ≠ 0 ↔ ∃ load ∈ r.loads, load.2 = true)

theorem returned_sound {s : State Tid Token} (h : Inv s) {t : Tid} {r : Returned Token}
    (hr : (advance s t).2.2 = some r) : r.Sound := by
  have howns := h.owns t
  unfold advance at hr
  cases hpc : s.pc t with
  | checking tokens ids rest loads shouldInterrupt =>
    rw [hpc] at howns hr
    obtain ⟨_,hloads,hflag⟩ := howns
    cases rest with
    | cons entry rest => cases hr
    | nil =>
      obtain rfl := Option.some.inj hr
      refine ⟨by simpa using hloads,?_⟩
      rw [← List.any_eq_true (p := Prod.snd),hflag]
      cases loads.any Prod.snd <;> simp
  | registering tokens todo ids => cases todo <;> simp [hpc] at hr
  | dropping ids => cases ids <;> simp [hpc] at hr
  | waiting op =>
    rw [hpc] at hr
    cases hm : s.mutex <;> cases op <;> cases hopen : s.connOpen <;> simp [hm,hopen] at hr
  | _ => simp [hpc] at hr

inductive Reaches (s : State Tid Token) (e : Event Tid Token) (t : Tid) (tokens : List Token) :
    List (Token × Bool) → Prop
  | begins (ids : List Nat) (he : e = .progress t) (hpc : s.pc t = .running tokens ids) :
      Reaches s e t tokens []
  | stays {loads : List (Token × Bool)} (ids : List Nat) (rest : List (HookEntry Token)) (b : Bool)
      (he : e ≠ .next t) (hpc : s.pc t = .checking tokens ids rest loads b) :
      Reaches s e t tokens loads
  | loads {loads : List (Token × Bool)} (ids : List Nat) (entry : HookEntry Token)
      (rest : List (HookEntry Token)) (b : Bool) (he : e = .next t)
      (hpc : s.pc t = .checking tokens ids (entry :: rest) loads b) :
      Reaches s e t tokens (loads ++ [(entry.state,s.signalled entry.state)])

theorem advance_checking {s : State Tid Token} {t : Tid} {tokens : List Token} {ids : List Nat}
    {rest : List (HookEntry Token)} {loads : List (Token × Bool)} {b : Bool}
    (h : (advance s t).2.1 = .checking tokens ids rest loads b) :
    Reaches s (.next t) t tokens loads := by
  unfold advance at h
  cases hpc : s.pc t with
  | checking tokens' ids' rest' loads' b' =>
    cases rest' with
    | nil => simp [hpc] at h
    | cons entry rest' =>
      simp only [hpc,Pc.checking.injEq] at h
      obtain ⟨rfl,rfl,rfl,rfl,-⟩ := h
      exact .loads _ entry _ _ rfl hpc
  | registering tokens' todo ids' => cases todo <;> simp [hpc] at h
  | dropping ids' => cases ids' <;> simp [hpc] at h
  | waiting op =>
    rw [hpc] at h
    cases hm : s.mutex <;> cases op <;> cases hopen : s.connOpen <;> simp [hm,hopen] at h
  | _ => simp [hpc] at h

theorem advance_pc (s : State Tid Token) (t : Tid) : (advance s t).1.pc = s.pc := by
  unfold advance
  split
  case h_2 op _ =>
    cases hm : s.mutex <;> cases op <;> cases hopen : s.connOpen <;> simp
  all_goals rfl

variable [DecidableEq Token]

theorem inv_step (s : State Tid Token) (e : Event Tid Token) (h : Inv s) : Inv (step s e).1 := by
  cases e with
  | call t op =>
    cases hpc : s.pc t with
    | idle =>
      simp only [step,hpc]
      exact h.move (by rw [hpc]; rfl) trivial
    | _ => simpa only [step,hpc] using h
  | progress t =>
    cases hpc : s.pc t with
    | running tokens ids =>
      have howns := h.owns t
      rw [hpc] at howns
      simp only [step,hpc]
      exact h.move (by rw [hpc]; rfl) ⟨howns,by simpa using howns.2,rfl⟩
    | _ => simpa only [step,hpc] using h
  | next t => exact inv_advance h t
  | cancel token => exact ⟨h.exclusive,h.owns,h.free⟩

theorem step_checking {s : State Tid Token} {e : Event Tid Token} {t : Tid} {tokens : List Token}
    {ids : List Nat} {rest : List (HookEntry Token)} {loads : List (Token × Bool)} {b : Bool}
    (h : (step s e).1.pc t = .checking tokens ids rest loads b) : Reaches s e t tokens loads := by
  cases e with
  | call u op =>
    refine .stays ids rest b (by simp) ?_
    cases hpc : s.pc u with
    | idle =>
      simp only [step,hpc] at h
      by_cases hu : t = u
      · rw [hu,goto_pc_self] at h
        cases h
      · rwa [goto_pc_other s _ hu] at h
    | _ => simpa only [step,hpc] using h
  | progress u =>
    cases hpc : s.pc u with
    | running tokens' ids' =>
      simp only [step,hpc] at h
      by_cases hu : t = u
      · subst hu
        rw [goto_pc_self] at h
        cases h
        exact .begins _ rfl hpc
      · rw [goto_pc_other s _ hu] at h
        exact .stays ids rest b (by simp) h
    | _ =>
      simp only [step,hpc] at h
      exact .stays ids rest b (by simp) h
  | next u =>
    by_cases hu : t = u
    · subst hu
      have hplace : (advance s t).2.1 = .checking tokens ids rest loads b := by
        simpa only [step,goto_pc_self] using h
      exact advance_checking hplace
    · have hsame : s.pc t = .checking tokens ids rest loads b := by
        rw [← h]
        simp only [step]
        rw [goto_pc_other _ _ hu,advance_pc]
      exact .stays ids rest b (by simpa using Ne.symm hu) hsame
  | cancel token => exact .stays ids rest b (by simp) h

/-- The callback of the thread began after `before`, and each load so far was of the flag as
it was when the thread came to it, at its own steps one after another. -/
structure Loaded (s₀ : State Tid Token) (t : Tid) (before during : List (Event Tid Token))
    (tokens : List Token) (loads : List (Token × Bool)) : Prop where
  began : ((run step s₀ before).1.pc t).runs = some tokens
  steps : during.count (.next t) = loads.length
  flag : ∀ i load, loads[i]? = some load → ∃ done rest, during = done ++ .next t :: rest ∧
    done.count (.next t) = i ∧
    load.2 = (run step s₀ (before ++ .progress t :: done)).1.signalled load.1

theorem Loaded.other {s₀ : State Tid Token} {t : Tid} {before during : List (Event Tid Token)}
    {tokens : List Token} {loads : List (Token × Bool)}
    (h : Loaded s₀ t before during tokens loads) {e : Event Tid Token} (he : e ≠ .next t) :
    Loaded s₀ t before (during ++ [e]) tokens loads where
  began := h.began
  steps := by
    rw [List.count_append,h.steps,List.count_eq_zero_of_not_mem (by simpa using he.symm)]
    rfl
  flag := by
    intro i load hload
    obtain ⟨done,rest,rfl,hcount,hflag⟩ := h.flag i load hload
    exact ⟨done,rest ++ [e],by simp,hcount,hflag⟩

theorem Loaded.load {s₀ : State Tid Token} {t : Tid} {before during : List (Event Tid Token)}
    {tokens : List Token} {loads : List (Token × Bool)}
    (h : Loaded s₀ t before during tokens loads) (token : Token) :
    Loaded s₀ t before (during ++ [.next t]) tokens
      (loads ++ [(token,(run step s₀ (before ++ .progress t :: during)).1.signalled token)]) where
  began := h.began
  steps := by
    rw [List.count_append,h.steps,List.count_singleton_self,List.length_append]
    rfl
  flag := by
    intro i load hload
    rcases Nat.lt_trichotomy i loads.length with hi | hi | hi
    · rw [List.getElem?_append_left hi] at hload
      obtain ⟨done,rest,rfl,hcount,hflag⟩ := h.flag i load hload
      exact ⟨done,rest ++ [.next t],by simp,hcount,hflag⟩
    · rw [hi,List.getElem?_concat_length] at hload
      obtain rfl := Option.some.inj hload
      exact ⟨during,[],rfl,h.steps.trans hi.symm,rfl⟩
    · have hout : (loads ++ [(token,(run step s₀ (before ++ .progress t :: during)).1.signalled
          token)]).length ≤ i := by
        rw [List.length_append]
        exact hi
      rw [List.getElem?_eq_none hout] at hload
      cases hload

theorem run_concat_state (s₀ : State Tid Token) (events : List (Event Tid Token))
    (e : Event Tid Token) :
    (run step s₀ (events ++ [e])).1 = (step (run step s₀ events).1 e).1 := by
  rw [run_append]
  rfl

theorem loaded_of_checking {s₀ : State Tid Token}
    (h₀ : ∀ t tokens ids rest loads b, s₀.pc t ≠ .checking tokens ids rest loads b)
    (events : List (Event Tid Token)) {t : Tid} {tokens : List Token} {ids : List Nat}
    {rest : List (HookEntry Token)} {loads : List (Token × Bool)} {b : Bool}
    (h : (run step s₀ events).1.pc t = .checking tokens ids rest loads b) :
    ∃ before during, events = before ++ .progress t :: during ∧
      Loaded s₀ t before during tokens loads := by
  induction events using List.reverseRecOn generalizing ids rest loads b with
  | nil => exact absurd h (h₀ t tokens ids rest loads b)
  | append_singleton events e ih =>
    rw [run_concat_state] at h
    cases step_checking h with
    | begins ids' he hpc =>
      subst he
      refine ⟨events,[],rfl,?_,rfl,?_⟩
      · rw [hpc]
        rfl
      · intro i load hload
        cases hload
    | stays ids' rest' b' he hpc =>
      obtain ⟨before,during,rfl,hloaded⟩ := ih hpc
      exact ⟨before,during ++ [e],by simp,hloaded.other he⟩
    | loads ids' entry rest' b' he hpc =>
      subst he
      obtain ⟨before,during,rfl,hloaded⟩ := ih hpc
      exact ⟨before,during ++ [.next t],by simp,hloaded.load entry.state⟩

theorem returned_checking {s : State Tid Token} {t : Tid} {r : Returned Token}
    (hr : (step s (.next t)).2 = some r) :
    ∃ ids b, s.pc t = .checking r.tokens ids [] r.loads b := by
  simp only [step,advance] at hr
  cases hpc : s.pc t with
  | checking tokens ids rest loads b =>
    cases rest with
    | nil =>
      rw [hpc] at hr
      obtain rfl := Option.some.inj hr
      exact ⟨ids,b,rfl⟩
    | cons entry rest => simp [hpc] at hr
  | registering tokens todo ids => cases todo <;> simp [hpc] at hr
  | dropping ids => cases ids <;> simp [hpc] at hr
  | waiting op =>
    rw [hpc] at hr
    cases hm : s.mutex <;> cases op <;> cases hopen : s.connOpen <;> simp [hm,hopen] at hr
  | _ => simp [hpc] at hr

theorem walk_alone (rest : List (HookEntry Token)) {s : State Tid Token} {t : Tid}
    {tokens : List Token} {ids : List Nat} {loads : List (Token × Bool)} {b : Bool}
    (hpc : s.pc t = .checking tokens ids rest loads b) :
    ∃ loads', run step s (List.replicate (rest.length + 1) (.next t)) =
      (s.goto t (.running tokens ids),List.replicate rest.length none ++
        [some ⟨tokens,loads',if b || rest.any fun e => s.signalled e.state then 1 else 0⟩]) := by
  induction rest generalizing s loads b with
  | nil =>
    refine ⟨loads,?_⟩
    simp [step,advance,hpc]
  | cons entry rest ih =>
    have hnext : step s (.next t) = (s.goto t (.checking tokens ids rest
        (loads ++ [(entry.state,s.signalled entry.state)])
        (if s.signalled entry.state then true else b)),none) := by
      simp [step,advance,hpc]
    obtain ⟨loads',hrest⟩ := ih (goto_pc_self s t (.checking tokens ids rest
      (loads ++ [(entry.state,s.signalled entry.state)])
      (if s.signalled entry.state then true else b)))
    refine ⟨loads',?_⟩
    rw [List.length_cons,List.replicate_succ,run_cons,hnext]
    simp only [hrest]
    have hgoto : ∀ pc pc' : Pc Token, (s.goto t pc).goto t pc' = s.goto t pc' := by
      intro pc pc'
      simp [State.goto]
    rw [hgoto]
    cases hsig : s.signalled entry.state <;> simp [hsig,State.goto,List.replicate_succ]

theorem callback_alone {s : State Tid Token} {t : Tid} {tokens : List Token} {ids : List Nat}
    (hpc : s.pc t = .running tokens ids) :
    ∃ loads, run step s (.progress t :: List.replicate (s.cancels.entries.length + 1) (.next t)) =
      (s,none :: List.replicate s.cancels.entries.length none ++
        [some ⟨tokens,loads,if cancelPass s.signalled s.cancels then 1 else 0⟩]) := by
  have hstart : step s (.progress t) =
      (s.goto t (.checking tokens ids s.cancels.entries [] false),none) := by
    simp [step,hpc]
  obtain ⟨loads,hwalk⟩ := walk_alone s.cancels.entries
    (goto_pc_self s t (.checking tokens ids s.cancels.entries [] false))
  have hback : (s.goto t (.checking tokens ids s.cancels.entries [] false)).goto t
      (.running tokens ids) = s := by
    simp [State.goto,← hpc]
  refine ⟨loads,?_⟩
  rw [run_cons,hstart]
  simp only [hwalk,hback,cancelPass_eq,Bool.false_or]
  rfl

/-- In every interleaving the cancel list holds the tokens of the operation that runs and
nothing else. A callback loads the flag of each of these tokens once, at a moment between its
begin and its return, and interrupts exactly if it found one set. One that nobody cancels into
is the cancel pass, and interrupts exactly if one of the tokens is signalled. -/
theorem cancel_registrations_scoped (signalled : Token → Bool) (events : List (Event Tid Token)) :
    let s := (run step (State.opened signalled) events).1
    (s.mutex = none → s.cancels.entries = []) ∧
      (∀ t tokens, (s.pc t).runs = some tokens →
        s.mutex = some t ∧ s.cancels.entries.map HookEntry.state = tokens) ∧
      (∀ t r, (step s (.next t)).2 = some r →
        (∃ before during, events = before ++ .progress t :: during ∧
          Loaded (State.opened signalled) t before during r.tokens r.loads) ∧
        r.loads.map Prod.fst = r.tokens ∧
          (r.code ≠ 0 ↔ ∃ load ∈ r.loads, load.2 = true) ∧ (r.tokens = [] → r.code = 0)) ∧
      ∀ t tokens ids, s.pc t = .running tokens ids →
        (∃ loads, run step s
            (.progress t :: List.replicate (s.cancels.entries.length + 1) (.next t)) =
          (s,none :: List.replicate s.cancels.entries.length none ++
            [some ⟨tokens,loads,if cancelPass s.signalled s.cancels then 1 else 0⟩])) ∧
        (cancelPass s.signalled s.cancels = true ↔
          ∃ token ∈ tokens, s.signalled token = true) := by
  intro s
  have hinv : Inv s := run_inv_total step (I := Inv) inv_step events (inv_opened signalled)
  refine ⟨hinv.free,fun t tokens => hinv.runs_entries,?_,?_⟩
  · intro t r hr
    obtain ⟨ids,b,hpc⟩ := returned_checking hr
    obtain ⟨hloads,hcode⟩ := returned_sound hinv hr
    refine ⟨loaded_of_checking (fun _ _ _ _ _ _ h => by cases h) events hpc,hloads,hcode,?_⟩
    intro hnone
    rw [hnone,List.map_eq_nil_iff] at hloads
    by_contra hne
    obtain ⟨load,hload,_⟩ := hcode.mp hne
    rw [hloads] at hload
    cases hload
  · intro t tokens ids hpc
    have hruns : (s.pc t).runs = some tokens := by
      rw [hpc]
      rfl
    exact ⟨callback_alone hpc,signalled_entries hinv hruns⟩

def cancelled : List (Event Unit Bool) :=
  [.call () (.runSql [false,true]),.next (),.next (),.next (),.next (),.progress (),.cancel true,
    .next (),.next ()]

theorem cancel_registrations_scoped_interrupts :
    (step (run step (State.opened fun _ => false) cancelled).1 (.next ())).2 =
      some ⟨[false,true],[(false,false),(true,true)],1⟩ ∧
    ∃ before during, cancelled = before ++ .progress () :: during ∧
      Loaded (State.opened fun _ => false) () before during [false,true]
        [(false,false),(true,true)] := by
  have hreturned : (step (run step (State.opened fun _ => false) cancelled).1 (.next ())).2 =
      some ⟨[false,true],[(false,false),(true,true)],1⟩ := by decide
  exact ⟨hreturned,
    ((cancel_registrations_scoped (fun _ => false) cancelled).2.2.1 () _ hreturned).1⟩

end Threads

end Xqlite.Cancel

import Xqlite.BusySlot
import Xqlite.Lib.Keyed
set_option autoImplicit false

namespace Xqlite.Busy
open Runs

variable {Pid : Type}

def Conn.opened (handler : Handler) : Conn Pid := ⟨none,handler⟩

def Conn.observers (c : Conn Pid) : List (Nat × Pid) :=
  match c.slot with
  | none => []
  | some state => state.observers

def Conn.policy (c : Conn Pid) : Option BusyPolicy :=
  match c.slot with
  | none => none
  | some state => state.policy

def Conn.counter (c : Conn Pid) : Nat :=
  match c.slot with
  | none => 0
  | some state => state.nextHandle

@[simp] theorem snapshot_observers (now : Nat) (c : Conn Pid) :
    (snapshot now c).observers = c.observers := by
  cases h : c.slot <;> simp [snapshot,Conn.observers,h]

@[simp] theorem snapshot_policy (now : Nat) (c : Conn Pid) :
    (snapshot now c).policy = c.policy := by
  cases h : c.slot <;> simp [snapshot,Conn.policy,h]

@[simp] theorem snapshot_nextHandle (now : Nat) (c : Conn Pid) :
    (snapshot now c).nextHandle = c.counter := by
  cases h : c.slot <;> simp [snapshot,Conn.counter,h]

theorem observers_of_isEmpty {state : BusySlotState Pid} (h : state.isEmpty = true) :
    state.observers = [] := by
  simp only [BusySlotState.isEmpty,Bool.and_eq_true,List.isEmpty_iff] at h
  exact h.2

@[simp] theorem settle_observers (state : BusySlotState Pid) :
    (settle state).observers = state.observers := by
  by_cases h : state.isEmpty = true
  · simp [settle,h,Conn.observers,observers_of_isEmpty h]
  · simp [settle,h,Conn.observers]

def registration (c : Conn Pid) (call : Call Pid) : List (Nat × Pid) :=
  match call.request, (step c call).2 with
  | .registerObserver pid, .handle h => [(h,pid)]
  | _, _ => []

def issued (c : Conn Pid) (calls : List (Call Pid)) : List (Nat × Pid) :=
  history step registration c calls

def Request.registers : Request Pid → Bool
  | .registerObserver _ => true
  | _ => false

/-- The call does not throw away a counter that has moved, and does not wrap it.
An emptied slot is discarded with its counter; the next registration in it then
starts again from zero. -/
def KeepsCounter (c : Conn Pid) (call : Call Pid) : Prop :=
  (call.rc.code = Ffi.sqliteOk → (derive call.request (snapshot call.now c)).isEmpty = true →
    c.counter = 0) ∧
  (call.request.registers = true → c.counter + 1 < 2^64)

instance (c : Conn Pid) (call : Call Pid) : Decidable (KeepsCounter c call) :=
  inferInstanceAs (Decidable (_ ∧ _))

structure LogInv (log : List (Nat × Pid)) (c : Conn Pid) : Prop where
  nodup : (log.map Prod.fst).Nodup
  below : ∀ e ∈ log, e.1 < c.counter
  logged : ∀ o ∈ c.observers, o ∈ log
  single : (c.observers.map Prod.fst).Nodup

theorem LogInv.opened (handler : Handler) : LogInv [] (Conn.opened handler : Conn Pid) :=
  ⟨by simp,by simp,by simp [Conn.opened,Conn.observers],by simp [Conn.opened,Conn.observers]⟩

theorem counter_settle {state : BusySlotState Pid}
    (h : state.isEmpty = true → state.nextHandle = 0) :
    (settle state).counter = state.nextHandle := by
  by_cases he : state.isEmpty = true
  · simp [settle,he,Conn.counter,h he]
  · simp [settle,he,Conn.counter]

theorem registration_of_failure {c : Conn Pid} {call : Call Pid}
    (hrc : call.rc.code ≠ Ffi.sqliteOk) : registration c call = [] := by
  unfold registration
  rw [step_eq,if_neg hrc]
  cases call.request <;> rfl

theorem registration_of_register {c : Conn Pid} {call : Call Pid} {pid : Pid}
    (hrc : call.rc.code = Ffi.sqliteOk) (hr : call.request = .registerObserver pid) :
    registration c call = [(c.counter,pid)] := by
  simp [registration,step_eq,hrc,hr,answer]

theorem registration_of_other {c : Conn Pid} {call : Call Pid}
    (hr : ∀ pid, call.request ≠ .registerObserver pid) : registration c call = [] := by
  unfold registration
  cases h : call.request with
  | registerObserver pid => exact absurd h (hr pid)
  | setPolicy policy => rfl
  | removePolicy => rfl
  | unregisterObserver handle => rfl

theorem LogInv.settle_other {log : List (Nat × Pid)} {c : Conn Pid} (h : LogInv log c)
    {state : BusySlotState Pid} (hn : state.nextHandle = c.counter)
    (he : state.isEmpty = true → c.counter = 0)
    (hs : state.observers.Sublist c.observers) : LogInv log (settle state) := by
  have hcount : (settle state).counter = c.counter := by
    rw [counter_settle (fun hh => hn.trans (he hh)),hn]
  refine ⟨h.nodup,?_,?_,?_⟩
  · rw [hcount]; exact h.below
  · intro o ho
    rw [settle_observers] at ho
    exact h.logged o (hs.subset ho)
  · rw [settle_observers]
    exact h.single.sublist (hs.map Prod.fst)

theorem LogInv.settle_register {log : List (Nat × Pid)} {c : Conn Pid} (h : LogInv log c)
    {state : BusySlotState Pid} {pid : Pid} (hn : state.nextHandle = c.counter + 1)
    (ho : state.observers = c.observers ++ [(c.counter,pid)]) :
    LogInv (log ++ [(c.counter,pid)]) (settle state) := by
  have hne : state.isEmpty = false := by simp [BusySlotState.isEmpty,ho]
  have hcount : (settle state).counter = c.counter + 1 := by
    rw [counter_settle (by simp [hne]),hn]
  have hfresh : ∀ e ∈ log, e.1 ≠ c.counter := fun e he => Nat.ne_of_lt (h.below e he)
  refine ⟨?_,?_,?_,?_⟩
  · exact Keyed.nodup_snoc h.nodup hfresh
  · intro e he
    rw [hcount]
    rcases List.mem_append.mp he with he | he
    · exact Nat.lt_succ_of_lt (h.below e he)
    · rw [List.mem_singleton.mp he]; exact Nat.lt_succ_self _
  · intro o hm
    rw [settle_observers,ho] at hm
    rcases List.mem_append.mp hm with hm | hm
    · exact List.mem_append_left _ (h.logged o hm)
    · exact List.mem_append_right _ hm
  · rw [settle_observers,ho]
    exact Keyed.nodup_snoc h.single (fun e he => hfresh e (h.logged e he))

theorem LogInv.step {log : List (Nat × Pid)} {c : Conn Pid} {call : Call Pid}
    (h : LogInv log c) (hk : KeepsCounter c call) :
    LogInv (log ++ registration c call) (step c call).1 := by
  by_cases hrc : call.rc.code = Ffi.sqliteOk
  · rw [step_of_success c hrc]
    cases hr : call.request with
    | registerObserver pid =>
      rw [registration_of_register hrc hr]
      have hlt := hk.2 (by rw [hr]; rfl)
      refine h.settle_register ?_ ?_
      · rw [derive,snapshot_nextHandle]
        exact Nat.mod_eq_of_lt hlt
      · simp [derive]
    | setPolicy policy =>
      have hlog : registration c call = [] := registration_of_other (by simp [hr])
      rw [hlog,List.append_nil]
      refine h.settle_other ?_ ?_ ?_
      · simp [derive]
      · simpa [hr] using hk.1 hrc
      · simp [derive]
    | removePolicy =>
      have hlog : registration c call = [] := registration_of_other (by simp [hr])
      rw [hlog,List.append_nil]
      refine h.settle_other ?_ ?_ ?_
      · simp [derive]
      · simpa [hr] using hk.1 hrc
      · simp [derive]
    | unregisterObserver handle =>
      have hlog : registration c call = [] := registration_of_other (by simp [hr])
      rw [hlog,List.append_nil]
      refine h.settle_other ?_ ?_ ?_
      · simp [derive]
      · simpa [hr] using hk.1 hrc
      · simp [derive]
  · rw [registration_of_failure hrc,step_of_failure c hrc,List.append_nil]
    exact h

theorem issued_logInv (handler : Handler) {calls : List (Call Pid)}
    (h : AllSteps Busy.step KeepsCounter (Conn.opened handler) calls) :
    LogInv (issued (Conn.opened handler) calls) (run Busy.step (Conn.opened handler) calls).1 := by
  have hi := history_inv Busy.step (fun l c call hl hc => LogInv.step hl hc)
    (LogInv.opened handler) h
  simpa [issued] using hi

theorem observers_after_unregister {c : Conn Pid} {call : Call Pid} {handle : Nat}
    (hr : call.request = .unregisterObserver handle) (hrc : call.rc.code = Ffi.sqliteOk) :
    (Busy.step c call).1.observers = c.observers.filter (fun o => o.1 != handle) := by
  rw [step_of_success c hrc,settle_observers,hr]
  simp [derive]

theorem removed_handle {c : Conn Pid} {call : Call Pid} {handle : Nat}
    (hr : call.request = .unregisterObserver handle) {o : Nat × Pid}
    (ho : o ∈ c.observers) (hgone : o ∉ (Busy.step c call).1.observers) : o.1 = handle := by
  by_cases hrc : call.rc.code = Ffi.sqliteOk
  · rw [observers_after_unregister hr hrc] at hgone
    by_contra hne
    exact hgone (List.mem_filter.mpr ⟨ho,by simpa using hne⟩)
  · rw [step_of_failure c hrc] at hgone
    exact absurd ho hgone

theorem retired_step {log : List (Nat × Pid)} {c : Conn Pid} {call : Call Pid} {handle : Nat}
    (h : LogInv log c) (hl : handle ∈ log.map Prod.fst)
    (ho : ∀ o ∈ c.observers, o.1 ≠ handle) :
    ∀ o ∈ (Busy.step c call).1.observers, o.1 ≠ handle := by
  by_cases hrc : call.rc.code = Ffi.sqliteOk
  · rw [step_of_success c hrc,settle_observers]
    intro o hm
    cases hr : call.request with
    | setPolicy policy => exact ho o (by simpa [hr,derive] using hm)
    | removePolicy => exact ho o (by simpa [hr,derive] using hm)
    | unregisterObserver k =>
      rw [hr] at hm
      exact ho o (by simpa [derive] using List.mem_of_mem_filter hm)
    | registerObserver pid =>
      rw [hr] at hm
      simp only [derive,snapshot_observers,snapshot_nextHandle,List.mem_append,
        List.mem_singleton] at hm
      rcases hm with hm | rfl
      · exact ho o hm
      · obtain ⟨e,he,rfl⟩ := List.mem_map.mp hl
        exact Nat.ne_of_gt (h.below e he)
  · rw [step_of_failure c hrc]
    exact ho

theorem retired_run {log : List (Nat × Pid)} {c : Conn Pid} {calls : List (Call Pid)}
    {handle : Nat} (h : LogInv log c) (hk : AllSteps Busy.step KeepsCounter c calls)
    (hl : handle ∈ log.map Prod.fst) (ho : ∀ o ∈ c.observers, o.1 ≠ handle) :
    ∀ o ∈ (run Busy.step c calls).1.observers, o.1 ≠ handle := by
  have hinv := history_inv Busy.step
    (fun l c call (hi : LogInv l c ∧ handle ∈ l.map Prod.fst ∧
        ∀ o ∈ c.observers, o.1 ≠ handle) hc =>
      ⟨hi.1.step hc,by simp [hi.2.1],retired_step hi.1 hi.2.1 hi.2.2⟩)
    ⟨h,hl,ho⟩ hk
  exact hinv.2.2

/-- In a run that never discards a used counter, no two registrations get one
handle; whatever an unregistration removes was registered under its handle, is
at most one observer, and never comes back under that handle. -/
theorem observer_handles_never_reused (handler : Handler) (calls : List (Call Pid))
    (h : AllSteps Busy.step KeepsCounter (Conn.opened handler) calls) :
    ((issued (Conn.opened handler) calls).map Prod.fst).Nodup ∧
    ∀ (pre post : List (Call Pid)) (call : Call Pid) (handle : Nat),
      calls = pre ++ call :: post → call.request = .unregisterObserver handle →
      let before := (run Busy.step (Conn.opened handler) pre).1
      let after := (Busy.step before call).1
      (∀ o ∈ before.observers, o ∉ after.observers →
        o.1 = handle ∧ o ∈ issued (Conn.opened handler) pre) ∧
      (∀ o ∈ before.observers, o ∉ after.observers →
        ∀ o' ∈ before.observers, o' ∉ after.observers → o = o') ∧
      (handle ∈ (issued (Conn.opened handler) pre).map Prod.fst →
        call.rc.code = Ffi.sqliteOk → ∀ mid, mid <+: post →
        ∀ o ∈ (run Busy.step after mid).1.observers, o.1 ≠ handle) := by
  refine ⟨(issued_logInv handler h).nodup,?_⟩
  intro pre post call handle hcalls hr before after
  subst hcalls
  obtain ⟨hpre,hcall,hpost⟩ := (allSteps_append Busy.step).mp h
  have hinv : LogInv (issued (Conn.opened handler) pre) before := issued_logInv handler hpre
  have hgone : ∀ o ∈ before.observers, o ∉ after.observers → o.1 = handle :=
    fun o ho hn => removed_handle hr ho hn
  refine ⟨?_,?_,?_⟩
  · exact fun o ho hn => ⟨hgone o ho hn,hinv.logged o ho⟩
  · intro o ho hn o' ho' hn'
    exact Keyed.eq_of_fst_eq hinv.single ho ho' ((hgone o ho hn).trans (hgone o' ho' hn').symm)
  · intro hissued hrc mid hmid
    obtain ⟨rest,rfl⟩ := hmid
    have hafter : LogInv (issued (Conn.opened handler) pre ++ registration before call) after :=
      hinv.step hcall
    refine retired_run hafter ((allSteps_append Busy.step).mp hpost).1 (by simp [hissued]) ?_
    intro o ho
    rw [observers_after_unregister hr hrc] at ho
    simpa using (List.mem_filter.mp ho).2

/-- Two observers share a connection; removing the first keeps the counter. -/
theorem observer_handles_never_reused_shared :
    let calls : List (Call Nat) :=
      [⟨.registerObserver 7,.success,0⟩,⟨.registerObserver 8,.success,0⟩,
        ⟨.unregisterObserver 0,.success,0⟩,⟨.registerObserver 9,.success,0⟩]
    issued (Conn.opened .none) calls = [(0,7),(1,8),(2,9)] ∧
    ((issued (Conn.opened .none) calls).map Prod.fst).Nodup := by
  intro calls
  have hk : AllSteps Busy.step KeepsCounter (Conn.opened .none) calls := by
    refine ⟨?_,?_,?_,?_,trivial⟩ <;> decide
  exact ⟨by decide,(observer_handles_never_reused .none calls hk).1⟩

/-- Once the only observer leaves, the counter is gone: the next observer gets
the same handle, and a second unregistration under it removes that observer. -/
theorem observer_handle_reused :
    let first : Call Nat := ⟨.registerObserver 7,.success,0⟩
    let leave : Call Nat := ⟨.unregisterObserver 0,.success,0⟩
    let second : Call Nat := ⟨.registerObserver 8,.success,0⟩
    let start : Conn Nat := Conn.opened .none
    ¬ ((issued start [first,leave,second]).map Prod.fst).Nodup ∧
    (run Busy.step start [first,leave,second]).1.observers = [(0,8)] ∧
    (run Busy.step start [first,leave,second,leave]).1.observers = [] := by
  decide

section NoTarget

inductive Event (Pid : Type) where
  | call (call : Call Pid)
  | busyTimeout (ms : Int)
  deriving DecidableEq, Repr

def stepEvent (c : Conn Pid) : Event Pid → Conn Pid × Reply
  | .call call => step c call
  | .busyTimeout ms => (pragmaBusyTimeout ms c,.ok)

def Request.NoTarget (c : Conn Pid) : Request Pid → Prop
  | .unregisterObserver handle => ∀ o ∈ c.observers, o.1 ≠ handle
  | .removePolicy => c.policy = none
  | .setPolicy _ | .registerObserver _ => False

instance (c : Conn Pid) : (r : Request Pid) → Decidable (r.NoTarget c)
  | .unregisterObserver _ => inferInstanceAs (Decidable (∀ o ∈ _, _))
  | .removePolicy => inferInstanceAs (Decidable (_ = none))
  | .setPolicy _ | .registerObserver _ => inferInstanceAs (Decidable False)

/-- The handler SQLite holds while nothing has gone around xqlite. -/
def Conn.agreed (c : Conn Pid) : Handler :=
  match c.slot with
  | none => .none
  | some _ => .callback

theorem settle_slot_ne_empty {state state' : BusySlotState Pid}
    (h : (settle state).slot = some state') : state'.isEmpty = false := by
  by_cases he : state.isEmpty = true
  · simp [settle,he] at h
  · simp only [settle,he,Bool.false_eq_true,↓reduceIte,Option.some.injEq] at h
    subst h
    simpa using he

theorem occupied_of_reachable (handler : Handler) (events : List (Event Pid))
    {state : BusySlotState Pid}
    (h : (run stepEvent (Conn.opened handler) events).1.slot = some state) :
    state.isEmpty = false := by
  refine run_inv_total stepEvent (I := fun c => ∀ st, c.slot = some st → st.isEmpty = false)
    ?_ events (by simp [Conn.opened]) state h
  intro c e hc st hst
  cases e with
  | busyTimeout ms => exact hc st hst
  | call call =>
    by_cases hrc : call.rc.code = Ffi.sqliteOk
    · rw [stepEvent,step_of_success c hrc] at hst
      exact settle_slot_ne_empty hst
    · rw [stepEvent,step_of_failure c hrc] at hst
      exact hc st hst

theorem derive_of_noTarget {c : Conn Pid} {r : Request Pid} (now : Nat) (h : r.NoTarget c) :
    derive r (snapshot now c) = snapshot now c := by
  cases r with
  | setPolicy policy => exact h.elim
  | registerObserver pid => exact h.elim
  | removePolicy =>
    have hp : (snapshot now c).policy = none := (snapshot_policy now c).trans h
    simp only [derive,← hp]
  | unregisterObserver handle =>
    have ho : (snapshot now c).observers.filter (fun o => o.1 != handle) =
        (snapshot now c).observers := by
      rw [List.filter_eq_self]
      intro o hm
      simpa using h o (by simpa using hm)
    simp only [derive,ho]

theorem settle_snapshot {c : Conn Pid} (now : Nat)
    (hc : ∀ state, c.slot = some state → state.isEmpty = false) :
    settle (snapshot now c) = ⟨c.slot,c.agreed⟩ := by
  cases hs : c.slot with
  | none => simp [settle,snapshot,hs,BusySlotState.isEmpty,Conn.agreed]
  | some state => simp [settle,snapshot,hs,hc state hs,Conn.agreed]

/-- Whatever happened before, a call that has nothing to remove leaves both
slots alone exactly when its SQLite call fails or SQLite's slot agrees with
xqlite's: the callback while there is something to serve, no handler otherwise. -/
theorem noTarget_call_changes_nothing_iff (handler : Handler) (events : List (Event Pid))
    (call : Call Pid)
    (h : call.request.NoTarget (run stepEvent (Conn.opened handler) events).1) :
    let c := (run stepEvent (Conn.opened handler) events).1
    (Busy.step c call).1 = c ↔ call.rc.code ≠ Ffi.sqliteOk ∨ c.handler = c.agreed := by
  intro c
  by_cases hrc : call.rc.code = Ffi.sqliteOk
  · have hstep : (Busy.step c call).1 = ⟨c.slot,c.agreed⟩ := by
      rw [step_of_success c hrc,derive_of_noTarget call.now h]
      exact settle_snapshot call.now (fun _ hs => occupied_of_reachable handler events hs)
    rw [hstep]
    constructor
    · intro heq
      exact Or.inr (congrArg Conn.handler heq).symm
    · rintro (hne | heq)
      · exact absurd hrc hne
      · rw [← heq]
  · rw [step_of_failure c hrc]
    exact ⟨fun _ => Or.inl hrc,fun _ => rfl⟩

/-- An observer is registered and nothing went around xqlite since. -/
theorem noTarget_call_changes_nothing_observed :
    let c := (run stepEvent (Conn.opened (.builtin 5000))
      [.call (⟨.registerObserver 7,.success,0⟩ : Call Nat)]).1
    (Busy.step c ⟨.unregisterObserver 3,.success,1⟩).1 = c :=
  (noTarget_call_changes_nothing_iff (.builtin 5000)
    [.call ⟨.registerObserver 7,.success,0⟩] ⟨.unregisterObserver 3,.success,1⟩
    (by decide)).mpr (Or.inr (by decide))

/-- On a connection with only the busy timeout it was opened with, removing a
policy or an observer that was never there drops the timeout. -/
theorem noTarget_call_drops_timeout :
    let c : Conn Nat := Conn.opened (.builtin 5000)
    let remove : Call Nat := ⟨.removePolicy,.success,0⟩
    let unregister : Call Nat := ⟨.unregisterObserver 3,.success,0⟩
    remove.request.NoTarget c ∧ unregister.request.NoTarget c ∧
    (Busy.step c remove).1.handler = .none ∧ (Busy.step c unregister).1.handler = .none ∧
    c.handler = .builtin 5000 := by
  decide

end NoTarget

end Xqlite.Busy

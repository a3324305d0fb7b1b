import Xqlite.BusyBoxes
import Xqlite.ProgressDispatch
set_option autoImplicit false

namespace Xqlite.BusyBox
open Runs Busy
open Progress (asI64)

variable {Pid : Type}

structure Invocation (Pid : Type) where
  sent : List (Pid × Term)
  sleptMs : Nat
  retry : Bool

def busyMessage (retries elapsedMs : Nat) : Term :=
  .tuple [.atom "xqlite_busy",.int (asI64 retries),.int (asI64 elapsedMs)]

def sendBusyToPid (pid : Pid) (retries elapsedMs : Nat) : Pid × Term :=
  (pid,busyMessage retries elapsedMs)

/-- `start.elapsed().as_millis() as u64`, with readings of the clock in nanoseconds. -/
def elapsedMs (start now : Nat) : Nat := (now-start)/10^6%2^64

/-- The policy's half of the callback: how long it sleeps, and whether to retry. -/
def applyPolicy (policy : Option BusyPolicy) (retries elapsed : Nat) : Nat × Bool :=
  match policy with
  | none => (0,false)
  | some policy =>
    if retries ≥ policy.maxRetries ∨ elapsed ≥ policy.maxElapsedMs then (0,false)
    else (policy.sleepMs,true)

def invocation (state : BusySlotState Pid) (retries now : Nat) : Invocation Pid :=
  let elapsed := elapsedMs state.start now
  let outcome := applyPolicy state.policy retries elapsed
  ⟨state.observers.map fun o => sendBusyToPid o.2 retries elapsed,outcome.1,outcome.2⟩

/-- The input is the clock's reading with SQLite's count. `first` is the reading that is
stored when the count is zero; the elapsed time is taken from the later one. -/
def busyCallback (first : Nat) (state : BusySlotState Pid) (i : Nat × Nat) :
    BusySlotState Pid × Invocation Pid :=
  let retries := i.2%2^32
  let state := if retries = 0 then { state with start := first } else state
  (state,invocation state retries i.1)

/-- One busy event as SQLite and the clock make it: the `k`-th reading belongs to the
invocation with count `k`, a C int. The clock does not go back, and the event ends before
the milliseconds leave the range of an `i64`. -/
structure BusyEvent where
  first : Nat
  readings : List Nat
  ordered : (first :: readings).Pairwise (· ≤ ·)
  counted : readings.length ≤ 2^31
  ends : ∀ t ∈ readings, t < first+2^63*10^6

def BusyEvent.calls (event : BusyEvent) : List (Nat × Nat) := event.readings.zipIdx

/-- SQLite invokes xqlite's callback, if that is what is registered, with the pointer it
holds. -/
def busyEvent (s : State Pid) (event : BusyEvent) : State Pid × List (Invocation Pid) :=
  match s.sqlite with
  | some (.callback p) =>
    match s.boxes[p]? with
    | some state =>
      let done := run (busyCallback event.first) state event.calls
      ({ s with boxes := s.boxes.set p done.1 },done.2)
    | none => (s,[])
  | _ => (s,[])

inductive Turn (Pid : Type) where
  | step (event : Event Pid)
  | busy (event : BusyEvent)

/-- The statement that meets the lock is stepped under the connection's mutex, so a busy
event falls between two calls. -/
def turn (s : State Pid) : Turn Pid → State Pid × List (Invocation Pid)
  | .step event => ((step s event).1,[])
  | .busy event => if s.pc = .ready then busyEvent s event else (s,[])

section Event

def startedAt (state : BusySlotState Pid) (first : Nat) : BusySlotState Pid :=
  { state with start := first }

theorem busyCallback_eq {first count : Nat} {state : BusySlotState Pid} (now : Nat)
    (hcount : count < 2^32) (hstart : count = 0 ∨ startedAt state first = state) :
    busyCallback first state (now,count) =
      (startedAt state first,invocation (startedAt state first) count now) := by
  have hretries : count%2^32 = count := Nat.mod_eq_of_lt hcount
  simp only [busyCallback,hretries]
  split_ifs with hzero
  · rfl
  · rw [hstart.resolve_left hzero]

theorem count_lt {event : BusyEvent} {i : Nat × Nat} (h : i ∈ event.calls) : i.2 < 2^32 := by
  have hlt := List.snd_lt_of_mem_zipIdx h
  have hcounted := event.counted
  omega

/-- The first callback stores its own reading and no later one touches it, so that every
one of them sees the box as it is after the first. -/
theorem run_busyCallback (event : BusyEvent) (state : BusySlotState Pid) :
    (run (busyCallback event.first) state event.calls).2 =
      event.calls.map fun i => invocation (startedAt state event.first) i.2 i.1 := by
  have hall : ∀ i ∈ event.calls, busyCallback event.first (startedAt state event.first) i =
      (startedAt state event.first,invocation (startedAt state event.first) i.2 i.1) := by
    intro i hi
    exact busyCallback_eq i.1 (count_lt hi) (.inr rfl)
  cases hcalls : event.calls with
  | nil => rfl
  | cons i rest =>
    have hzero : i.2 = 0 := by
      unfold BusyEvent.calls at hcalls
      cases hreadings : event.readings with
      | nil => simp [hreadings] at hcalls
      | cons t later =>
        rw [hreadings,List.zipIdx_cons] at hcalls
        rw [← (List.cons.inj hcalls).1]
    rw [hcalls] at hall
    have hfirst : busyCallback event.first state i =
        (startedAt state event.first,invocation (startedAt state event.first) i.2 i.1) :=
      busyCallback_eq i.1 (by omega) (.inl hzero)
    have hrest := run_fixed (busyCallback event.first)
      (fun j hj => hall j (List.mem_cons_of_mem i hj))
    rw [run_cons,hfirst,hrest,List.map_cons]

theorem busyEvent_callback {s : State Pid} {p : Nat} {state : BusySlotState Pid}
    (event : BusyEvent) (hcall : s.mayCall p) (hbox : s.boxes[p]? = some state) :
    (busyEvent s event).2 =
      event.calls.map fun i => invocation (startedAt state event.first) i.2 i.1 := by
  have hsql : s.sqlite = some (.callback p) := hcall
  simp only [busyEvent,hsql,hbox]
  exact run_busyCallback event state

theorem busyEvent_boxes (s : State Pid) (event : BusyEvent) :
    ∃ boxes : List (BusySlotState Pid), (busyEvent s event).1 = { s with boxes := boxes } ∧
      boxes.map (startedAt · 0) = s.boxes.map (startedAt · 0) := by
  unfold busyEvent
  split
  · split
    · rename_i p _ state hbox
      refine ⟨_,rfl,?_⟩
      have hsame : ∀ calls, startedAt (run (busyCallback event.first) state calls).1 0 =
          startedAt state 0 := by
        intro calls
        refine run_inv_total (busyCallback event.first)
          (I := fun state' => startedAt state' 0 = startedAt state 0) ?_ calls rfl
        intro state' i hstate'
        rw [← hstate',busyCallback]
        dsimp only
        split_ifs <;> rfl
      rw [List.map_set,hsame]
      refine List.ext_getElem? (fun q => ?_)
      rw [List.getElem?_set]
      split_ifs with hpq hlt
      · subst hpq
        rw [List.getElem?_map,hbox]
        rfl
      · subst hpq
        rw [List.getElem?_eq_none (Nat.le_of_not_lt hlt)]
      · rfl
    · exact ⟨s.boxes,rfl,rfl⟩
  · exact ⟨s.boxes,rfl,rfl⟩

end Event

section Timeless

/-- The state with every `start` forgotten. -/
def State.timeless (s : State Pid) : State Pid :=
  { s with boxes := s.boxes.map (startedAt · 0) }

def Event.timeless : Event Pid → Event Pid
  | .call ⟨request,rc,_⟩ => .call ⟨request,rc,0⟩
  | event => event

def Turn.timeless : Turn Pid → Option (Event Pid)
  | .step event => some event.timeless
  | .busy _ => none

theorem timeless_timeless (s : State Pid) : s.timeless.timeless = s.timeless := by
  simp only [State.timeless,List.map_map]
  rfl

/-- A step that neither reads nor writes the boxes does not see the times in them. -/
theorem timeless_of_boxes {f : State Pid → State Pid}
    (h : ∀ s boxes, f { s with boxes := boxes } = { f s with boxes := boxes }) (s : State Pid) :
    (f s.timeless).timeless = (f s).timeless := by
  have hself : f s = { f s with boxes := s.boxes } := h s s.boxes
  have hboxes : (f s).boxes = s.boxes := by rw [hself]
  have hmoved : f s.timeless = (f s).timeless := by
    rw [State.timeless,h,State.timeless,hboxes]
  rw [hmoved,timeless_timeless]

theorem advance_boxes (s : State Pid) (boxes : List (BusySlotState Pid)) :
    advance { s with boxes := boxes } = { advance s with boxes := boxes } := by
  obtain ⟨_,reclaimed,slot,connOpen,sqlite,pc⟩ := s
  cases pc with
  | install newPtr rc | uninstall rc =>
    simp only [advance]
    split_ifs <;> rfl
  | installed newPtr | uninstalled | dropHook closes => cases slot <;> rfl
  | dropFields closes => cases connOpen <;> rfl
  | _ => rfl

theorem begin_boxes {event : Event Pid} (hevent : ∀ call, event ≠ .call call) (s : State Pid)
    (boxes : List (BusySlotState Pid)) :
    begin { s with boxes := boxes } event = { begin s event with boxes := boxes } := by
  obtain ⟨_,reclaimed,slot,connOpen,sqlite,pc⟩ := s
  cases event with
  | call call => exact absurd rfl (hevent call)
  | pragmaBusyTimeout ms => cases connOpen <;> rfl
  | closeConnection closes => cases connOpen <;> rfl
  | drop closes => rfl
  | next => rfl

theorem pointee_timeless (s : State Pid) :
    s.timeless.pointee = s.pointee.map (startedAt · 0) := by
  cases hslot : s.slot <;> simp [State.pointee,State.timeless,hslot]

theorem derived_timeless (s : State Pid) (request : Request Pid) (rc : Rc) (now : Nat) :
    startedAt (s.timeless.derived ⟨request,rc,0⟩) 0 = startedAt (s.derived ⟨request,rc,now⟩) 0 := by
  simp only [State.derived,pointee_timeless]
  cases s.pointee <;> cases request <;> rfl

theorem swapIn_timeless (s : State Pid) {next next' : BusySlotState Pid} (rc : Rc)
    (h : startedAt next' 0 = startedAt next 0) :
    (swapIn s.timeless next' rc).timeless = (swapIn s next rc).timeless := by
  have hempty : (startedAt next' 0).isEmpty = (startedAt next 0).isEmpty := by rw [h]
  change next'.isEmpty = next.isEmpty at hempty
  have htwice : (s.boxes.map (startedAt · 0)).map (startedAt · 0) =
      s.boxes.map (startedAt · 0) := congrArg State.boxes (timeless_timeless s)
  simp only [swapIn,hempty,State.timeless,List.length_map]
  split_ifs
  · rw [htwice]
  · simp only [List.map_append,htwice,List.map_cons,List.map_nil,h]

theorem begin_timeless (s : State Pid) (event : Event Pid) :
    (begin s.timeless event.timeless).timeless = (begin s event).timeless := by
  by_cases hcall : ∃ call, event = .call call
  · obtain ⟨⟨request,rc,now⟩,rfl⟩ := hcall
    have hopen : s.timeless.connOpen = s.connOpen := rfl
    simp only [Event.timeless,begin,hopen]
    split_ifs
    · exact swapIn_timeless s rc (derived_timeless s request rc now)
    · exact timeless_timeless s
  · have hother : ∀ call, event ≠ .call call := fun call h => hcall ⟨call,h⟩
    have hsame : event.timeless = event := by
      cases event with
      | call call => exact absurd rfl (hother call)
      | _ => rfl
    rw [hsame]
    exact timeless_of_boxes (f := (begin · event)) (begin_boxes hother) s

theorem step_timeless (s : State Pid) (event : Event Pid) :
    (step s.timeless event.timeless).1.timeless = (step s event).1.timeless := by
  by_cases hnext : event = .next
  · subst hnext
    exact timeless_of_boxes advance_boxes s
  · have hnext' : event.timeless ≠ .next := by
      cases event with
      | next => exact absurd rfl hnext
      | _ => exact fun h => by cases h
    have hpc : s.timeless.pc = s.pc := rfl
    rw [step_start s.timeless hnext',step_start s hnext,hpc]
    split_ifs
    · exact begin_timeless s event
    · exact timeless_timeless s

theorem step_congr {s t : State Pid} (h : s.timeless = t.timeless) (event : Event Pid) :
    (step s event).1.timeless = (step t event.timeless).1.timeless := by
  rw [← step_timeless s event,h]
  have htwice : event.timeless.timeless = event.timeless := by cases event <;> rfl
  rw [← step_timeless t event.timeless,htwice]

/-- With the times forgotten, a run is the run of its calls. -/
theorem run_timeless {s t : State Pid} (h : s.timeless = t.timeless) (turns : List (Turn Pid)) :
    (run turn s turns).1.timeless =
      (run step t (turns.filterMap Turn.timeless)).1.timeless := by
  induction turns generalizing s t with
  | nil => exact h
  | cons i turns ih =>
    cases i with
    | step event => exact ih (step_congr h event)
    | busy event =>
      refine ih (Eq.trans ?_ h)
      simp only [turn]
      split_ifs
      · obtain ⟨boxes,hboxes,htimes⟩ := busyEvent_boxes s event
        rw [hboxes,State.timeless,htimes,State.timeless]
      · rfl

theorem invocation_congr {state state' : BusySlotState Pid}
    (h : startedAt state 0 = startedAt state' 0) (first : Nat) :
    startedAt state first = startedAt state' first :=
  (congrArg (startedAt · first) h :)

theorem busyEvent_congr {s t : State Pid} (h : s.timeless = t.timeless) (event : BusyEvent) :
    (busyEvent s event).2 = (busyEvent t event).2 := by
  have hsql : s.sqlite = t.sqlite := (congrArg State.sqlite h :)
  have hboxes : s.boxes.map (startedAt · 0) = t.boxes.map (startedAt · 0) :=
    (congrArg State.boxes h :)
  have hbox : ∀ p : Nat,
      s.boxes[p]?.map (startedAt · 0) = t.boxes[p]?.map (startedAt · 0) := by
    intro p
    rw [← List.getElem?_map,hboxes,List.getElem?_map]
  cases hs : s.sqlite with
  | none => simp only [busyEvent,← hsql,hs]
  | some registered =>
    cases registered with
    | none | builtin timeoutMs => simp only [busyEvent,← hsql,hs]
    | callback p =>
      have hp := hbox p
      cases hst : s.boxes[p]? with
      | none =>
        have hnone : t.boxes[p]? = none := by simpa [hst] using hp.symm
        simp only [busyEvent,← hsql,hs,hst,hnone]
      | some state =>
        obtain ⟨state',hstate',heq⟩ : ∃ state', t.boxes[p]? = some state' ∧
            startedAt state' 0 = startedAt state 0 := by
          simpa [hst] using hp.symm
        have hcall : t.mayCall p := hsql.symm.trans hs
        rw [busyEvent_callback event hs hst,busyEvent_callback event hcall hstate',
          invocation_congr heq]

end Timeless

theorem inv_turn (s : State Pid) (i : Turn Pid) (h : Inv s) : Inv (turn s i).1 := by
  cases i with
  | step event => exact inv_step s event h
  | busy event =>
    simp only [turn]
    split_ifs
    · obtain ⟨boxes,hboxes,htimes⟩ := busyEvent_boxes s event
      have hlength : boxes.length = s.boxes.length := by
        simpa using congrArg List.length htimes
      have hledger : ({ s with boxes := boxes } : State Pid).ledger = s.ledger := by
        simp only [State.ledger,hlength]
      rw [hboxes]
      exact ⟨hledger ▸ h.balanced,h.attached,h.emptied⟩
    · exact h

section Budget
variable {event : BusyEvent}

theorem applyPolicy_retry (policy : Option BusyPolicy) (retries elapsed : Nat) :
    (applyPolicy policy retries elapsed).2 = true ↔
      ∃ given, policy = some given ∧ retries < given.maxRetries ∧
        elapsed < given.maxElapsedMs := by
  cases policy with
  | none => simp [applyPolicy]
  | some given =>
    simp only [applyPolicy]
    split_ifs with hstop
    · simp only [Option.some.injEq,false_iff]
      rintro ⟨_,rfl,hcount,htime⟩
      omega
    · simp only [true_iff]
      exact ⟨given,rfl,by omega,by omega⟩

theorem elapsedMs_eq {t : Nat} (h : t ∈ event.readings) :
    elapsedMs event.first t = (t-event.first)/10^6 ∧
      asI64 (elapsedMs event.first t) = ((t-event.first)/10^6 : Nat) := by
  have hends := event.ends t h
  have hshort : (t-event.first)/10^6 < 2^63 := by
    rw [Nat.div_lt_iff_lt_mul (by decide)]
    omega
  have hmod : elapsedMs event.first t = (t-event.first)/10^6 :=
    Nat.mod_eq_of_lt (Nat.lt_trans hshort (by decide))
  exact ⟨hmod,by rw [hmod,asI64,if_pos hshort]⟩

theorem countP_le_of_index {α : Type} {l : List α} {keep : α → Bool} {m : Nat}
    (h : ∀ k a, l[k]? = some a → keep a = true → k < m) : l.countP keep ≤ m := by
  have hlate : (l.drop m).countP keep = 0 := by
    rw [List.countP_eq_zero]
    intro a ha hkeep
    obtain ⟨k,hk⟩ := List.mem_iff_getElem?.mp ha
    rw [List.getElem?_drop] at hk
    exact absurd (h _ a hk hkeep) (by omega)
  calc l.countP keep = (l.take m ++ l.drop m).countP keep := by rw [List.take_append_drop]
    _ = (l.take m).countP keep := by rw [List.countP_append,hlate,Nat.add_zero]
    _ ≤ (l.take m).length := List.countP_le_length
    _ ≤ m := List.length_take_le m l

/-- The answer to the `k`-th callback, from the box as it was before the event. -/
structure Answers (event : BusyEvent) (state : BusySlotState Pid) (k t : Nat)
    (answer : Invocation Pid) : Prop where
  retry : answer.retry = true ↔ ∃ policy, state.policy = some policy ∧ k < policy.maxRetries ∧
    t < event.first+policy.maxElapsedMs*10^6
  sent : answer.sent = state.observers.map fun o =>
    (o.2,.tuple [.atom "xqlite_busy",.int k,.int ((t-event.first)/10^6 : Nat)])

theorem invocation_answers {k t : Nat} (hk : k < 2^31) (ht : t ∈ event.readings)
    (state : BusySlotState Pid) :
    Answers event state k t (invocation (startedAt state event.first) k t) := by
  obtain ⟨hms,hsigned⟩ := elapsedMs_eq ht
  constructor
  · have hpolicy := applyPolicy_retry state.policy k (elapsedMs event.first t)
    refine hpolicy.trans (exists_congr fun policy => and_congr_right fun _ =>
      and_congr_right fun _ => ?_)
    have hfirst : event.first ≤ t := List.rel_of_pairwise_cons event.ordered ht
    rw [hms,Nat.div_lt_iff_lt_mul (by decide),Nat.sub_lt_iff_lt_add' hfirst]
  · refine List.map_congr_left (fun o _ => ?_)
    have hcount : asI64 k = k := if_pos (Nat.lt_trans hk (by decide))
    simp only [sendBusyToPid,busyMessage,startedAt,hcount,hsigned]

theorem calls_answers (state : BusySlotState Pid) {k t : Nat} (hk : event.readings[k]? = some t) :
    ∃ answer, (event.calls.map fun i => invocation (startedAt state event.first) i.2 i.1)[k]? =
      some answer ∧ Answers event state k t answer := by
  have hcounted := event.counted
  obtain ⟨hlt,-⟩ := List.getElem?_eq_some_iff.mp hk
  refine ⟨invocation (startedAt state event.first) k t,?_,
    invocation_answers (by omega) (List.mem_of_getElem? hk) state⟩
  simp [BusyEvent.calls,hk]

theorem countP_retry_le {state : BusySlotState Pid} {policy : BusyPolicy}
    (hpolicy : state.policy = some policy) {answers : List (Invocation Pid)}
    (hlength : answers.length = event.readings.length)
    (h : ∀ k t, event.readings[k]? = some t →
      ∃ answer, answers[k]? = some answer ∧ Answers event state k t answer) :
    answers.countP Invocation.retry ≤ policy.maxRetries := by
  refine countP_le_of_index (fun k answer hk hretry => ?_)
  obtain ⟨hlt,-⟩ := List.getElem?_eq_some_iff.mp hk
  rw [hlength] at hlt
  obtain ⟨answer',hk',hanswers⟩ := h k _ (List.getElem?_eq_getElem hlt)
  obtain rfl : answer = answer' := Option.some.inj (hk.symm.trans hk')
  obtain ⟨given,hgiven,hcount,-⟩ := hanswers.retry.mp hretry
  obtain rfl : policy = given := Option.some.inj (hpolicy.symm.trans hgiven)
  exact hcount

end Budget

/-- At rest, the box that SQLite may call is the one in the slot, and it is there. -/
theorem pointee_of_mayCall {s : State Pid} (h : Inv s) (hpc : s.pc = .ready) {p : Nat}
    (hcall : s.mayCall p) : ∃ state, s.boxes[p]? = some state ∧ s.pointee = some state := by
  have hslot : s.slot = some p := by
    simpa [State.Attached,hpc] using h.attached p hcall
  have hlive : p < s.boxes.length := (h.balanced.live (p := p) (by simp [hslot])).1
  have hbox : s.boxes[p]? = some s.boxes[p] := List.getElem?_eq_getElem hlive
  refine ⟨s.boxes[p],hbox,?_⟩
  rw [State.pointee,hslot]
  exact hbox

theorem turn_busy_congr {s t : State Pid} (h : s.timeless = t.timeless) (hpc : t.pc = .ready)
    (event : BusyEvent) : (turn s (.busy event)).2 = (turn t (.busy event)).2 := by
  have hpc' : s.pc = t.pc := (congrArg State.pc h :)
  rw [turn,turn,hpc',if_pos hpc,if_pos hpc]
  exact busyEvent_congr h event

/-- Whatever came before, every callback of an event answers from the policy and the
observers that are in the slot and from the time since the event's first callback. -/
theorem busy_event_budget (turns : List (Turn Pid)) {p : Nat}
    (hready : (run turn State.opened turns).1.pc = .ready)
    (hcall : (run turn State.opened turns).1.mayCall p) (event : BusyEvent) :
    let s := (run turn (State.opened : State Pid) turns).1
    ∃ state, s.pointee = some state ∧
      (turn s (.busy event)).2.length = event.readings.length ∧
      (∀ k t, event.readings[k]? = some t → ∃ answer, (turn s (.busy event)).2[k]? = some answer ∧
        Answers event state k t answer) ∧
      (∀ policy, state.policy = some policy →
        (turn s (.busy event)).2.countP Invocation.retry ≤ policy.maxRetries) ∧
      ∀ turns' : List (Turn Pid),
        turns'.filterMap Turn.timeless = turns.filterMap Turn.timeless →
        (turn (run turn State.opened turns').1 (.busy event)).2 = (turn s (.busy event)).2 := by
  intro s
  have hinv : Inv s := run_inv_total turn (I := Inv) inv_turn turns inv_opened
  obtain ⟨state,hbox,hpointee⟩ := pointee_of_mayCall hinv hready hcall
  have hturn : (turn s (.busy event)).2 =
      event.calls.map fun i => invocation (startedAt state event.first) i.2 i.1 := by
    rw [turn,if_pos hready]
    exact busyEvent_callback event hcall hbox
  have hlength : (turn s (.busy event)).2.length = event.readings.length := by
    rw [hturn,BusyEvent.calls,List.length_map,List.length_zipIdx]
  have hanswer : ∀ k t, event.readings[k]? = some t → ∃ answer,
      (turn s (.busy event)).2[k]? = some answer ∧ Answers event state k t answer := by
    intro k t hk
    rw [hturn]
    exact calls_answers state hk
  refine ⟨state,hpointee,hlength,hanswer,?_,?_⟩
  · intro policy hpolicy
    exact countP_retry_le hpolicy hlength hanswer
  · intro turns' hturns
    have hsame : (run turn (State.opened : State Pid) turns').1.timeless = s.timeless := by
      rw [run_timeless rfl turns',hturns,run_timeless rfl turns]
    exact turn_busy_congr hsame hready event

/-- A policy of two retries within three milliseconds, set long before. -/
theorem busy_event_budget_second :
    let event : BusyEvent := ⟨7000000,[7000000,9000000,9500000],by decide,by decide,by decide⟩
    let turns : List (Turn Nat) :=
      [.step (.call ⟨.setPolicy ⟨2,3,0⟩,.success,0⟩),.step .next,.step .next]
    (turn (run turn State.opened turns).1 (.busy event)).2.countP Invocation.retry ≤ 2 := by
  intro event turns
  obtain ⟨state,hstate,-,-,hretries,-⟩ := busy_event_budget turns (p := 0) rfl rfl event
  exact hretries ⟨2,3,0⟩ (by cases hstate; rfl)

end Xqlite.BusyBox

import Xqlite.HookList
set_option autoImplicit false

/-! What a fan-out hook is for: subscribers come and go, and every event is sent to those
that are subscribed when it fires. The list is the one of `HookList`; what was sent to whom
is kept in the order in which it was sent. -/

namespace Xqlite.Feed
open Runs Hook

structure State (T M : Type) where
  list : HookList T
  sent : List (HookEntry T × M)
  deriving DecidableEq, Repr

variable {T M : Type}

def State.new : State T M := ⟨.new,[]⟩

inductive Call (T M : Type) where
  | register (state : T)
  | unregister (id : Nat)
  | notify (message : M)
  deriving DecidableEq, Repr

inductive Reply where
  | handle (id : Nat)
  | removed (found : Bool)
  | notified
  deriving DecidableEq, Repr

def step (f : State T M) : Call T M → State T M × Reply
  | .register state => (⟨(register f.list state).1,f.sent⟩,.handle (register f.list state).2)
  | .unregister id => (⟨(unregister f.list id).1,f.sent⟩,.removed (unregister f.list id).2)
  | .notify message =>
    (⟨f.list,forEachSnapshot f.list (fun sent e => sent ++ [(e,message)]) f.sent⟩,.notified)

def State.received (f : State T M) (id : Nat) : List M :=
  (f.sent.filter fun p => p.1.id = id).map Prod.snd

def Call.message? : Call T M → Option M
  | .notify message => some message
  | _ => none

def notifications (calls : List (Call T M)) : List M := calls.filterMap Call.message?

def Call.registers : Call T M → Bool
  | .register _ => true
  | _ => false

def registrations (calls : List (Call T M)) : Nat := calls.countP Call.registers

def State.holders (f : State T M) (id : Nat) : List (HookEntry T) :=
  f.list.entries.filter fun e => e.id = id

@[simp] theorem step_notify_sent (f : State T M) (message : M) :
    (step f (.notify message)).1.sent = f.sent ++ f.list.entries.map (·,message) := by
  have hfold : ∀ (es : List (HookEntry T)) (sent : List (HookEntry T × M)),
      es.foldl (fun sent e => sent ++ [(e,message)]) sent = sent ++ es.map (·,message) := by
    intro es
    induction es with
    | nil => intro sent; simp
    | cons e es ih => intro sent; rw [List.foldl_cons,ih]; simp
  simp only [step,forEachSnapshot_eq,hfold]

theorem received_append (f : State T M) (es : List (HookEntry T)) (message : M) (id : Nat) :
    ({ f with sent := f.sent ++ es.map (·,message) } : State T M).received id =
      f.received id ++ (es.filter fun e => e.id = id).map fun _ => message := by
  simp [State.received,List.filter_map,Function.comp_def]

theorem received_notify (f : State T M) (message : M) (id : Nat) :
    (step f (.notify message)).1.received id =
      f.received id ++ (f.holders id).map fun _ => message := by
  rw [State.holders,← received_append,← step_notify_sent]
  rfl

theorem received_register (f : State T M) (state : T) (id : Nat) :
    (step f (.register state)).1.received id = f.received id := rfl

theorem received_unregister (f : State T M) (id' id : Nat) :
    (step f (.unregister id')).1.received id = f.received id := rfl

theorem holders_register (f : State T M) (state : T) (id : Nat) :
    (step f (.register state)).1.holders id =
      f.holders id ++ if f.list.nextId = id then [⟨f.list.nextId,state⟩] else [] := by
  by_cases hid : f.list.nextId = id <;> simp [State.holders,step,hid]

theorem holders_unregister (f : State T M) (id' id : Nat) :
    (step f (.unregister id')).1.holders id = if id' = id then [] else f.holders id := by
  by_cases hid : id' = id
  · simp [State.holders,step,hid,List.filter_filter]
  · simp only [State.holders,step,unregister_entries,List.filter_filter,hid,if_false]
    refine List.filter_congr ?_
    intro e _
    by_cases he : e.id = id
    · simp [he,Ne.symm hid]
    · simp [he]

theorem holders_notify (f : State T M) (message : M) (id : Nat) :
    (step f (.notify message)).1.holders id = f.holders id := rfl

theorem step_received (f : State T M) (call : Call T M) (id : Nat) :
    ∃ more, (step f call).1.received id = f.received id ++ more ∧
      (f.holders id = [] → more = []) := by
  cases call with
  | register state => exact ⟨[],by rw [received_register,List.append_nil],fun _ => rfl⟩
  | unregister id' => exact ⟨[],by rw [received_unregister,List.append_nil],fun _ => rfl⟩
  | notify message => exact ⟨_,received_notify f message id,fun h => by rw [h]; rfl⟩

theorem registrations_append (calls calls' : List (Call T M)) :
    registrations (calls ++ calls') = registrations calls + registrations calls' :=
  List.countP_append

theorem registrations_cons (call : Call T M) (calls : List (Call T M)) :
    registrations (call :: calls) = registrations [call] + registrations calls :=
  registrations_append [call] calls

theorem step_nextId (f : State T M) (call : Call T M)
    (h : f.list.nextId + registrations [call] < 2^64) :
    (step f call).1.list.nextId = f.list.nextId + registrations [call] := by
  cases call with
  | register state => exact Nat.mod_eq_of_lt h
  | unregister id => exact unregister_nextId f.list id
  | notify message => rfl

theorem run_nextId (f : State T M) (calls : List (Call T M))
    (h : f.list.nextId + registrations calls < 2^64) :
    (run step f calls).1.list.nextId = f.list.nextId + registrations calls := by
  induction calls generalizing f with
  | nil => rfl
  | cons call calls ih =>
    rw [registrations_cons] at h ⊢
    have hnext := step_nextId f call (by omega)
    rw [run_cons,ih _ (by omega),hnext,Nat.add_assoc]

theorem run_fresh (f : State T M) (calls : List (Call T M))
    (h : f.list.nextId + registrations calls < 2^64)
    (hf : ∀ id, f.list.nextId ≤ id → f.holders id = [] ∧ f.received id = []) (id : Nat)
    (hid : f.list.nextId + registrations calls ≤ id) :
    (run step f calls).1.holders id = [] ∧ (run step f calls).1.received id = [] := by
  induction calls generalizing f with
  | nil => exact hf id hid
  | cons call calls ih =>
    rw [registrations_cons] at h hid
    have hnext := step_nextId f call (by omega)
    refine ih _ (by omega) ?_ (by omega)
    intro id hle
    rw [hnext] at hle
    obtain ⟨hholders,hreceived⟩ := hf id (by omega)
    cases call with
    | register state =>
      have hne : f.list.nextId ≠ id := by simp [registrations,Call.registers] at hle; omega
      rw [holders_register,received_register]
      simp [hholders,hreceived,hne]
    | unregister id' =>
      rw [holders_unregister,received_unregister]
      simp [hholders,hreceived]
    | notify message =>
      rw [holders_notify,received_notify]
      simp [hholders,hreceived]

theorem run_received (f : State T M) (calls : List (Call T M))
    (h : f.list.nextId + registrations calls < 2^64) (id : Nat) (hid : id < f.list.nextId)
    (hkeep : Call.unregister id ∈ calls → f.holders id = []) :
    (run step f calls).1.holders id = f.holders id ∧
      (run step f calls).1.received id =
        f.received id ++ (notifications calls).flatMap fun m => (f.holders id).map fun _ => m := by
  induction calls generalizing f with
  | nil => simp [notifications]
  | cons call calls ih =>
    rw [registrations_cons] at h
    have hnext := step_nextId f call (by omega)
    have hholders : (step f call).1.holders id = f.holders id := by
      cases call with
      | register state =>
        rw [holders_register,if_neg (by omega),List.append_nil]
      | unregister id' =>
        rw [holders_unregister]
        by_cases heq : id' = id
        · rw [if_pos heq,hkeep (heq ▸ List.mem_cons_self)]
        · rw [if_neg heq]
      | notify message => exact holders_notify f message id
    obtain ⟨hend,hmessages⟩ := ih _ (by omega) (by omega)
      (fun hmem => hholders.trans (hkeep (List.mem_cons_of_mem call hmem)))
    rw [run_cons]
    refine ⟨hend.trans hholders,?_⟩
    rw [hmessages,hholders]
    cases call with
    | register state => rfl
    | unregister id' => rfl
    | notify message =>
      rw [received_notify]
      simp [notifications,Call.message?]

/-- A subscription in a run: its handle gets the messages between its registration and its
end, in order, each once, and nothing before or afterwards. -/
theorem subscription_messages (before during after : List (Call T M)) (state : T) (id : Nat)
    (hid : (step (run step .new before).1 (.register state)).2 = .handle id)
    (hbound : registrations (before ++ .register state :: during) + registrations after < 2^64-1)
    (hduring : Call.unregister id ∉ during) :
    (run step .new (before ++ .register state :: during)).1.received id = notifications during ∧
      let ended := (run step .new (before ++ .register state :: during ++ .unregister id :: after)).1
      ended.holders id = [] ∧ ended.received id = notifications during := by
  rw [registrations_append,registrations_cons] at hbound
  have hone : registrations [(.register state : Call T M)] = 1 := rfl
  have hnew : (State.new : State T M).list.nextId = 1 := rfl
  have hcounter := run_nextId .new before (by omega)
  obtain rfl : (run step .new before).1.list.nextId = id := by
    cases hid
    rfl
  set f := (run step .new before).1 with hf
  have hfresh : f.holders f.list.nextId = [] ∧ f.received f.list.nextId = [] :=
    run_fresh .new before (by omega) (fun id _ => ⟨rfl,rfl⟩) _ (by omega)
  have hnext := step_nextId f (.register state) (by omega)
  -- the registration puts exactly one subscriber under the handle
  have hholders : (step f (.register state)).1.holders f.list.nextId =
      [⟨f.list.nextId,state⟩] := by
    rw [holders_register,hfresh.1,if_pos rfl,List.nil_append]
  obtain ⟨hkept,hmessages⟩ := run_received (step f (.register state)).1 during (by omega)
    f.list.nextId (by omega) (fun hmem => absurd hmem hduring)
  have hduring' : (run step (step f (.register state)).1 during).1.received f.list.nextId =
      notifications during := by
    rw [hmessages,hholders,received_register,hfresh.2]
    simp
  have hrun : (run step .new (before ++ .register state :: during)).1 =
      (run step (step f (.register state)).1 during).1 := by
    rw [run_append,run_cons]
  refine ⟨by rw [hrun,hduring'],?_⟩
  simp only [run_append step _ (before ++ .register state :: during),hrun,run_cons]
  have hcount := run_nextId (step f (.register state)).1 during (by omega)
  set g := (run step (step f (.register state)).1 during).1
  have hzero : registrations [(.unregister f.list.nextId : Call T M)] = 0 := rfl
  have hlast := step_nextId g (.unregister f.list.nextId) (by omega)
  have hgone : (step g (.unregister f.list.nextId)).1.holders f.list.nextId = [] := by
    rw [holders_unregister,if_pos rfl]
  obtain ⟨hend,hafter⟩ := run_received (step g (.unregister f.list.nextId)).1 after (by omega)
    f.list.nextId (by omega) (fun _ => hgone)
  refine ⟨hend.trans hgone,?_⟩
  rw [hafter,hgone,received_unregister,hduring']
  simp

end Xqlite.Feed

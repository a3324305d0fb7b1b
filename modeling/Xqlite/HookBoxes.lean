import Xqlite.HookFeed
import Xqlite.Lib.Ledger
set_option autoImplicit false

/-! The subscriber list on the heap. A pointer is the number of a boxed vector; `register`,
`unregister` and `for_each_snapshot` go through the list one access at a time, and whoever
runs beside them can be at any other access. Reading or freeing a box that was freed is a
fault. -/

namespace Xqlite.HookBox
open Hook Boxes

structure State (T M : Type) where
  boxes : List (List (HookEntry T))
  reclaimed : List Nat
  head : Option Nat
  nextId : Nat
  sent : List (HookEntry T × M)
  deriving DecidableEq, Repr

inductive Fault where
  | readsReclaimed
  | freesTwice
  deriving DecidableEq, Repr

inductive Loc (T M : Type) where
  | fetchAdd (state : T)
  | load (entry : HookEntry T)
  | clone (oldPtr : Nat) (entry : HookEntry T) (clone : List (HookEntry T))
  | find (id : Nat)
  | filter (oldPtr : Nat) (id : Nat) (filtered : List (HookEntry T)) (i : Nat)
  | box (newVec : List (HookEntry T)) (reply : Feed.Reply)
  | swap (newPtr : Option Nat) (reply : Feed.Reply)
  | reclaim (prev : Nat) (reply : Feed.Reply)
  | snapshot (message : M)
  | walk (head : Nat) (message : M) (i : Nat)
  deriving DecidableEq, Repr

variable {T M : Type}

def State.new : State T M := ⟨[],[],none,1,[]⟩

def State.deref (s : State T M) (p : Nat) : Option (List (HookEntry T)) :=
  if p ∈ s.reclaimed then none else s.boxes[p]?

def enter : Feed.Call T M → Loc T M
  | .register state => .fetchAdd state
  | .unregister id => .find id
  | .notify message => .snapshot message

def stepRegister (s : State T M) (entry : HookEntry T) : Loc T M :=
  match s.head with
  | none => .box [entry] (.handle entry.id)
  | some oldPtr => .clone oldPtr entry []

def step (s : State T M) : Loc T M → State T M × (Loc T M ⊕ Except Fault Feed.Reply)
  | .fetchAdd state =>
    ({ s with nextId := (s.nextId + 1) % 2^64 },.inl (.load ⟨s.nextId,state⟩))
  | .load entry => (s,.inl (stepRegister s entry))
  | .clone oldPtr entry clone =>
    match s.deref oldPtr with
    | none => (s,.inr (.error .readsReclaimed))
    | some existing =>
      match existing[clone.length]? with
      | some e => (s,.inl (.clone oldPtr entry (clone ++ [⟨e.id,e.state⟩])))
      | none => (s,.inl (.box (clone ++ [entry]) (.handle entry.id)))
  | .find id =>
    match s.head with
    | none => (s,.inr (.ok (.removed false)))
    | some oldPtr => (s,.inl (.filter oldPtr id [] 0))
  | .filter oldPtr id filtered i =>
    match s.deref oldPtr with
    | none => (s,.inr (.error .readsReclaimed))
    | some existing =>
      match existing[i]? with
      | some e =>
        (s,.inl (.filter oldPtr id (if e.id ≠ id then filtered ++ [⟨e.id,e.state⟩] else filtered)
          (i+1)))
      | none =>
        if filtered.length = existing.length then (s,.inr (.ok (.removed false)))
        else if filtered.isEmpty then (s,.inl (.swap none (.removed true)))
        else (s,.inl (.box filtered (.removed true)))
  | .box newVec reply =>
    ({ s with boxes := s.boxes ++ [newVec] },.inl (.swap (some s.boxes.length) reply))
  | .swap newPtr reply =>
    match s.head with
    | none => ({ s with head := newPtr },.inr (.ok reply))
    | some prev => ({ s with head := newPtr },.inl (.reclaim prev reply))
  | .reclaim prev reply =>
    match s.deref prev with
    | none => (s,.inr (.error .freesTwice))
    | some _ => ({ s with reclaimed := s.reclaimed ++ [prev] },.inr (.ok reply))
  | .snapshot message =>
    match s.head with
    | none => (s,.inr (.ok .notified))
    | some head => (s,.inl (.walk head message 0))
  | .walk head message i =>
    match s.deref head with
    | none => (s,.inr (.error .readsReclaimed))
    | some snapshot =>
      match snapshot[i]? with
      | some e => ({ s with sent := s.sent ++ [(e,message)] },.inl (.walk head message (i+1)))
      | none => (s,.inr (.ok .notified))

def Loc.accesses : Loc T M → Option Nat
  | .clone p _ _ | .filter p _ _ _ | .reclaim p _ | .walk p _ _ => some p
  | _ => none

def State.feed (s : State T M) : Feed.State T M :=
  ⟨⟨s.head.map fun p => s.boxes.getD p [],s.nextId⟩,s.sent⟩

/-- Every box is the list's, or in the hand of the call in progress, or was freed once. -/
def Owned (s : State T M) (inHand : List Nat) : Prop :=
  Balanced ⟨s.boxes.length,s.reclaimed⟩ (inHand ++ s.head.toList)

theorem Owned.deref {s : State T M} {inHand : List Nat} (h : Owned s inHand) {p : Nat}
    (hp : p ∈ inHand ++ s.head.toList) : s.deref p = some (s.boxes.getD p []) := by
  obtain ⟨hlt,hlive⟩ := Balanced.live h hp
  have hget : s.boxes[p]? = some (s.boxes.getD p []) := by
    rw [List.getElem?_eq_getElem hlt,List.getD_eq_getElem?_getD,List.getElem?_eq_getElem hlt]
    rfl
  rw [State.deref,if_neg hlive,hget]

/-- How far a call has come that found the list as `f`, told by what the call does to `f`. -/
def Towards (f : Feed.State T M) (call : Feed.Call T M) (s : State T M) : Loc T M → Prop
  | .fetchAdd state => call = .register state ∧ Owned s [] ∧ s.feed = f
  | .load entry => Owned s [] ∧ ∃ state, call = .register state ∧
      entry = ⟨f.list.nextId,state⟩ ∧ s.feed = { f with list.nextId := (f.list.nextId + 1) % 2^64 }
  | .clone oldPtr entry clone => Owned s [] ∧ s.head = some oldPtr ∧
      clone = (s.boxes.getD oldPtr []).take clone.length ∧ ∃ state, call = .register state ∧
      entry = ⟨f.list.nextId,state⟩ ∧ s.feed = { f with list.nextId := (f.list.nextId + 1) % 2^64 }
  | .find id => call = .unregister id ∧ Owned s [] ∧ s.feed = f
  | .filter oldPtr id filtered i => call = .unregister id ∧ Owned s [] ∧ s.feed = f ∧
      s.head = some oldPtr ∧
      filtered = ((s.boxes.getD oldPtr []).take i).filter fun e => e.id ≠ id
  | .box newVec reply => Owned s [] ∧
      Feed.step f call = (⟨⟨some newVec,s.nextId⟩,s.sent⟩,reply)
  | .swap newPtr reply => Owned s newPtr.toList ∧
      Feed.step f call = (⟨⟨newPtr.map fun p => s.boxes.getD p [],s.nextId⟩,s.sent⟩,reply)
  | .reclaim prev reply => Owned s [prev] ∧ Feed.step f call = (s.feed,reply)
  | .snapshot message => call = .notify message ∧ Owned s [] ∧ s.feed = f
  | .walk head message i => call = .notify message ∧ Owned s [] ∧ s.head = some head ∧
      s.feed = ⟨f.list,f.sent ++ ((s.boxes.getD head []).take i).map (·,message)⟩

/-- The call is over and has done what it does to `f`. -/
def Finished (f : Feed.State T M) (call : Feed.Call T M) (s : State T M)
    (r : Except Fault Feed.Reply) : Prop :=
  Owned s [] ∧ ∃ reply, r = .ok reply ∧ Feed.step f call = (s.feed,reply)

def Next (f : Feed.State T M) (call : Feed.Call T M) :
    State T M × (Loc T M ⊕ Except Fault Feed.Reply) → Prop
  | (s,.inl l) => Towards f call s l
  | (s,.inr r) => Finished f call s r

theorem towards_enter {s : State T M} (h : Owned s []) (call : Feed.Call T M) :
    Towards s.feed call s (enter call) := by
  cases call with
  | register state | unregister id | notify message => exact ⟨rfl,h,rfl⟩

theorem feed_head {s : State T M} {p : Nat} (h : s.head = some p) :
    s.feed.list.head = some (s.boxes.getD p []) := by
  simp [State.feed,h]

theorem feed_register (f : Feed.State T M) (state : T) :
    Feed.step f (.register state) =
      (⟨⟨some (f.list.entries ++ [⟨f.list.nextId,state⟩]),(f.list.nextId + 1) % 2^64⟩,f.sent⟩,
        .handle f.list.nextId) := by
  cases h : f.list.head <;> simp [Feed.step,register,HookList.entries,h]

theorem feed_unregister {f : Feed.State T M} {v : List (HookEntry T)} (h : f.list.head = some v)
    (id : Nat) :
    Feed.step f (.unregister id) =
      if (v.filter fun e => e.id ≠ id).length = v.length then (f,.removed false)
      else (⟨⟨if (v.filter fun e => e.id ≠ id).isEmpty then none
        else some (v.filter fun e => e.id ≠ id),f.list.nextId⟩,f.sent⟩,.removed true) := by
  by_cases hlen : (v.filter fun e => e.id ≠ id).length = v.length
  · simp only [Feed.step,unregister,h,hlen,if_true]
  · simp only [Feed.step,unregister,h,hlen,if_false]

theorem feed_notify (f : Feed.State T M) (message : M) :
    Feed.step f (.notify message) =
      (⟨f.list,f.sent ++ f.list.entries.map (·,message)⟩,.notified) := by
  rw [← Feed.step_notify_sent]
  rfl

theorem take_snoc {β : Type} {v : List β} {i : Nat} {e : β} (h : v[i]? = some e) :
    v.take (i+1) = v.take i ++ [e] := by
  rw [List.take_add_one,h]
  rfl

theorem take_all {β : Type} {v : List β} {i : Nat} (h : v[i]? = none) : v.take i = v :=
  List.take_of_length_le (List.getElem?_eq_none_iff.mp h)

section Step

variable {f : Feed.State T M} {call : Feed.Call T M} {s : State T M}

theorem next_load {entry : HookEntry T} (h : Towards f call s (.load entry)) :
    Next f call (step s (.load entry)) := by
  obtain ⟨howned,state,rfl,rfl,hfeed⟩ := h
  cases hhead : s.head with
  | none =>
    simp only [step,stepRegister,hhead]
    refine ⟨howned,?_⟩
    have hnone : f.list.head = none := by
      have hlist := congrArg (fun g => g.list.head) hfeed
      simpa [State.feed,hhead] using hlist.symm
    have hnext := congrArg (fun g => g.list.nextId) hfeed
    have hsent := congrArg Feed.State.sent hfeed
    simp only [State.feed] at hnext hsent
    rw [feed_register,hnext,hsent]
    simp [HookList.entries,hnone]
  | some oldPtr =>
    simp only [step,stepRegister,hhead]
    exact ⟨howned,hhead,rfl,state,rfl,rfl,hfeed⟩

theorem next_clone {oldPtr : Nat} {entry : HookEntry T} {clone : List (HookEntry T)}
    (h : Towards f call s (.clone oldPtr entry clone)) :
    Next f call (step s (.clone oldPtr entry clone)) := by
  obtain ⟨howned,hhead,hclone,state,rfl,rfl,hfeed⟩ := h
  have hread := howned.deref (p := oldPtr) (by simp [hhead])
  cases hget : (s.boxes.getD oldPtr [])[clone.length]? with
  | some e =>
    simp only [step,hread,hget]
    refine ⟨howned,hhead,?_,state,rfl,rfl,hfeed⟩
    rw [List.length_append,List.length_singleton,take_snoc hget,← hclone]
  | none =>
    simp only [step,hread,hget]
    refine ⟨howned,?_⟩
    have hentries : f.list.entries = clone := by
      have hlist := congrArg (fun g => g.list.head) hfeed
      rw [take_all hget] at hclone
      rw [feed_head hhead] at hlist
      rw [HookList.entries,← hlist,hclone]
      rfl
    have hnext := congrArg (fun g => g.list.nextId) hfeed
    have hsent := congrArg Feed.State.sent hfeed
    simp only [State.feed] at hnext hsent
    rw [feed_register,hnext,hsent,hentries]

theorem next_filter {oldPtr id i : Nat} {filtered : List (HookEntry T)}
    (h : Towards f call s (.filter oldPtr id filtered i)) :
    Next f call (step s (.filter oldPtr id filtered i)) := by
  obtain ⟨rfl,howned,rfl,hhead,hfiltered⟩ := h
  have hread := howned.deref (p := oldPtr) (by simp [hhead])
  cases hget : (s.boxes.getD oldPtr [])[i]? with
  | some e =>
    simp only [step,hread,hget]
    refine ⟨rfl,howned,rfl,hhead,?_⟩
    rw [take_snoc hget,List.filter_append,← hfiltered]
    by_cases he : e.id = id <;> simp [he]
  | none =>
    rw [take_all hget] at hfiltered
    have hcall := feed_unregister (feed_head hhead) id
    rw [← hfiltered] at hcall
    by_cases hlen : filtered.length = (s.boxes.getD oldPtr []).length
    · rw [if_pos hlen] at hcall
      simp only [step,hread,hget,hlen,if_true]
      exact ⟨howned,_,rfl,hcall⟩
    · rw [if_neg hlen] at hcall
      cases hempty : filtered.isEmpty with
      | true =>
        simp only [step,hread,hget,hlen,hempty,if_false,if_true]
        simp only [hempty,if_true] at hcall
        exact ⟨howned,hcall⟩
      | false =>
        simp only [step,hread,hget,hlen,hempty,if_false,Bool.false_eq_true]
        simp only [hempty,if_false,Bool.false_eq_true] at hcall
        exact ⟨howned,hcall⟩

theorem next_box {newVec : List (HookEntry T)} {reply : Feed.Reply}
    (h : Towards f call s (.box newVec reply)) : Next f call (step s (.box newVec reply)) := by
  obtain ⟨howned,hcall⟩ := h
  have halloc := Balanced.alloc howned
  refine ⟨?_,?_⟩
  · simpa [Owned] using halloc
  · rw [hcall]
    simp

theorem next_swap {newPtr : Option Nat} {reply : Feed.Reply}
    (h : Towards f call s (.swap newPtr reply)) : Next f call (step s (.swap newPtr reply)) := by
  obtain ⟨howned,hcall⟩ := h
  cases hhead : s.head with
  | none =>
    simp only [step,hhead]
    refine ⟨?_,reply,rfl,hcall⟩
    simpa [Owned,hhead] using howned
  | some prev =>
    simp only [step,hhead]
    refine ⟨Balanced.perm howned ?_,hcall⟩
    rw [hhead]
    exact List.perm_append_comm

theorem next_reclaim {prev : Nat} {reply : Feed.Reply}
    (h : Towards f call s (.reclaim prev reply)) : Next f call (step s (.reclaim prev reply)) := by
  obtain ⟨howned,hcall⟩ := h
  have hread := howned.deref (p := prev) (by simp)
  simp only [step,hread]
  exact ⟨Balanced.reclaim howned,reply,rfl,hcall⟩

theorem next_walk {head i : Nat} {message : M} (h : Towards f call s (.walk head message i)) :
    Next f call (step s (.walk head message i)) := by
  obtain ⟨rfl,howned,hhead,hfeed⟩ := h
  have hread := howned.deref (p := head) (by simp [hhead])
  have hlist := congrArg Feed.State.list hfeed
  have hsent := congrArg Feed.State.sent hfeed
  simp only [State.feed] at hsent
  cases hget : (s.boxes.getD head [])[i]? with
  | some e =>
    simp only [step,hread,hget]
    refine ⟨rfl,howned,hhead,?_⟩
    rw [take_snoc hget,List.map_append,← List.append_assoc,← hsent,← hlist]
    rfl
  | none =>
    simp only [step,hread,hget]
    refine ⟨howned,.notified,rfl,?_⟩
    have hentries : f.list.entries = s.boxes.getD head [] := by
      rw [← hlist,HookList.entries,feed_head hhead]
      rfl
    rw [feed_notify,hentries,hfeed,take_all hget]

theorem step_next {l : Loc T M} (h : Towards f call s l) : Next f call (step s l) := by
  cases l with
  | fetchAdd state =>
    obtain ⟨rfl,howned,rfl⟩ := h
    exact ⟨howned,state,rfl,rfl,rfl⟩
  | load entry => exact next_load h
  | clone oldPtr entry clone => exact next_clone h
  | find id =>
    obtain ⟨rfl,howned,rfl⟩ := h
    cases hhead : s.head with
    | none =>
      simp only [step,hhead]
      exact ⟨howned,.removed false,rfl,by simp [Feed.step,unregister,State.feed,hhead]⟩
    | some oldPtr =>
      simp only [step,hhead]
      exact ⟨rfl,howned,rfl,hhead,rfl⟩
  | filter oldPtr id filtered i => exact next_filter h
  | box newVec reply => exact next_box h
  | swap newPtr reply => exact next_swap h
  | reclaim prev reply => exact next_reclaim h
  | snapshot message =>
    obtain ⟨rfl,howned,rfl⟩ := h
    cases hhead : s.head with
    | none =>
      simp only [step,hhead]
      exact ⟨howned,.notified,rfl,by simp [Feed.step,forEachSnapshot,State.feed,hhead]⟩
    | some head =>
      simp only [step,hhead]
      exact ⟨rfl,howned,hhead,by simp⟩
  | walk head message i => exact next_walk h

/-- The next access of a call is to a box that exists and was not freed. -/
theorem Towards.access_live {l : Loc T M} {p : Nat} (h : Towards f call s l)
    (hp : l.accesses = some p) : p < s.boxes.length ∧ p ∉ s.reclaimed := by
  cases l with
  | clone oldPtr entry clone =>
    cases hp
    exact Balanced.live h.1 (by simp [h.2.1])
  | filter oldPtr id filtered i =>
    cases hp
    exact Balanced.live h.2.1 (by simp [h.2.2.2.1])
  | reclaim prev reply =>
    cases hp
    exact Balanced.live h.1 (by simp)
  | walk head message i =>
    cases hp
    exact Balanced.live h.2.1 (by simp [h.2.2.1])
  | fetchAdd _ | load _ | find _ | box _ _ | swap _ _ | snapshot _ => cases hp

theorem Towards.owned {l : Loc T M} (h : Towards f call s l) : ∃ inHand, Owned s inHand := by
  cases l with
  | fetchAdd _ | find _ | filter _ _ _ _ | snapshot _ | walk _ _ _ => exact ⟨_,h.2.1⟩
  | load _ | clone _ _ _ | box _ _ | swap _ _ | reclaim _ _ => exact ⟨_,h.1⟩

theorem Towards.received {l : Loc T M} (h : Towards f call s l) (id : Nat) :
    ∃ more, s.feed.received id = f.received id ++ more ∧ (f.holders id = [] → more = []) := by
  have hsame : s.sent = f.sent → ∃ more, s.feed.received id = f.received id ++ more ∧
      (f.holders id = [] → more = []) := by
    intro hsent
    exact ⟨[],by rw [List.append_nil,Feed.State.received,Feed.State.received,← hsent]; rfl,
      fun _ => rfl⟩
  have hdone : ∀ reply list, Feed.step f call = (⟨list,s.sent⟩,reply) →
      ∃ more, s.feed.received id = f.received id ++ more ∧ (f.holders id = [] → more = []) := by
    intro reply list hcall
    have hstep := Feed.step_received f call id
    rw [hcall] at hstep
    exact hstep
  cases l with
  | fetchAdd _ | find _ | snapshot _ => exact hsame (congrArg Feed.State.sent h.2.2)
  | filter oldPtr id filtered i => exact hsame (congrArg Feed.State.sent h.2.2.1)
  | load entry =>
    obtain ⟨_,_,_,_,hfeed⟩ := h
    exact hsame (congrArg Feed.State.sent hfeed)
  | clone oldPtr entry clone =>
    obtain ⟨_,_,_,_,_,_,hfeed⟩ := h
    exact hsame (congrArg Feed.State.sent hfeed)
  | box newVec reply | swap newPtr reply | reclaim prev reply => exact hdone _ _ h.2
  | walk head message i =>
    obtain ⟨_,_,hhead,hfeed⟩ := h
    have hentries : f.list.entries = s.boxes.getD head [] := by
      rw [← congrArg Feed.State.list hfeed,HookList.entries,feed_head hhead]
      rfl
    refine ⟨((f.list.entries.take i).filter fun e => e.id = id).map fun _ => message,?_,?_⟩
    · rw [hfeed,hentries]
      exact Feed.received_append f _ message id
    · intro hnone
      have hsub := ((List.take_sublist i f.list.entries).filter fun e => decide (e.id = id))
      rw [show f.list.entries.filter (fun e => decide (e.id = id)) = [] from hnone] at hsub
      rw [List.sublist_nil.mp hsub]
      rfl

end Step

end Xqlite.HookBox

import Xqlite.BusySlot
import Xqlite.Lib.Ledger
import Xqlite.Lib.Runs
set_option autoImplicit false

/-! The boxes behind the busy slot: xqlite's pointer to one, and the pointer that SQLite
passes to the busy callback. A step is one call into SQLite, one swap of the slot, or one
reclaim; the final drop runs the `Drop` impl first and drops the connection after it. -/

namespace Xqlite.BusyBox
open Runs Boxes Busy

/-- SQLite's busy handler with the user-data pointer registered for it. -/
inductive Registered where
  | none
  | builtin (timeoutMs : Nat)
  | callback (userData : Nat)
  deriving DecidableEq, Repr

/-- Where the code stands inside the call in progress; the mutex admits one at a time. -/
inductive Pc where
  | ready
  | install (newPtr : Nat) (rc : Rc)
  | installed (newPtr : Nat)
  | uninstall (rc : Rc)
  | uninstalled
  | reclaim (ptr : Nat)
  | dropHook (closes : Bool)
  | dropReclaim (ptr : Nat) (closes : Bool)
  | dropFields (closes : Bool)
  | gone
  deriving DecidableEq, Repr

/-- Pointers are positions in `boxes`. `connOpen` is the `Option<Connection>` of the
resource, `sqlite` the handler of the SQLite connection, `none` once that is closed. -/
structure State (Pid : Type) where
  boxes : List (BusySlotState Pid)
  reclaimed : List Nat
  slot : Option Nat
  connOpen : Bool
  sqlite : Option Registered
  pc : Pc
  deriving DecidableEq, Repr

variable {Pid : Type}

def State.opened : State Pid := ⟨[],[],none,true,some .none,.ready⟩

/-- `closes` is the outcome of `sqlite3_close`, which refuses while statements are left. -/
inductive Event (Pid : Type) where
  | call (call : Call Pid)
  | pragmaBusyTimeout (ms : Int)
  | closeConnection (closes : Bool)
  | drop (closes : Bool)
  | next
  deriving DecidableEq, Repr

/-- What `snapshot` reads through the slot's pointer. -/
def State.pointee (s : State Pid) : Option (BusySlotState Pid) :=
  s.slot.bind fun p => s.boxes[p]?

def State.derived (s : State Pid) (call : Call Pid) : BusySlotState Pid :=
  derive call.request (snapshot call.now ⟨s.pointee,.none⟩)

/-- `swap_in`, up to the point where it calls SQLite. -/
def swapIn (s : State Pid) (next : BusySlotState Pid) (rc : Rc) : State Pid :=
  if next.isEmpty then { s with pc := .uninstall rc }
  else { s with boxes := s.boxes ++ [next], pc := .install s.boxes.length rc }

def State.register (s : State Pid) (handler : Registered) : State Pid :=
  { s with sqlite := s.sqlite.map fun _ => handler }

/-- Swap the slot, and reclaim what was in it unless that is null. -/
def State.swap (s : State Pid) (ptr : Option Nat) (reclaim : Nat → Pc) (done : Pc) : State Pid :=
  match s.slot with
  | none => { s with slot := ptr, pc := done }
  | some old => { s with slot := ptr, pc := reclaim old }

def sqlite3Close (closes : Bool) (s : State Pid) : State Pid :=
  { s with connOpen := false, sqlite := if closes then none else s.sqlite }

def advance (s : State Pid) : State Pid :=
  match s.pc with
  | .ready | .gone => s
  | .install newPtr rc =>
      if rc.code = Ffi.sqliteOk then
        { s.register (.callback newPtr) with pc := .installed newPtr }
      else { s with pc := .reclaim newPtr }
  | .installed newPtr => s.swap (some newPtr) .reclaim .ready
  | .uninstall rc =>
      if rc.code = Ffi.sqliteOk then { s.register .none with pc := .uninstalled }
      else { s with pc := .ready }
  | .uninstalled => s.swap none .reclaim .ready
  | .reclaim ptr => { s with reclaimed := s.reclaimed ++ [ptr], pc := .ready }
  | .dropHook closes => s.swap none (.dropReclaim · closes) (.dropFields closes)
  | .dropReclaim ptr closes =>
      { s with reclaimed := s.reclaimed ++ [ptr], pc := .dropFields closes }
  | .dropFields closes =>
      if s.connOpen then { sqlite3Close closes s with pc := .gone } else { s with pc := .gone }

/-- A call on a resource whose connection was taken answers `ConnectionClosed`. -/
def begin (s : State Pid) : Event Pid → State Pid
  | .call call => if s.connOpen then swapIn s (s.derived call) call.rc else s
  | .pragmaBusyTimeout ms =>
      if s.connOpen then s.register (if 0 < ms then .builtin ms.toNat else .none) else s
  | .closeConnection closes => if s.connOpen then sqlite3Close closes s else s
  | .drop closes => { s with pc := .dropHook closes }
  | .next => s

/-- A call or the final drop starts only when no other call is in progress. -/
def step (s : State Pid) (e : Event Pid) : State Pid × Unit :=
  match e with
  | .next => (advance s,())
  | e => if s.pc = .ready then (begin s e,()) else (s,())

/-- SQLite may call xqlite's callback with the pointer `p`. -/
def State.mayCall (s : State Pid) (p : Nat) : Prop := s.sqlite = some (.callback p)

/-- The pointer SQLite would pass to the callback is a box that was not reclaimed. -/
def State.Safe (s : State Pid) : Prop :=
  ∀ p, s.mayCall p → p < s.boxes.length ∧ p ∉ s.reclaimed

def DropsDetached (s : State Pid) : Event Pid → Prop
  | .drop _ => s.pc = .ready → ∀ p, ¬ s.mayCall p
  | _ => True

def Pc.owned : Pc → List Nat
  | .install p _ | .installed p | .reclaim p | .dropReclaim p _ => [p]
  | _ => []

/-- `drop_hook` has cleared the slot. -/
def Pc.emptied : Pc → Bool
  | .dropReclaim _ _ | .dropFields _ | .gone => true
  | _ => false

def Pc.dropping : Pc → Bool
  | .dropHook _ | .dropReclaim _ _ | .dropFields _ | .gone => true
  | _ => false

/-- The pointer that SQLite may have at each place before the final drop. -/
def State.Attached (s : State Pid) (p : Nat) : Prop :=
  match s.pc with
  | .ready | .install _ _ | .uninstall _ | .reclaim _ => s.slot = some p
  | .installed newPtr => p = newPtr
  | .uninstalled => False
  | _ => True

def State.ledger (s : State Pid) : Ledger := ⟨s.boxes.length,s.reclaimed⟩

structure Inv (s : State Pid) : Prop where
  balanced : Balanced s.ledger (s.pc.owned ++ s.slot.toList)
  attached : ∀ p, s.mayCall p → s.Attached p
  emptied : s.pc.emptied = true → s.slot = none

theorem inv_opened : Inv (State.opened : State Pid) :=
  ⟨Balanced.empty,fun p hp => by simp [State.mayCall,State.opened] at hp,
    fun _ => rfl⟩

theorem mayCall_register {s : State Pid} {h : Registered} {p : Nat}
    (hp : (s.register h).mayCall p) : h = .callback p := by
  cases hs : s.sqlite with
  | none => simp [State.mayCall,State.register,hs] at hp
  | some old => simpa [State.mayCall,State.register,hs] using hp

theorem mayCall_close {s : State Pid} {closes : Bool} {p : Nat}
    (hp : (sqlite3Close closes s).mayCall p) : s.mayCall p := by
  cases closes with
  | true => simp [State.mayCall,sqlite3Close] at hp
  | false => exact hp

theorem inv_begin {s : State Pid} (h : Inv s) (hready : s.pc = .ready) (e : Event Pid) :
    Inv (begin s e) := by
  have hbal := h.balanced
  have hatt : ∀ p, s.mayCall p → s.slot = some p := fun p hp => by
    simpa [State.Attached,hready] using h.attached p hp
  rw [hready] at hbal
  cases e with
  | next => exact h
  | drop closes =>
    exact ⟨hbal,fun _ _ => trivial,fun hpc => by cases hpc⟩
  | call call =>
    simp only [begin]
    cases hopen : s.connOpen with
    | false => simpa [hopen] using h
    | true =>
      simp only [if_true,swapIn]
      cases hempty : (s.derived call).isEmpty with
      | true => exact ⟨hbal,hatt,fun hpc => by cases hpc⟩
      | false =>
        refine ⟨?_,hatt,fun hpc => by cases hpc⟩
        simpa [State.ledger,Pc.owned] using hbal.alloc
  | pragmaBusyTimeout ms =>
    simp only [begin]
    cases hopen : s.connOpen with
    | false => simpa [hopen] using h
    | true =>
      refine ⟨h.balanced,?_,h.emptied⟩
      intro p hp
      have hcallback := mayCall_register hp
      by_cases hms : 0 < ms <;> simp [hms] at hcallback
  | closeConnection closes =>
    simp only [begin]
    cases hopen : s.connOpen with
    | false => simpa [hopen] using h
    | true => exact ⟨h.balanced,fun p hp => h.attached p (mayCall_close hp),h.emptied⟩

theorem balanced_swap {s : State Pid} {ptr : Option Nat} {reclaim : Nat → Pc} {done : Pc}
    (hbal : Balanced s.ledger (s.slot.toList ++ ptr.toList)) (hdone : done.owned = [])
    (hreclaim : ∀ p, (reclaim p).owned = [p]) :
    Balanced (s.swap ptr reclaim done).ledger
      ((s.swap ptr reclaim done).pc.owned ++ (s.swap ptr reclaim done).slot.toList) := by
  cases hslot : s.slot with
  | none => simpa [State.swap,hslot,hdone,State.ledger] using hbal
  | some old => simpa [State.swap,hslot,hreclaim,State.ledger] using hbal

/-- Each way out of a swap has to go with the pointer that is in the slot then. -/
theorem inv_swap {s : State Pid} {ptr : Option Nat} {reclaim : Nat → Pc} {done : Pc}
    (hbal : Balanced s.ledger (s.slot.toList ++ ptr.toList)) (hdone : done.owned = [])
    (hreclaim : ∀ p, (reclaim p).owned = [p])
    (hatt : ∀ p, s.mayCall p → ({ s with slot := ptr, pc := done } : State Pid).Attached p ∧
      ∀ old, ({ s with slot := ptr, pc := reclaim old } : State Pid).Attached p)
    (hempty : ptr ≠ none → done.emptied = false ∧ ∀ old, (reclaim old).emptied = false) :
    Inv (s.swap ptr reclaim done) := by
  have hbalanced := balanced_swap hbal hdone hreclaim
  cases hslot : s.slot with
  | none =>
    have hswap : s.swap ptr reclaim done = { s with slot := ptr, pc := done } := by
      simp only [State.swap,hslot]
    rw [hswap] at hbalanced ⊢
    refine ⟨hbalanced,fun p hp => (hatt p hp).1,fun hcleared => ?_⟩
    by_contra hne
    exact Bool.false_ne_true ((hempty hne).1.symm.trans hcleared)
  | some old =>
    have hswap : s.swap ptr reclaim done = { s with slot := ptr, pc := reclaim old } := by
      simp only [State.swap,hslot]
    rw [hswap] at hbalanced ⊢
    refine ⟨hbalanced,fun p hp => (hatt p hp).2 old,fun hcleared => ?_⟩
    by_contra hne
    exact Bool.false_ne_true (((hempty hne).2 old).symm.trans hcleared)

theorem inv_advance {s : State Pid} (h : Inv s) : Inv (advance s) := by
  have hbal := h.balanced
  have hatt := h.attached
  unfold advance
  cases hpc : s.pc with
  | ready | gone => exact h
  | install newPtr rc =>
    rw [hpc] at hbal
    by_cases hrc : rc.code = Ffi.sqliteOk
    · simp only [hrc,if_true]
      refine ⟨hbal,?_,fun hc => by cases hc⟩
      intro p hp
      have hcallback : Registered.callback newPtr = .callback p := mayCall_register hp
      exact (Registered.callback.inj hcallback).symm
    · simp only [hrc,if_false]
      refine ⟨hbal,?_,fun hc => by cases hc⟩
      intro p hp
      simpa [State.Attached,hpc] using hatt p hp
  | installed newPtr =>
    rw [hpc] at hbal
    have hown : Balanced s.ledger (s.slot.toList ++ (some newPtr).toList) :=
      hbal.perm List.perm_append_comm
    refine inv_swap hown rfl (fun _ => rfl) (fun p hp => ?_) (fun _ => ⟨rfl,fun _ => rfl⟩)
    have hnew : p = newPtr := by simpa [State.Attached,hpc] using hatt p hp
    rw [hnew]
    exact ⟨rfl,fun _ => rfl⟩
  | uninstall rc =>
    rw [hpc] at hbal
    by_cases hrc : rc.code = Ffi.sqliteOk
    · simp only [hrc,if_true]
      refine ⟨hbal,?_,fun hc => by cases hc⟩
      intro p hp
      have hcallback : Registered.none = .callback p := mayCall_register hp
      cases hcallback
    · simp only [hrc,if_false]
      refine ⟨hbal,?_,fun hc => by cases hc⟩
      intro p hp
      simpa [State.Attached,hpc] using hatt p hp
  | uninstalled =>
    rw [hpc] at hbal
    have hown : Balanced s.ledger (s.slot.toList ++ (none : Option Nat).toList) := by
      simpa [Pc.owned] using hbal
    refine inv_swap hown rfl (fun _ => rfl) (fun p hp => ?_) (fun hne => absurd rfl hne)
    have hfalse := hatt p hp
    simp [State.Attached,hpc] at hfalse
  | reclaim ptr =>
    rw [hpc] at hbal
    refine ⟨hbal.reclaim,?_,fun hc => by cases hc⟩
    intro p hp
    simpa [State.Attached,hpc] using hatt p hp
  | dropHook closes =>
    rw [hpc] at hbal
    have hown : Balanced s.ledger (s.slot.toList ++ (none : Option Nat).toList) := by
      simpa [Pc.owned] using hbal
    exact inv_swap hown rfl (fun _ => rfl) (fun _ _ => ⟨trivial,fun _ => trivial⟩)
      (fun hne => absurd rfl hne)
  | dropReclaim ptr closes =>
    rw [hpc] at hbal
    have hnone : s.slot = none := h.emptied (by rw [hpc]; rfl)
    exact ⟨hbal.reclaim,fun _ _ => trivial,fun _ => hnone⟩
  | dropFields closes =>
    rw [hpc] at hbal
    have hnone : s.slot = none := h.emptied (by rw [hpc]; rfl)
    cases hopen : s.connOpen with
    | false => exact ⟨hbal,fun _ _ => trivial,fun _ => hnone⟩
    | true => exact ⟨hbal,fun _ _ => trivial,fun _ => hnone⟩

theorem step_start (s : State Pid) {e : Event Pid} (he : e ≠ .next) :
    (step s e).1 = if s.pc = .ready then begin s e else s := by
  cases e with
  | next => exact absurd rfl he
  | _ => by_cases hready : s.pc = .ready <;> simp [step,hready]

theorem inv_step (s : State Pid) (e : Event Pid) (h : Inv s) : Inv (step s e).1 := by
  by_cases he : e = .next
  · subst he
    exact inv_advance h
  · rw [step_start s he]
    split_ifs with hready
    · exact inv_begin h hready e
    · exact h

/-- Once the drop has begun, nothing registers the callback again. -/
def Detached (s : State Pid) : Prop := s.pc.dropping = true → ∀ p, ¬ s.mayCall p

theorem begin_mayCall {s : State Pid} {e : Event Pid} {p : Nat} (hp : (begin s e).mayCall p) :
    s.mayCall p := by
  cases e with
  | next | drop closes => exact hp
  | call call =>
    simp only [begin] at hp
    split_ifs at hp with hopen
    · unfold swapIn at hp
      split_ifs at hp with hempty <;> exact hp
    · exact hp
  | pragmaBusyTimeout ms =>
    simp only [begin] at hp
    split_ifs at hp with hopen hms
    · cases mayCall_register hp
    · cases mayCall_register hp
    · exact hp
  | closeConnection closes =>
    simp only [begin] at hp
    split_ifs at hp with hopen
    · exact mayCall_close hp
    · exact hp

theorem begin_dropping {s : State Pid} {e : Event Pid} (hready : s.pc = .ready)
    (hd : (begin s e).pc.dropping = true) : ∃ closes, e = .drop closes := by
  cases e with
  | drop closes => exact ⟨closes,rfl⟩
  | next => simp [begin,hready,Pc.dropping] at hd
  | call call =>
    simp only [begin] at hd
    split_ifs at hd with hopen
    · unfold swapIn at hd
      split_ifs at hd with hempty <;> simp [Pc.dropping] at hd
    · simp [hready,Pc.dropping] at hd
  | pragmaBusyTimeout ms =>
    simp only [begin] at hd
    split_ifs at hd with hopen <;> simp [State.register,hready,Pc.dropping] at hd
  | closeConnection closes =>
    simp only [begin] at hd
    split_ifs at hd with hopen <;> simp [sqlite3Close,hready,Pc.dropping] at hd

theorem swap_mayCall {s : State Pid} {ptr : Option Nat} {reclaim : Nat → Pc} {done : Pc} {p : Nat}
    (hp : (s.swap ptr reclaim done).mayCall p) : s.mayCall p := by
  cases hslot : s.slot <;> simpa [State.swap,hslot,State.mayCall] using hp

/-- Inside the drop the handler only ever goes away, and no other place leads there. -/
theorem advance_dropping {s : State Pid} (hd : (advance s).pc.dropping = true) :
    s.pc.dropping = true ∧ ∀ p, (advance s).mayCall p → s.mayCall p := by
  unfold advance at hd ⊢
  cases hpc : s.pc with
  | ready => simp [hpc,Pc.dropping] at hd
  | gone => exact ⟨rfl,fun _ hp => hp⟩
  | install newPtr rc =>
    rw [hpc] at hd
    by_cases hrc : rc.code = Ffi.sqliteOk <;> simp [hrc,Pc.dropping] at hd
  | installed newPtr =>
    rw [hpc] at hd
    cases hslot : s.slot <;> simp [State.swap,hslot,Pc.dropping] at hd
  | uninstall rc =>
    rw [hpc] at hd
    by_cases hrc : rc.code = Ffi.sqliteOk <;> simp [hrc,Pc.dropping] at hd
  | uninstalled =>
    rw [hpc] at hd
    cases hslot : s.slot <;> simp [State.swap,hslot,Pc.dropping] at hd
  | reclaim ptr => simp [hpc,Pc.dropping] at hd
  | dropHook closes => exact ⟨rfl,fun _ hp => swap_mayCall hp⟩
  | dropReclaim ptr closes => exact ⟨rfl,fun _ hp => hp⟩
  | dropFields closes =>
    refine ⟨rfl,?_⟩
    intro p hp
    cases hopen : s.connOpen with
    | false => simpa [hopen,State.mayCall] using hp
    | true =>
      rw [hopen] at hp
      exact mayCall_close hp

theorem detached_step (s : State Pid) (e : Event Pid) (h : Detached s) (he : DropsDetached s e) :
    Detached (step s e).1 := by
  by_cases hnext : e = .next
  · subst hnext
    intro hd p hp
    obtain ⟨hbefore,hcall⟩ := advance_dropping hd
    exact h hbefore p (hcall p hp)
  · rw [step_start s hnext]
    split_ifs with hready
    · intro hd p hp
      obtain ⟨closes,rfl⟩ := begin_dropping hready hd
      exact he hready p (begin_mayCall hp)
    · exact h

/-- Before the final drop SQLite's pointer is the slot's box or the one being installed. -/
theorem Inv.safe {s : State Pid} (h : Inv s) (hd : Detached s) : s.Safe := by
  intro p hp
  have hatt := h.attached p hp
  suffices hown : p ∈ s.pc.owned ++ s.slot.toList from h.balanced.live hown
  cases hpc : s.pc with
  | ready | install newPtr rc | uninstall rc | reclaim ptr =>
    have hslot : s.slot = some p := by simpa [State.Attached,hpc] using hatt
    simp [hslot]
  | installed newPtr =>
    have heq : p = newPtr := by simpa [State.Attached,hpc] using hatt
    simp [Pc.owned,heq]
  | uninstalled => simp [State.Attached,hpc] at hatt
  | _ => exact absurd hp (hd (by rw [hpc]; rfl) p)

/-- `drop_hook` reclaims the slot's box while the connection is still there. -/
theorem drop_dangles {s : State Pid} (h : Inv s) (hready : s.pc = .ready) {p : Nat}
    (hp : s.mayCall p) (closes : Bool) : ¬ (run step s [.drop closes,.next,.next]).1.Safe := by
  have hslot : s.slot = some p := by simpa [State.Attached,hready] using h.attached p hp
  intro hsafe
  have hreclaimed := (hsafe p (by
    simpa [step,hready,begin,advance,State.swap,hslot,State.mayCall] using hp)).2
  simp [step,hready,begin,advance,State.swap,hslot] at hreclaimed

/-- No box is reclaimed twice and none is left over, in every run. The callback's pointer
is live throughout as long as the final drop finds the callback gone, and in no other case. -/
theorem busy_boxes_reclaimed (events : List (Event Pid)) :
    let s := (run step (State.opened : State Pid) events).1
    s.reclaimed.Nodup ∧ (s.pc = .gone → ∀ p < s.boxes.length, p ∈ s.reclaimed) ∧
      (AllSteps step DropsDetached (State.opened : State Pid) events → s.Safe) ∧
      (s.pc = .ready → ∀ p closes, s.mayCall p →
        ¬ (run step s [.drop closes,.next,.next]).1.Safe) := by
  intro s
  have hinv : Inv s := run_inv_total step (I := Inv) inv_step events inv_opened
  refine ⟨hinv.balanced.nodup_reclaimed,?_,?_,?_⟩
  · intro hgone p hp
    have hbal := hinv.balanced
    rw [hgone,hinv.emptied (by rw [hgone]; rfl)] at hbal
    exact hbal.all_reclaimed hp
  · intro hall
    have hdetached : Detached (State.opened : State Pid) := fun hd => by cases hd
    exact hinv.safe (run_inv step (I := Detached) detached_step hdetached hall)
  · intro hready p closes hp
    exact drop_dangles hinv hready hp closes

/-- One policy, then the connection closed before the last reference goes. -/
theorem busy_boxes_reclaimed_closed :
    let events : List (Event Nat) :=
      [.call ⟨.setPolicy ⟨3,100,5⟩,.success,0⟩,.next,.next,.closeConnection true,.drop true,
        .next,.next,.next]
    (run step State.opened events).1.pc = .gone ∧ (run step State.opened events).1.Safe := by
  intro events
  refine ⟨by decide,(busy_boxes_reclaimed events).2.2.1 ?_⟩
  refine ⟨trivial,trivial,trivial,trivial,?_,trivial,trivial,trivial,trivial⟩
  intro _ p hp
  cases hp

/-- One policy, and the last reference goes while the connection is open. -/
theorem busy_box_dangles :
    let s := (run step (State.opened : State Nat)
      [.call ⟨.setPolicy ⟨3,100,5⟩,.success,0⟩,.next,.next,.drop true,.next,.next]).1
    s.mayCall 0 ∧ 0 ∈ s.reclaimed :=
  ⟨rfl,by decide⟩

def Registered.handler : Registered → Handler
  | .none => .none
  | .builtin timeoutMs => .builtin timeoutMs
  | .callback _ => .callback

def State.conn (s : State Pid) (registered : Registered) : Busy.Conn Pid :=
  ⟨s.pointee,registered.handler⟩

theorem derived_eq (s : State Pid) (call : Call Pid) (registered : Registered) :
    s.derived call = derive call.request (snapshot call.now (s.conn registered)) := rfl

theorem pointee_push {s : State Pid} (h : Inv s) (next : BusySlotState Pid) :
    (s.slot.bind fun p => (s.boxes ++ [next])[p]?) = s.pointee := by
  cases hslot : s.slot with
  | none => simp [State.pointee,hslot]
  | some p =>
    have hlive := (h.balanced.live (p := p) (by simp [hslot])).1
    simp [State.pointee,hslot,List.getElem?_append_left hlive]

/-- Run to its end, a call on the boxes is the call on the owned value. -/
theorem call_refines {s : State Pid} (h : Inv s) (hready : s.pc = .ready)
    (hopen : s.connOpen = true) {registered : Registered} (hsql : s.sqlite = some registered)
    (call : Call Pid) :
    ∃ registered', let s' := (run step s [.call call,.next,.next,.next]).1
      s'.pc = .ready ∧ s'.sqlite = some registered' ∧
        s'.conn registered' = (Busy.step (s.conn registered) call).1 := by
  rw [step_eq,← derived_eq s call registered]
  by_cases hrc : call.rc.code = Ffi.sqliteOk
  · cases hempty : (s.derived call).isEmpty with
    | true =>
      refine ⟨.none,?_⟩
      cases hslot : s.slot <;>
        simp [step,hready,hopen,begin,swapIn,hempty,advance,hrc,State.register,State.swap,hslot,
          hsql,State.conn,State.pointee,settle,Registered.handler]
    | false =>
      refine ⟨.callback s.boxes.length,?_⟩
      cases hslot : s.slot <;>
        simp [step,hready,hopen,begin,swapIn,hempty,advance,hrc,State.register,State.swap,hslot,
          hsql,State.conn,State.pointee,settle,Registered.handler]
  · refine ⟨registered,?_⟩
    cases hempty : (s.derived call).isEmpty with
    | true =>
      simp [step,hready,hopen,begin,swapIn,hempty,advance,hrc,hsql,State.conn,State.pointee]
    | false =>
      have hpush := pointee_push h (s.derived call)
      simpa [step,hready,hopen,begin,swapIn,hempty,advance,hrc,hsql,State.conn,State.pointee]
        using hpush

end Xqlite.BusyBox

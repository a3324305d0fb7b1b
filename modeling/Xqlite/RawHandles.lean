import Xqlite.Lib.Lifecycle
import Xqlite.Lib.Runs
set_option autoImplicit false

/-! Threads acting on one connection and its raw handles. A step of a thread is
one lock or unlock of the connection's mutex, one atomic load or swap of a
handle's pointer cell, or one call into SQLite. -/

namespace Xqlite.Raw
open Runs Lifecycle

inductive Kind where
  | statement | stream | blob
  deriving DecidableEq, Repr

/-- The SQLite functions that take a raw statement or blob pointer. -/
inductive Ffi where
  | bind | clearBindings | step | reset | column | finalize
  | blobBytes | blobRead | blobWrite | blobReopen | blobClose
  deriving DecidableEq, Repr

def Ffi.destroys : Ffi → Bool
  | .finalize | .blobClose => true
  | _ => false

def Kind.destroyer : Kind → Ffi
  | .statement | .stream => .finalize
  | .blob => .blobClose

/-- What the closure given to `with_live_stmt` or `with_live_blob` may call. -/
def Kind.inBody : Kind → Ffi → Bool
  | .statement, .bind | .statement, .clearBindings | .statement, .step => true
  | .statement, .reset | .statement, .column => true
  | .blob, .blobBytes | .blob, .blobRead | .blob, .blobWrite | .blob, .blobReopen => true
  | _, _ => false

variable {Tid Handle Ptr : Type}

inductive Op (Handle : Type) where
  | withLive (h : Handle)
  | fetch (h : Handle) (batchSize : Nat)
  | close (h : Handle)
  | closeConnection
  deriving DecidableEq, Repr

/-- Where a thread stands. A pointer in a constructor is a local variable. -/
inductive Pc (Handle Ptr : Type) where
  | idle
  | liveLock (h : Handle)
  | liveCheck (h : Handle)
  | liveLoad (h : Handle)
  | liveBody (h : Handle) (p : Ptr)
  | fetchPeek (h : Handle) (n : Nat)
  | fetchLock (h : Handle) (n : Nat)
  | fetchCheck (h : Handle) (n : Nat)
  | fetchLoad (h : Handle) (n : Nat)
  | fetchStep (h : Handle) (p : Ptr) (n : Nat)
  | fetchDecode (h : Handle) (p : Ptr) (n : Nat)
  | fetchSwap (h : Handle)
  | fetchFinalize (h : Handle) (p : Ptr)
  | closeSwap (h : Handle)
  | closeLock (h : Handle) (p : Ptr)
  | closeFinalize (h : Handle) (p : Ptr)
  | connLock
  | connTake
  | unlock (h : Option Handle)
  deriving DecidableEq, Repr

inductive StepAnswer where
  | row | done | error
  deriving DecidableEq, Repr

/-- What is not fixed by the thread's code: the operation it starts, the calls of
a closure, and what SQLite answers. -/
inductive Choice (Handle : Type) where
  | start (op : Op Handle)
  | next
  | call (fn : Ffi)
  | answer (a : StepAnswer)
  deriving DecidableEq, Repr

structure State (Tid Handle Ptr : Type) where
  mutex : Option Tid
  connOpen : Bool
  cell : Handle → Option Ptr
  pc : Tid → Pc Handle Ptr

inductive Move (Handle Ptr : Type) where
  | stay
  | lock
  | unlock
  | swap (h : Handle)
  | takeConn
  | call (fn : Ffi) (p : Ptr)

def begin : Op Handle → Pc Handle Ptr
  | .withLive h => .liveLock h
  | .fetch h batchSize => .fetchPeek h batchSize
  | .close h => .closeSwap h
  | .closeConnection => .connLock

/-- The code of a thread: from where it stands and what it reads, the next place
and the effect. A thread that cannot move stays. -/
def advance (kind : Handle → Kind) (s : State Tid Handle Ptr) (pc : Pc Handle Ptr)
    (choice : Choice Handle) : Pc Handle Ptr × Move Handle Ptr :=
  match pc, choice with
  | .idle, .start op => (begin op,.stay)
  | .liveLock h, .next => if s.mutex.isNone then (.liveCheck h,.lock) else (.liveLock h,.stay)
  | .liveCheck h, .next => if s.connOpen then (.liveLoad h,.stay) else (.unlock (some h),.stay)
  | .liveLoad h, .next =>
      match s.cell h with
      | none => (.unlock (some h),.stay)
      | some p => (.liveBody h p,.stay)
  | .liveBody h p, .call fn =>
      if (kind h).inBody fn then (.liveBody h p,.call fn p) else (.liveBody h p,.stay)
  | .liveBody h _, .next => (.unlock (some h),.stay)
  | .fetchPeek h n, .next =>
      match s.cell h with
      | none => (.idle,.stay)
      | some _ => (.fetchLock h n,.stay)
  | .fetchLock h n, .next =>
      if s.mutex.isNone then (.fetchCheck h n,.lock) else (.fetchLock h n,.stay)
  | .fetchCheck h n, .next =>
      if s.connOpen then (.fetchLoad h n,.stay) else (.unlock (some h),.stay)
  | .fetchLoad h 0, .next => (.unlock (some h),.stay)
  | .fetchLoad h (n+1), .next =>
      match s.cell h with
      | none => (.unlock (some h),.stay)
      | some p => (.fetchStep h p n,.stay)
  | .fetchStep h p n, .answer .row => (.fetchDecode h p n,.call .step p)
  | .fetchStep h p _, .answer _ => (.fetchSwap h,.call .step p)
  | .fetchDecode h p n, .call .column => (.fetchDecode h p n,.call .column p)
  | .fetchDecode h _ n, .next => (.fetchLoad h n,.stay)
  | .fetchDecode h _ _, .answer .error => (.fetchSwap h,.stay)
  | .fetchSwap h, .next =>
      match s.cell h with
      | none => (.unlock (some h),.stay)
      | some p => (.fetchFinalize h p,.swap h)
  | .fetchFinalize h p, .next => (.unlock (some h),.call (kind h).destroyer p)
  | .closeSwap h, .next =>
      match s.cell h with
      | none => (.idle,.stay)
      | some p => (.closeLock h p,.swap h)
  | .closeLock h p, .next =>
      if s.mutex.isNone then (.closeFinalize h p,.lock) else (.closeLock h p,.stay)
  | .closeFinalize h p, .next => (.unlock (some h),.call (kind h).destroyer p)
  | .connLock, .next => if s.mutex.isNone then (.connTake,.lock) else (.connLock,.stay)
  | .connTake, .next => (.unlock none,.takeConn)
  | .unlock _, .next => (.idle,.unlock)
  | pc, _ => (pc,.stay)

section Step

variable [DecidableEq Tid] [DecidableEq Handle]

def State.goto (s : State Tid Handle Ptr) (t : Tid) (pc : Pc Handle Ptr) : State Tid Handle Ptr :=
  { s with pc := Function.update s.pc t pc }

def perform (s : State Tid Handle Ptr) (t : Tid) :
    Move Handle Ptr → State Tid Handle Ptr × Option (Event Tid Ptr Ffi)
  | .stay => (s,none)
  | .lock => ({ s with mutex := some t },none)
  | .unlock => ({ s with mutex := none },none)
  | .swap h => ({ s with cell := Function.update s.cell h none },none)
  | .takeConn => ({ s with connOpen := false },none)
  | .call fn p => (s,some ⟨t,p,fn,s.mutex⟩)

def step (kind : Handle → Kind) (s : State Tid Handle Ptr) (i : Tid × Choice Handle) :
    State Tid Handle Ptr × Option (Event Tid Ptr Ffi) :=
  let (pc,move) := advance kind s (s.pc i.1) i.2
  ((perform s i.1 move).1.goto i.1 pc,(perform s i.1 move).2)

end Step

section Places

def Pc.holds : Pc Handle Ptr → Bool
  | .idle | .liveLock _ | .fetchPeek _ _ | .fetchLock _ _ | .closeSwap _ | .closeLock _ _ => false
  | .connLock => false
  | _ => true

def Pc.owns : Pc Handle Ptr → Option (Handle × Ptr)
  | .fetchFinalize h p | .closeLock h p | .closeFinalize h p => some (h,p)
  | _ => none

def Pc.borrows : Pc Handle Ptr → Option Ptr
  | .liveBody _ p | .fetchStep _ p _ | .fetchDecode _ p _ => some p
  | _ => none

def Pc.target : Pc Handle Ptr → Option Handle
  | .idle | .connLock | .connTake => none
  | .liveLock h | .liveCheck h | .liveLoad h | .liveBody h _ => some h
  | .fetchPeek h _ | .fetchLock h _ | .fetchCheck h _ | .fetchLoad h _ => some h
  | .fetchStep h _ _ | .fetchDecode h _ _ | .fetchSwap h | .fetchFinalize h _ => some h
  | .closeSwap h | .closeLock h _ | .closeFinalize h _ => some h
  | .unlock h => h

theorem holds_of_borrows {pc : Pc Handle Ptr} {p : Ptr} (h : pc.borrows = some p) :
    pc.holds = true := by
  cases pc <;> simp_all [Pc.borrows,Pc.holds]

theorem target_of_owns {pc : Pc Handle Ptr} {h : Handle} {p : Ptr}
    (ho : pc.owns = some (h,p)) : pc.target = some h := by
  cases pc <;> simp_all [Pc.owns,Pc.target]

theorem owns_of_borrows {pc : Pc Handle Ptr} {p : Ptr} (h : pc.borrows = some p) :
    pc.owns = none := by
  cases pc <;> simp_all [Pc.borrows,Pc.owns]

/-- Everything a thread at `pc` can do in one step that takes it to `pc'`. -/
inductive Effect (s : State Tid Handle Ptr) (pc pc' : Pc Handle Ptr) : Move Handle Ptr → Prop where
  | stay (hholds : pc'.holds = pc.holds) (howns : pc'.owns = pc.owns)
      (hborrows : ∀ p, pc'.borrows = some p → pc.borrows = some p ∨ ∃ h, s.cell h = some p) :
      Effect s pc pc' .stay
  | lock (hfree : s.mutex = none) (hholds' : pc'.holds = true) (howns : pc'.owns = pc.owns)
      (hborrows : pc'.borrows = none) : Effect s pc pc' .lock
  | unlock (hholds : pc.holds = true) (hholds' : pc'.holds = false) (howns : pc.owns = none)
      (howns' : pc'.owns = none) (hborrows : pc'.borrows = none) : Effect s pc pc' .unlock
  | swap (h : Handle) (p : Ptr) (hcell : s.cell h = some p) (hholds : pc'.holds = pc.holds)
      (howns : pc.owns = none) (howns' : pc'.owns = some (h,p)) (hborrows : pc'.borrows = none) :
      Effect s pc pc' (.swap h)
  | takeConn (hholds : pc'.holds = pc.holds) (howns : pc'.owns = pc.owns)
      (hborrows : pc'.borrows = none) : Effect s pc pc' .takeConn
  | use (fn : Ffi) (p : Ptr) (hfn : fn.destroys = false) (hholds : pc'.holds = true)
      (hborrows : pc.borrows = some p) (howns' : pc'.owns = none)
      (hborrows' : pc'.borrows = some p ∨ pc'.borrows = none) : Effect s pc pc' (.call fn p)
  | destroy (fn : Ffi) (h : Handle) (p : Ptr) (hfn : fn.destroys = true)
      (hholds : pc.holds = true) (hholds' : pc'.holds = true) (howns : pc.owns = some (h,p))
      (howns' : pc'.owns = none) (hborrows : pc'.borrows = none) : Effect s pc pc' (.call fn p)

theorem destroyer_destroys (k : Kind) : k.destroyer.destroys = true := by
  cases k <;> rfl

theorem inBody_not_destroys {k : Kind} {fn : Ffi} (h : k.inBody fn = true) :
    fn.destroys = false := by
  cases k <;> cases fn <;> first | rfl | cases h

def Leads (s : State Tid Handle Ptr) (pc : Pc Handle Ptr) (r : Pc Handle Ptr × Move Handle Ptr) :
    Prop :=
  Effect s pc r.1 r.2

theorem Effect.rest (s : State Tid Handle Ptr) (pc : Pc Handle Ptr) : Effect s pc pc .stay :=
  .stay rfl rfl (fun _ hp => .inl hp)

theorem Effect.move {s : State Tid Handle Ptr} {pc pc' : Pc Handle Ptr}
    (hholds : pc'.holds = pc.holds) (howns : pc'.owns = pc.owns) (hborrows : pc'.borrows = none) :
    Effect s pc pc' .stay :=
  .stay hholds howns (fun p hp => by rw [hborrows] at hp; cases hp)

theorem Effect.acquire {s : State Tid Handle Ptr} {pc pc' : Pc Handle Ptr}
    (hholds' : pc'.holds = true) (howns : pc'.owns = pc.owns) (hborrows : pc'.borrows = none) :
    Leads s pc (if s.mutex.isNone then (pc',.lock) else (pc,.stay)) := by
  cases hm : s.mutex with
  | none => exact .lock hm hholds' howns hborrows
  | some t => exact .rest s pc

theorem Effect.check {s : State Tid Handle Ptr} {pc pc' pc'' : Pc Handle Ptr} (c : Bool)
    (h' : Effect s pc pc' .stay) (h'' : Effect s pc pc'' .stay) :
    Leads s pc (if c then (pc',.stay) else (pc'',.stay)) := by
  cases c with
  | true => exact h'
  | false => exact h''

theorem advance_effect (kind : Handle → Kind) (s : State Tid Handle Ptr) (pc : Pc Handle Ptr)
    (choice : Choice Handle) :
    Leads s pc (advance kind s pc choice) := by
  cases pc with
  | idle =>
    cases choice with
    | start op => cases op <;> exact .move rfl rfl rfl
    | _ => exact .rest s _
  | liveLock h | connLock =>
    cases choice with
    | next => exact .acquire rfl rfl rfl
    | _ => exact .rest s _
  | fetchLock h n | closeLock h p =>
    cases choice with
    | next => exact .acquire rfl rfl rfl
    | _ => exact .rest s _
  | liveCheck h =>
    cases choice with
    | next => exact .check s.connOpen (.move rfl rfl rfl) (.move rfl rfl rfl)
    | _ => exact .rest s _
  | fetchCheck h n =>
    cases choice with
    | next => exact .check s.connOpen (.move rfl rfl rfl) (.move rfl rfl rfl)
    | _ => exact .rest s _
  | liveLoad h =>
    cases choice with
    | next =>
      cases hc : s.cell h with
      | none =>
        simp only [advance,hc]
        exact .move rfl rfl rfl
      | some p =>
        simp only [advance,hc]
        exact .stay rfl rfl (fun q hq => .inr ⟨h,hc.trans hq⟩)
    | _ => exact .rest s _
  | liveBody h p =>
    cases choice with
    | call fn =>
      cases hfn : (kind h).inBody fn with
      | true =>
        simp only [advance,hfn,if_true]
        exact .use fn p (inBody_not_destroys hfn) rfl rfl rfl (.inl rfl)
      | false =>
        simp only [advance,hfn]
        exact .rest s _
    | next => exact .move rfl rfl rfl
    | _ => exact .rest s _
  | fetchPeek h n =>
    cases choice with
    | next =>
      cases hc : s.cell h with
      | none =>
        simp only [advance,hc]
        exact .move rfl rfl rfl
      | some p =>
        simp only [advance,hc]
        exact .move rfl rfl rfl
    | _ => exact .rest s _
  | fetchLoad h n =>
    cases choice with
    | next =>
      cases n with
      | zero => exact .move rfl rfl rfl
      | succ n =>
        cases hc : s.cell h with
        | none =>
          simp only [advance,hc]
          exact .move rfl rfl rfl
        | some p =>
          simp only [advance,hc]
          exact .stay rfl rfl (fun q hq => .inr ⟨h,hc.trans hq⟩)
    | _ => cases n <;> exact .rest s _
  | fetchStep h p n =>
    cases choice with
    | answer a =>
      cases a with
      | row => exact .use .step p rfl rfl rfl rfl (.inl rfl)
      | done | error => exact .use .step p rfl rfl rfl rfl (.inr rfl)
    | _ => exact .rest s _
  | fetchDecode h p n =>
    cases choice with
    | call fn =>
      cases fn with
      | column => exact .use .column p rfl rfl rfl rfl (.inl rfl)
      | _ => exact .rest s _
    | next => exact .move rfl rfl rfl
    | answer a =>
      cases a with
      | error => exact .move rfl rfl rfl
      | _ => exact .rest s _
    | _ => exact .rest s _
  | fetchSwap h | closeSwap h =>
    cases choice with
    | next =>
      cases hc : s.cell h with
      | none =>
        simp only [advance,hc]
        exact .move rfl rfl rfl
      | some p =>
        simp only [advance,hc]
        exact .swap h p hc rfl rfl rfl rfl
    | _ => exact .rest s _
  | fetchFinalize h p | closeFinalize h p =>
    cases choice with
    | next => exact .destroy _ h p (destroyer_destroys _) rfl rfl rfl rfl rfl
    | _ => exact .rest s _
  | connTake =>
    cases choice with
    | next => exact .takeConn rfl rfl rfl
    | _ => exact .rest s _
  | unlock h =>
    cases choice with
    | next => exact .unlock rfl rfl rfl rfl rfl
    | _ => exact .rest s _

end Places

end Xqlite.Raw

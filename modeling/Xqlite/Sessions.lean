import Xqlite.Lib.Lifecycle
import Xqlite.Lib.Runs
set_option autoImplicit false

/-! Threads acting on one connection and its sessions. A step of a thread is one lock or
unlock of the connection's mutex or of a session's, or one call into SQLite. What a
thread reads or takes under a lock it reads or takes with the step that locks. -/

namespace Xqlite.Session
open Runs Lifecycle

inductive Ffi where
  | attach | changeset | patchset | isEmpty | delete
  deriving DecidableEq, Repr

structure Call where
  fn : Ffi
  connOpen : Bool
  deriving DecidableEq, Repr

def Call.destroys (c : Call) : Bool := c.fn == .delete

variable {Tid Handle Ptr : Type}

/-- `with_session` and `with_session_mut` differ in the borrow only. A `close` is the one
of the NIF or of `Drop`. `withConn` is any other operation on the connection. -/
inductive Op (Handle : Type) where
  | withSession (h : Handle) (mutable : Bool)
  | close (h : Handle)
  | closeConnection
  | withConn
  deriving DecidableEq, Repr

/-- `failed` is an error of the closure's own. -/
inductive Outcome where
  | ok | lockError | connectionClosed | failed | panicked
  deriving DecidableEq, Repr

def Outcome.refused : Outcome → Bool
  | .lockError | .connectionClosed => true
  | _ => false

/-- Where a thread stands. In `closeSession` the flag says that the connection's lock was
not poisoned; a pointer is a local variable. -/
inductive Pc (Handle Ptr : Type) where
  | idle
  | waiting (op : Op Handle)
  | useSession (h : Handle) (mutable : Bool)
  | body (h : Handle) (mutable : Bool) (p : Ptr)
  | closeSession (h : Handle) (sound : Bool)
  | deleting (h : Handle) (p : Ptr)
  | takeConn
  | connBody
  | releaseSession (h : Handle) (op : Op Handle) (r : Outcome)
  | releaseConn (op : Op Handle) (r : Outcome)
  deriving DecidableEq, Repr

def Pc.holds : Pc Handle Ptr → Bool
  | .idle | .waiting _ => false
  | _ => true

def Pc.wants : Pc Handle Ptr → Option Handle
  | .useSession h _ | .closeSession h _ => some h
  | _ => none

/-- What the threads share under the connection's mutex: the connection, and the mutex
and content of each session. -/
structure Shared (Tid Handle Ptr : Type) where
  connOpen : Bool
  connPoisoned : Bool
  lock : Handle → Option Tid
  poisoned : Handle → Bool
  cell : Handle → Option Ptr

structure State (Tid Handle Ptr : Type) where
  mutex : Option Tid
  shared : Shared Tid Handle Ptr
  pc : Tid → Pc Handle Ptr

def State.initial (ptrs : Handle → Option Ptr) : State Tid Handle Ptr :=
  ⟨none,⟨true,false,fun _ => none,fun _ => false,ptrs⟩,fun _ => .idle⟩

/-- What is not fixed by a thread's code: the operation it starts, the calls of a closure,
and how the closure ends. -/
inductive Choice (Handle : Type) where
  | start (op : Op Handle)
  | next
  | call (fn : Ffi)
  | finish (r : Outcome)
  deriving DecidableEq, Repr

/-- What a step shows: a call into SQLite, or the return of an operation. -/
inductive Out (Tid Handle Ptr : Type) where
  | called (e : Event Tid Ptr Call)
  | returned (t : Tid) (op : Op Handle) (r : Outcome)

def Outcome.ofClosure : Outcome → Outcome
  | .panicked => .panicked
  | .ok => .ok
  | _ => .failed

def locked (sh : Shared Tid Handle Ptr) : Op Handle → Pc Handle Ptr
  | .withSession h mutable =>
      if sh.connPoisoned then .releaseConn (.withSession h mutable) .lockError
      else if sh.connOpen then .useSession h mutable
      else .releaseConn (.withSession h mutable) .connectionClosed
  | .close h => .closeSession h !sh.connPoisoned
  | .closeConnection =>
      if sh.connPoisoned then .releaseConn .closeConnection .lockError else .takeConn
  | .withConn =>
      if sh.connPoisoned then .releaseConn .withConn .lockError
      else if sh.connOpen then .connBody
      else .releaseConn .withConn .connectionClosed

section Step

variable [DecidableEq Handle]

/-- A step between the lock and the unlock of the connection, with the call it makes. A
thread that cannot move stays. -/
def advance (sh : Shared Tid Handle Ptr) (t : Tid) (pc : Pc Handle Ptr) (choice : Choice Handle) :
    Shared Tid Handle Ptr × Pc Handle Ptr × Option (Ffi × Ptr) :=
  match pc, choice with
  | .useSession h mutable, .next =>
      if (sh.lock h).isSome then (sh,pc,none)
      else
        let sh' := { sh with lock := Function.update sh.lock h (some t) }
        let op := .withSession h mutable
        if sh.poisoned h then (sh',.releaseSession h op .lockError,none)
        else match sh.cell h with
          | some p => (sh',.body h mutable p,none)
          | none => (sh',.releaseSession h op .connectionClosed,none)
  | .body _ _ p, .call fn =>
      -- A closure gets a reference, so it cannot delete the session.
      if fn = .delete then (sh,pc,none)
      else (sh,pc,some (fn,p))
  | .body h mutable _, .finish r =>
      (sh,.releaseSession h (.withSession h mutable) r.ofClosure,none)
  | .closeSession h sound, .next =>
      if (sh.lock h).isSome then (sh,pc,none)
      else
        let sh' := { sh with lock := Function.update sh.lock h (some t),
                             cell := Function.update sh.cell h none }
        match sh.cell h with
        | none => (sh',.releaseSession h (.close h) .ok,none)
        | some p =>
            if sound && sh.connOpen then (sh',.deleting h p,none)
            else (sh',.releaseSession h (.close h) .ok,none)
  | .deleting h p, .next => (sh,.releaseSession h (.close h) .ok,some (.delete,p))
  | .takeConn, .next => ({ sh with connOpen := false },.releaseConn .closeConnection .ok,none)
  | .connBody, .finish r => (sh,.releaseConn .withConn r.ofClosure,none)
  | .releaseSession h op r, .next =>
      ({ sh with lock := Function.update sh.lock h none,
                 poisoned := if r = .panicked then Function.update sh.poisoned h true
                   else sh.poisoned },.releaseConn op r,none)
  | pc, _ => (sh,pc,none)

def State.goto [DecidableEq Tid] (s : State Tid Handle Ptr) (t : Tid) (pc : Pc Handle Ptr) :
    State Tid Handle Ptr :=
  { s with pc := Function.update s.pc t pc }

def step [DecidableEq Tid] (s : State Tid Handle Ptr) (i : Tid × Choice Handle) :
    State Tid Handle Ptr × Option (Out Tid Handle Ptr) :=
  match s.pc i.1, i.2 with
  | .idle, .start op => (s.goto i.1 (.waiting op),none)
  | .idle, _ => (s,none)
  | .waiting op, .next =>
      if s.mutex.isSome then (s,none)
      else (State.goto { s with mutex := some i.1 } i.1 (locked s.shared op),none)
  | .waiting _, _ => (s,none)
  | .releaseConn op r, .next =>
      let shared := { s.shared with connPoisoned := s.shared.connPoisoned || r == .panicked }
      (State.goto { s with mutex := none, shared } i.1 .idle,some (.returned i.1 op r))
  | pc, choice =>
      let next := advance s.shared i.1 pc choice
      (State.goto { s with shared := next.1 } i.1 next.2.1,next.2.2.map fun call =>
        .called ⟨i.1,call.2,⟨call.1,s.shared.connOpen⟩,s.mutex⟩)

end Step

end Xqlite.Session

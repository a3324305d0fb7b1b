import Xqlite.Lib.Runs
import Xqlite.Terms
set_option autoImplicit false

/-! The busy slot of one connection: a retry policy and a list of observers that
share SQLite's single busy handler. Boxes are owned values here, so replacing
the slot's value is what reclaims the previous allocation. -/

namespace Xqlite.Busy

structure BusyPolicy where
  maxRetries : Nat
  maxElapsedMs : Nat
  sleepMs : Nat
  deriving DecidableEq, Repr

/-- `next_handle` is a `u64`; its increment wraps in a release build. -/
structure BusySlotState (Pid : Type) where
  policy : Option BusyPolicy
  observers : List (Nat × Pid)
  nextHandle : Nat
  start : Nat
  deriving DecidableEq, Repr

/-- What SQLite invokes on contention. The built-in handler is the one
`PRAGMA busy_timeout` installs; it carries its timeout. -/
inductive Handler where
  | none
  | builtin (timeoutMs : Nat)
  | callback
  deriving DecidableEq, Repr

structure Conn (Pid : Type) where
  slot : Option (BusySlotState Pid)
  handler : Handler
  deriving DecidableEq, Repr

/-- Result code and error text of one `sqlite3_busy_handler` call. -/
structure Rc where
  code : Int
  errmsg : Option String
  deriving DecidableEq, Repr

def Rc.success : Rc := ⟨Ffi.sqliteOk,none⟩

variable {Pid : Type}

def ffiRcToError (rc : Rc) : XqliteError :=
  .sqliteFailure rc.code (some (rc.errmsg.getD
    ("sqlite3_busy_handler failed (code " ++ toString rc.code ++ ")")))

/-- `sqlite3_busy_handler` replaces whatever is installed, timeout included. -/
def sqlite3BusyHandler (rc : Rc) (h : Handler) (c : Conn Pid) :
    Except XqliteError (Conn Pid) :=
  if rc.code = Ffi.sqliteOk then .ok { c with handler := h } else .error (ffiRcToError rc)

def installHook (state : BusySlotState Pid)
    (registerFn : Conn Pid → Except XqliteError (Conn Pid)) (c : Conn Pid) :
    Except XqliteError (Conn Pid) := do
  let c ← registerFn c
  pure { c with slot := some state }

def uninstallHook (unregisterFn : Conn Pid → Except XqliteError (Conn Pid)) (c : Conn Pid) :
    Except XqliteError (Conn Pid) := do
  let c ← unregisterFn c
  pure { c with slot := none }

def snapshot (now : Nat) (c : Conn Pid) : BusySlotState Pid :=
  match c.slot with
  | none => ⟨none,[],0,now⟩
  | some state => state

def BusySlotState.isEmpty (state : BusySlotState Pid) : Bool :=
  state.policy.isNone && state.observers.isEmpty

def swapIn (rc : Rc) (next : BusySlotState Pid) (c : Conn Pid) :
    Except XqliteError (Conn Pid) :=
  if next.isEmpty then
    uninstallHook (sqlite3BusyHandler rc .none) c
  else
    installHook next (sqlite3BusyHandler rc .callback) c

def setPolicy (rc : Rc) (now : Nat) (policy : BusyPolicy) (c : Conn Pid) :
    Except XqliteError (Conn Pid) :=
  swapIn rc { snapshot now c with policy := some policy } c

def removePolicy (rc : Rc) (now : Nat) (c : Conn Pid) : Except XqliteError (Conn Pid) :=
  swapIn rc { snapshot now c with policy := none } c

def registerObserver (rc : Rc) (now : Nat) (pid : Pid) (c : Conn Pid) :
    Except XqliteError (Conn Pid × Nat) := do
  let next := snapshot now c
  let handle := next.nextHandle
  let c ← swapIn rc
    { next with
      nextHandle := (next.nextHandle + 1) % 2^64
      observers := next.observers ++ [(handle,pid)] } c
  pure (c,handle)

def unregisterObserver (rc : Rc) (now : Nat) (handle : Nat) (c : Conn Pid) :
    Except XqliteError (Conn Pid) :=
  let next := snapshot now c
  swapIn rc { next with observers := next.observers.filter (fun o => o.1 != handle) } c

/-- `PRAGMA busy_timeout`, which goes around xqlite: SQLite installs its own
handler for a positive timeout and none otherwise. -/
def pragmaBusyTimeout (ms : Int) (c : Conn Pid) : Conn Pid :=
  { c with handler := if 0 < ms then .builtin ms.toNat else .none }

inductive Request (Pid : Type) where
  | setPolicy (policy : BusyPolicy)
  | removePolicy
  | registerObserver (pid : Pid)
  | unregisterObserver (handle : Nat)
  deriving DecidableEq, Repr

/-- A request with what the outside world adds to it: the outcome of the SQLite
call it makes, and the clock reading. -/
structure Call (Pid : Type) where
  request : Request Pid
  rc : Rc
  now : Nat
  deriving DecidableEq, Repr

inductive Reply where
  | ok
  | handle (h : Nat)
  | error (e : XqliteError)
  deriving Repr

def derive (r : Request Pid) (state : BusySlotState Pid) : BusySlotState Pid :=
  match r with
  | .setPolicy policy => { state with policy := some policy }
  | .removePolicy => { state with policy := none }
  | .registerObserver pid =>
      { state with
        nextHandle := (state.nextHandle + 1) % 2^64
        observers := state.observers ++ [(state.nextHandle,pid)] }
  | .unregisterObserver handle =>
      { state with observers := state.observers.filter (fun o => o.1 != handle) }

/-- One call on the connection. A failed call leaves the connection as it was. -/
def step (c : Conn Pid) (call : Call Pid) : Conn Pid × Reply :=
  match call.request with
  | .setPolicy policy =>
      match setPolicy call.rc call.now policy c with
      | .ok c' => (c',.ok)
      | .error e => (c,.error e)
  | .removePolicy =>
      match removePolicy call.rc call.now c with
      | .ok c' => (c',.ok)
      | .error e => (c,.error e)
  | .registerObserver pid =>
      match registerObserver call.rc call.now pid c with
      | .ok (c',h) => (c',.handle h)
      | .error e => (c,.error e)
  | .unregisterObserver handle =>
      match unregisterObserver call.rc call.now handle c with
      | .ok c' => (c',.ok)
      | .error e => (c,.error e)

/-- The connection after a successful call: an empty state clears both halves,
any other state is installed behind xqlite's callback. -/
def settle (state : BusySlotState Pid) : Conn Pid :=
  if state.isEmpty then ⟨none,.none⟩ else ⟨some state,.callback⟩

def answer (r : Request Pid) (state : BusySlotState Pid) : Reply :=
  match r with
  | .registerObserver _ => .handle state.nextHandle
  | _ => .ok

theorem swapIn_eq (rc : Rc) (next : BusySlotState Pid) (c : Conn Pid) :
    swapIn rc next c =
      if rc.code = Ffi.sqliteOk then .ok (settle next) else .error (ffiRcToError rc) := by
  by_cases hrc : rc.code = Ffi.sqliteOk
  · cases he : next.isEmpty <;>
      simp [swapIn,settle,installHook,uninstallHook,sqlite3BusyHandler,hrc,he]
  · cases he : next.isEmpty <;>
      simp [swapIn,installHook,uninstallHook,sqlite3BusyHandler,hrc,he]

/-- All four requests have one shape: derive a state from the snapshot and swap
it in. Everything below reasons from this equation. -/
theorem step_eq (c : Conn Pid) (call : Call Pid) :
    step c call =
      if call.rc.code = Ffi.sqliteOk then
        (settle (derive call.request (snapshot call.now c)),
          answer call.request (snapshot call.now c))
      else (c,.error (ffiRcToError call.rc)) := by
  by_cases hrc : call.rc.code = Ffi.sqliteOk
  · cases hr : call.request <;>
      simp [step,hr,setPolicy,removePolicy,registerObserver,unregisterObserver,
        swapIn_eq,hrc,derive,answer,bind,Except.bind,pure,Except.pure]
  · cases hr : call.request <;>
      simp [step,hr,setPolicy,removePolicy,registerObserver,unregisterObserver,
        swapIn_eq,hrc,bind,Except.bind]

theorem step_of_success (c : Conn Pid) {call : Call Pid}
    (hrc : call.rc.code = Ffi.sqliteOk) :
    (step c call).1 = settle (derive call.request (snapshot call.now c)) := by
  rw [step_eq,if_pos hrc]

theorem step_of_failure (c : Conn Pid) {call : Call Pid}
    (hrc : call.rc.code ≠ Ffi.sqliteOk) : (step c call).1 = c := by
  rw [step_eq,if_neg hrc]

end Xqlite.Busy

import Mathlib.Order.BooleanAlgebra.Set
import Xqlite.Lib.LockOrder
set_option autoImplicit false

/-! The locks of the library: a mutex around each connection, one around each session, and
`MASTER_LOCK`, which SQLite's log callback takes in the middle of whatever SQLite is doing.
Each call is written down with its branches as far as they decide what is locked. -/

namespace Xqlite.Locks
open LockOrder Runs

inductive Lock where
  | conn (c : Nat)
  | session (s : Nat)
  | master
  deriving DecidableEq, Repr

/-- Connection first, then session; the log callback may come inside both. -/
def Lock.rank : Lock → Nat
  | .conn _ => 0
  | .session _ => 1
  | .master => 2

/-- What the branches of the calls look at. A handle is live until its raw pointer is taken. -/
structure Shared where
  poisoned : Lock → Bool
  isOpen : Nat → Bool
  live : Nat → Bool
  session : Nat → Bool
  masterInstalled : Bool

abbrev Code := Prog Lock Shared

def ask (test : Shared → Bool) (k : Bool → Code) : Code := .act (fun _ s => (s,test s)) k

def update (f : Shared → Shared) (k : Code) : Code := .act (fun _ s => (f s,true)) (fun _ => k)

/-- Decided by SQLite, by the caller's terms or by a panic. -/
def choose (k : Bool → Code) : Code := .act (fun b s => (s,b)) k

def Shared.poison (l : Lock) (s : Shared) : Shared :=
  { s with poisoned := Function.update s.poisoned l true }

/-- A guard that is dropped by a panic poisons its mutex. -/
def unlock (l : Lock) (unwinding : Bool) (k : Code) : Code :=
  if unwinding then update (Shared.poison l) (.release l k) else .release l k

/-- A poisoned lock is taken all the same; a panic does not leave the callback. -/
def logCallback (k : Code) : Code :=
  .acquire .master <| choose fun unwinding => unlock .master unwinding k

/-- SQLite at work, with that many events for its log. -/
def sqlite : Nat → Code → Code
  | 0, k => k
  | n + 1, k => ask (·.masterInstalled) fun installed =>
      if installed then logCallback (sqlite n k) else sqlite n k

def withConn (c : Nat) (func : (Bool → Code) → Code) : Code :=
  .acquire (.conn c) <| ask (·.poisoned (.conn c)) fun poisoned =>
    if poisoned then .release (.conn c) .ret
    else ask (·.isOpen c) fun isOpen =>
      if isOpen then func fun unwinding => unlock (.conn c) unwinding .ret
      else .release (.conn c) .ret

def body (events : Nat) (k : Bool → Code) : Code := sqlite events (choose k)

def closeConnection (c events : Nat) : Code :=
  .acquire (.conn c) <| ask (·.poisoned (.conn c)) fun poisoned =>
    if poisoned then .release (.conn c) .ret
    else .act (fun _ s => ({ s with isOpen := Function.update s.isOpen c false },s.isOpen c))
      fun isOpen =>
        if isOpen then sqlite events (.release (.conn c) .ret) else .release (.conn c) .ret

def withLive (c r events : Nat) : Code :=
  withConn c fun leave => ask (·.live r) fun live =>
    if live then body events leave else leave false

def swapNull (r : Nat) (k : Bool → Code) : Code :=
  .act (fun _ s => ({ s with live := Function.update s.live r false },s.live r)) k

/-- `take_and_finalize_raw` and the `close` of a blob, also when they are dropped. -/
def takeAndFinalizeRaw (c r events : Nat) : Code :=
  swapNull r fun old =>
    if old then
      .acquire (.conn c) <| ask (·.poisoned (.conn c)) fun poisoned =>
        if poisoned then .release (.conn c) .ret else sqlite events (.release (.conn c) .ret)
    else .ret

def streamFetch (c r events ending : Nat) : Code :=
  ask (·.live r) fun live =>
    if live then
      .acquire (.conn c) <| ask (·.poisoned (.conn c)) fun poisoned =>
        if poisoned then
          -- the guard is still there, inside the error
          swapNull r fun old =>
            if old then sqlite ending (.release (.conn c) .ret) else .release (.conn c) .ret
        else ask (·.isOpen c) fun isOpen =>
          if isOpen then
            sqlite events <| choose fun exhausted =>
              if exhausted then swapNull r fun old =>
                if old then body ending fun unwinding => unlock (.conn c) unwinding .ret
                else .release (.conn c) .ret
              else choose fun unwinding => unlock (.conn c) unwinding .ret
          else .release (.conn c) .ret
    else .ret

def withSession (c s events : Nat) : Code :=
  .acquire (.conn c) <| ask (·.poisoned (.conn c)) fun poisoned =>
    if poisoned then .release (.conn c) .ret
    else ask (·.isOpen c) fun isOpen =>
      if isOpen then
        .acquire (.session s) <| ask (·.poisoned (.session s)) fun poisoned =>
          if poisoned then .release (.session s) (.release (.conn c) .ret)
          else ask (·.session s) fun present =>
            if present then body events fun unwinding =>
              unlock (.session s) unwinding (unlock (.conn c) unwinding .ret)
            else .release (.session s) (.release (.conn c) .ret)
      else .release (.conn c) .ret

/-- `session::close`: the session is deleted only under an open, unpoisoned connection. -/
def sessionClose (c s events : Nat) : Code :=
  .acquire (.conn c) <| ask (·.poisoned (.conn c)) fun poisoned =>
    .acquire (.session s) <|
      .act (fun _ t => ({ t with session := Function.update t.session s false },t.session s))
        fun present =>
          if present && !poisoned then ask (·.isOpen c) fun isOpen =>
            if isOpen then sqlite events (.release (.session s) (.release (.conn c) .ret))
            else .release (.session s) (.release (.conn c) .ret)
          else .release (.session s) (.release (.conn c) .ret)

/-- `sqlite3_config` writes to the log only where it refuses, before any callback is in place. -/
def registerLogHook : Code :=
  .acquire .master <| ask (·.poisoned .master) fun poisoned =>
    if poisoned then .release .master .ret
    else ask (·.masterInstalled) fun installed =>
      if installed then .release .master .ret
      else choose fun configured =>
        if configured then update ({ · with masterInstalled := true }) (.release .master .ret)
        else .release .master .ret

def unregisterLogHook : Code :=
  .acquire .master <| ask (·.poisoned .master) fun _ => .release .master .ret

/-- SQLite opens the database before there is a mutex; the callbacks are put in under it. -/
def openConn (c events : Nat) : Code :=
  sqlite events <| choose fun opened =>
    if opened then
      update (fun s => { s with isOpen := Function.update s.isOpen c true }) <|
        withConn c (body 0)
    else .ret

/-- Without any reference left to the connection, SQLite closes it and no lock is taken. -/
def dropConn (c events : Nat) : Code :=
  update (fun s => { s with isOpen := Function.update s.isOpen c false }) (sqlite events .ret)

inductive Nif where
  | openConn (c events : Nat)
  | withConn (c events : Nat)
  | close (c events : Nat)
  | withLive (c r events : Nat)
  | finalize (c r events : Nat)
  | streamFetch (c r events ending : Nat)
  | withSession (c s events : Nat)
  | sessionClose (c s events : Nat)
  | registerLogHook
  | unregisterLogHook
  | dropConn (c events : Nat)

def Nif.code : Nif → Code
  | .openConn c events => Locks.openConn c events
  | .withConn c events => Locks.withConn c (body events)
  | .close c events => closeConnection c events
  | .withLive c r events => Locks.withLive c r events
  | .finalize c r events => takeAndFinalizeRaw c r events
  | .streamFetch c r events ending => Locks.streamFetch c r events ending
  | .withSession c s events => Locks.withSession c s events
  | .sessionClose c s events => Locks.sessionClose c s events
  | .registerLogHook => Locks.registerLogHook
  | .unregisterLogHook => Locks.unregisterLogHook
  | .dropConn c events => Locks.dropConn c events

section Ordered
variable {held : Set Lock} {k : Code} {l : Lock}

abbrev Fits (held : Set Lock) (k : Code) : Prop := Ordered Lock.rank held k

theorem fits_act {f : Bool → Shared → Shared × Bool} {k : Bool → Code}
    (h : ∀ b, Fits held (k b)) : Fits held (.act f k) := h

theorem fits_ite {b : Bool} {k k' : Code} (h : Fits held k) (h' : Fits held k') :
    Fits held (if b then k else k') := by
  cases b
  · exact h'
  · exact h

theorem fits_unlock {unwinding : Bool} (hl : l ∈ held) (hk : Fits (held \ {l}) k) :
    Fits held (unlock l unwinding k) := by
  cases unwinding
  · exact ⟨hl,hk⟩
  · exact fun _ => ⟨hl,hk⟩

theorem fits_logCallback (hheld : ∀ l ∈ held, l.rank < 2) (hk : Fits held k) :
    Fits held (logCallback k) := by
  have hmaster : Lock.master ∉ held := fun hmem => absurd (hheld _ hmem) (by decide)
  refine ⟨hheld,fun unwinding => fits_unlock (Set.mem_insert _ _) ?_⟩
  rw [Set.insert_sdiff_self_of_notMem hmaster]
  exact hk

theorem fits_sqlite (hheld : ∀ l ∈ held, l.rank < 2) (hk : Fits held k) (events : Nat) :
    Fits held (sqlite events k) := by
  induction events with
  | zero => exact hk
  | succ n ih => exact fits_act fun installed => fits_ite (fits_logCallback hheld ih) ih

theorem fits_ret : Fits ∅ .ret := rfl

theorem fits_sqlite_free (hk : Fits ∅ k) (events : Nat) : Fits ∅ (sqlite events k) :=
  fits_sqlite (by simp) hk events

section Conn
variable {c : Nat}

theorem fits_release (c : Nat) : Fits {.conn c} (.release (.conn c) .ret) :=
  ⟨rfl,sdiff_self⟩

theorem fits_leave (unwinding : Bool) : Fits {.conn c} (unlock (.conn c) unwinding .ret) :=
  fits_unlock rfl sdiff_self

theorem rank_conn : ∀ l ∈ ({.conn c} : Set Lock), l.rank < 2 := by
  rintro l rfl
  exact Nat.zero_lt_two

theorem fits_body (events : Nat) :
    Fits {.conn c} (body events fun unwinding => unlock (.conn c) unwinding .ret) :=
  fits_sqlite rank_conn (fits_act fits_leave) events

theorem fits_lock {k : Bool → Code} (hk : ∀ poisoned, Fits {.conn c} (k poisoned)) :
    Fits ∅ (.acquire (.conn c) (ask (·.poisoned (.conn c)) k)) := by
  refine ⟨nofun,?_⟩
  rw [insert_empty_eq]
  exact fits_act hk

theorem fits_withConn {func : (Bool → Code) → Code}
    (h : Fits {.conn c} (func fun unwinding => unlock (.conn c) unwinding .ret)) :
    Fits ∅ (withConn c func) :=
  fits_lock fun _ => fits_ite (fits_release c)
    (fits_act fun _ => fits_ite h (fits_release c))

theorem fits_closeConnection (events : Nat) : Fits ∅ (closeConnection c events) :=
  fits_lock fun _ => fits_ite (fits_release c)
    (fits_act fun _ => fits_ite (fits_sqlite rank_conn (fits_release c) events) (fits_release c))

theorem fits_withLive (r events : Nat) : Fits ∅ (withLive c r events) :=
  fits_withConn (fits_act fun _ => fits_ite (fits_body events) (fits_leave false))

theorem fits_takeAndFinalizeRaw (r events : Nat) : Fits ∅ (takeAndFinalizeRaw c r events) := by
  refine fits_act fun _ => fits_ite (fits_lock fun _ => fits_ite (fits_release c) ?_) fits_ret
  exact fits_sqlite rank_conn (fits_release c) events

theorem fits_streamFetch (r events ending : Nat) : Fits ∅ (streamFetch c r events ending) := by
  refine fits_act fun _ => fits_ite (fits_lock fun _ => fits_ite ?_ ?_) fits_ret
  · -- the lock is poisoned
    exact fits_act fun _ =>
      fits_ite (fits_sqlite rank_conn (fits_release c) ending) (fits_release c)
  · refine fits_act fun _ => fits_ite (fits_sqlite rank_conn ?_ events) (fits_release c)
    refine fits_act fun _ => fits_ite ?_ (fits_act fits_leave)
    exact fits_act fun _ => fits_ite (fits_body ending) (fits_release c)

end Conn

section Session
variable {c s : Nat}

theorem rank_both : ∀ l ∈ ({.session s,.conn c} : Set Lock), l.rank < 2 := by
  rintro l (rfl | rfl)
  · exact Nat.one_lt_two
  · exact Nat.zero_lt_two

theorem diff_session : ({.session s,.conn c} \ {.session s} : Set Lock) = {.conn c} :=
  Set.insert_sdiff_self_of_notMem (by simp)

theorem fits_release_both (c s : Nat) :
    Fits {.session s,.conn c} (.release (.session s) (.release (.conn c) .ret)) := by
  refine ⟨Set.mem_insert _ _,?_⟩
  rw [diff_session]
  exact fits_release c

theorem fits_leave_both (unwinding : Bool) : Fits {.session s,.conn c}
    (unlock (.session s) unwinding (unlock (.conn c) unwinding .ret)) := by
  refine fits_unlock (Set.mem_insert _ _) ?_
  rw [diff_session]
  exact fits_leave unwinding

theorem fits_lock_session {f : Bool → Shared → Shared × Bool} {k : Bool → Code}
    (hk : ∀ b, Fits {.session s,.conn c} (k b)) :
    Fits {.conn c} (.acquire (.session s) (.act f k)) := by
  refine ⟨?_,fits_act hk⟩
  rintro l rfl
  exact Nat.zero_lt_one

theorem fits_withSession (events : Nat) : Fits ∅ (withSession c s events) := by
  refine fits_lock fun _ => fits_ite (fits_release c)
    (fits_act fun _ => fits_ite (fits_lock_session fun _ => ?_) (fits_release c))
  refine fits_ite (fits_release_both c s) (fits_act fun _ => fits_ite ?_ (fits_release_both c s))
  exact fits_sqlite rank_both (fits_act fits_leave_both) events

theorem fits_sessionClose (events : Nat) : Fits ∅ (sessionClose c s events) := by
  refine fits_lock fun _ => fits_lock_session fun _ =>
    fits_ite (fits_act fun _ => fits_ite ?_ (fits_release_both c s)) (fits_release_both c s)
  exact fits_sqlite rank_both (fits_release_both c s) events

end Session

theorem fits_master {f : Bool → Shared → Shared × Bool} {k : Bool → Code}
    (hk : ∀ b, Fits {.master} (k b)) : Fits ∅ (.acquire .master (.act f k)) := by
  refine ⟨nofun,?_⟩
  rw [insert_empty_eq]
  exact fits_act hk

theorem fits_release_master : Fits {.master} (.release .master .ret) := ⟨rfl,sdiff_self⟩

theorem fits_registerLogHook : Fits ∅ registerLogHook := by
  refine fits_master fun _ => fits_ite fits_release_master
    (fits_act fun _ => fits_ite fits_release_master (fits_act fun _ => fits_ite ?_ ?_))
  · exact fits_act fun _ => fits_release_master
  · exact fits_release_master

/-- No call asks for a lock that comes before one it has. -/
theorem fits_code (nif : Nif) : Fits ∅ nif.code := by
  cases nif with
  | openConn c events =>
    refine fits_sqlite_free (fits_act fun _ => fits_ite (fits_act fun _ => ?_) fits_ret) events
    exact fits_withConn (fits_body 0)
  | withConn c events => exact fits_withConn (fits_body events)
  | close c events => exact fits_closeConnection events
  | withLive c r events => exact fits_withLive r events
  | finalize c r events => exact fits_takeAndFinalizeRaw r events
  | streamFetch c r events ending => exact fits_streamFetch r events ending
  | withSession c s events => exact fits_withSession events
  | sessionClose c s events => exact fits_sessionClose events
  | registerLogHook => exact fits_registerLogHook
  | unregisterLogHook => exact fits_master fun _ => fits_release_master
  | dropConn c events => exact fits_act fun _ => fits_sqlite_free fits_ret events

end Ordered

inductive Event where
  | call (nif : Nif)
  | next (i : Nat) (choice : Bool)

def happens (s : State Lock Shared) : Event → State Lock Shared × Unit
  | .call nif => step s (.call nif.code)
  | .next i choice => step s (.next i choice)

def initial (shared : Shared) : State Lock Shared := ⟨shared,fun _ => none,[]⟩

def reached (shared : Shared) (events : List Event) : State Lock Shared :=
  (run happens (initial shared) events).1

theorem rank_lt (l : Lock) : l.rank < 3 := by
  cases l <;> simp [Lock.rank]

theorem inv_happens {s : State Lock Shared} (h : Inv Lock.rank s) (event : Event) :
    Inv Lock.rank (happens s event).1 := by
  cases event with
  | call nif => exact inv_step h (fits_code nif)
  | next i choice => exact inv_step h trivial

theorem inv_reached (shared : Shared) (events : List Event) :
    Inv Lock.rank (reached shared events) := by
  have hinit : Inv Lock.rank (initial shared) := by
    intro i
    simp [State.prog,State.held,initial,Ordered]
  exact run_inv_total happens (I := Inv Lock.rank) (fun _ event h => inv_happens h event) events hinit

/-- Whatever calls are under way on whatever connections and sessions, and wherever SQLite
writes to its log or a call panics: some call can go on as long as one has not returned, and
without new calls all of them return, after a bounded number of steps, and leave every lock
free. -/
theorem calls_return (shared : Shared) (events : List Event) (ms : List (Nat × Bool))
    (hms : Going (reached shared events) ms) :
    ms.length ≤ (reached shared events).work ∧
      ((∃ i, (go (reached shared events) ms).Ready i) ∨
        (go (reached shared events) ms).Returned ∧
          ∀ l, (go (reached shared events) ms).owner l = none) := by
  have hinv := inv_reached shared events
  have hlength := length_add_work hms
  exact ⟨by omega,ready_or_returned rank_lt (inv_go hinv ms)⟩

def allOpen : Shared :=
  { poisoned := fun _ => false, isOpen := fun _ => true, live := fun _ => true
    session := fun _ => true, masterInstalled := true }

/-- A session is deleted while another call waits for the connection, and SQLite logs. -/
theorem calls_return_two :
    ∃ i, (go (reached allOpen [.call (.sessionClose 0 0 1),.call (.withConn 0 0)])
      [(0,true),(0,true),(0,true),(0,true),(0,true)]).Ready i := by
  obtain h | h := (calls_return allOpen [.call (.sessionClose 0 0 1),.call (.withConn 0 0)]
    [(0,true),(0,true),(0,true),(0,true),(0,true)]
    ⟨rfl,trivial,rfl,trivial,trivial,trivial⟩).2
  · exact h
  · exact absurd (h.2 (.conn 0)) (by decide)

end Xqlite.Locks

import Xqlite.HookList
import Xqlite.Terms
set_option autoImplicit false

namespace Xqlite.Progress
open Runs Hook

/-- `count` is the address of the subscriber's counter: a clone of the subscriber
shares the counter with the original. -/
structure TickSubscriber where
  pid : Nat
  everyN : Nat
  tagBytes : Option (List UInt8)
  count : Nat
  installInstant : Nat
  deriving DecidableEq, Repr

structure ProgressDispatch (Token : Type) where
  cancels : HookList Token
  ticks : HookList TickSubscriber
  deriving DecidableEq, Repr

def ProgressDispatch.new {Token : Type} : ProgressDispatch Token := ⟨.new,.new⟩

def asI64 (n : Nat) : Int := if n < 2^63 then n else n - 2^64

/-- `{:xqlite_progress, tag, count, elapsed_ms}`, without the tag when there is none. -/
structure TickMessage where
  tag : Option (List UInt8)
  count : Int
  elapsedMs : Int
  deriving DecidableEq, Repr

abbrev Sent := TickSubscriber × TickMessage

def sendTickToPid (s : TickSubscriber) (count elapsedMs : Nat) : Sent :=
  (s,⟨s.tagBytes,asI64 count,asI64 elapsedMs⟩)

variable {Token : Type}

/-- Every flag is loaded, also after one was found set. -/
def cancelPass (signalled : Token → Bool) (cancels : HookList Token) : Bool :=
  forEachSnapshot cancels (fun shouldInterrupt entry =>
    if signalled entry.state then true else shouldInterrupt) false

/-- The counters are the heap of `AtomicU64`s, by address; `fetch_add` wraps. -/
def tick (now : TickSubscriber → Nat) (acc : (Nat → Nat) × List Sent) (s : TickSubscriber) :
    (Nat → Nat) × List Sent :=
  let n := acc.1 s.count
  let counters := Function.update acc.1 s.count ((n + 1) % 2^64)
  if n % s.everyN = 0 then
    (counters,acc.2 ++ [sendTickToPid s n ((now s - s.installInstant) % 2^64)])
  else (counters,acc.2)

def tickPass (now : TickSubscriber → Nat) (counters : Nat → Nat) (ticks : HookList TickSubscriber) :
    (Nat → Nat) × List Sent :=
  if isEmpty ticks then (counters,[])
  else forEachSnapshot ticks (fun acc entry => tick now acc entry.state) (counters,[])

/-- `signalled` is the flag behind each token, `nextAddr` the next free address. -/
structure Conn (Token : Type) where
  dispatch : ProgressDispatch Token
  signalled : Token → Bool
  counters : Nat → Nat
  nextAddr : Nat

def Conn.opened (signalled : Token → Bool) : Conn Token := ⟨.new,signalled,fun _ => 0,0⟩

/-- The answer is the code that SQLite sees; `1` interrupts the statement. `now` is
the clock as it is read for each subscriber. -/
def progressDispatchCallback (now : TickSubscriber → Nat) (c : Conn Token) :
    Conn Token × Nat × List Sent :=
  if cancelPass c.signalled c.dispatch.cancels then (c,1,[])
  else
    let (counters,sent) := tickPass now c.counters c.dispatch.ticks
    ({ c with counters },0,sent)

inductive Request (Token : Type) where
  | registerProgressHook (pid everyN : Nat) (tag : Option (List UInt8)) (now : Nat)
  | unregisterProgressHook (id : Nat)
  | registerCancel (token : Token)
  | unregisterCancel (id : Nat)
  | cancel (token : Token)
  | callback (now : TickSubscriber → Nat)

inductive Response where
  | ok
  | handle (id : Nat)
  | cannotExecute (message : String)
  | returned (code : Nat) (sent : List Sent)
  deriving DecidableEq, Repr

def TickSubscriber.new (pid everyN : Nat) (tagBytes : Option (List UInt8)) (count now : Nat) :
    TickSubscriber := ⟨pid,everyN,tagBytes,count,now⟩

/-- A tick subscriber comes with a fresh counter at zero. -/
def registerProgressHook (c : Conn Token) (pid everyN : Nat) (tag : Option (List UInt8))
    (now : Nat) : Conn Token × Response :=
  if everyN = 0 then (c,.cannotExecute "register_progress_hook: every_n must be >= 1")
  else
    let subscriber := TickSubscriber.new pid everyN tag c.nextAddr now
    let (ticks,id) := register c.dispatch.ticks subscriber
    (⟨⟨c.dispatch.cancels,ticks⟩,c.signalled,Function.update c.counters c.nextAddr 0,c.nextAddr+1⟩,
      .handle id)

def step [DecidableEq Token] (c : Conn Token) : Request Token → Conn Token × Response
  | .registerProgressHook pid everyN tag now => registerProgressHook c pid everyN tag now
  | .unregisterProgressHook id =>
      ({ c with dispatch.ticks := (unregister c.dispatch.ticks id).1 },.ok)
  | .registerCancel token =>
      ({ c with dispatch.cancels := (register c.dispatch.cancels token).1 },
        .handle (register c.dispatch.cancels token).2)
  | .unregisterCancel id =>
      ({ c with dispatch.cancels := (unregister c.dispatch.cancels id).1 },.ok)
  | .cancel token => ({ c with signalled := Function.update c.signalled token true },.ok)
  | .callback now =>
      let (c',code,sent) := progressDispatchCallback now c
      (c',.returned code sent)

theorem foldl_signalled (signalled : Token → Bool) (l : List (HookEntry Token)) (b : Bool) :
    l.foldl (fun shouldInterrupt entry =>
      if signalled entry.state then true else shouldInterrupt) b =
      (b || l.any fun e => signalled e.state) := by
  induction l generalizing b with
  | nil => simp
  | cons e l ih =>
    rw [List.foldl_cons,ih]
    cases h : signalled e.state <;> simp [h]

theorem cancelPass_eq (signalled : Token → Bool) (cancels : HookList Token) :
    cancelPass signalled cancels = cancels.entries.any fun e => signalled e.state := by
  rw [cancelPass,forEachSnapshot_eq,foldl_signalled,Bool.false_or]

end Xqlite.Progress

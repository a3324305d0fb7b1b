import Xqlite.Lib.Runs
import Xqlite.Pragma
set_option autoImplicit false

/-! SQLite's one `wal_hook` slot on a connection. xqlite's callback is put there
when the connection is opened; a `wal_autocheckpoint` pragma puts SQLite's own hook
in its place, and `set_pragma` takes the slot back. -/

namespace Xqlite.Wal
open Runs Pragma

inductive Slot where
  | xqlite
  | sqlite (pages : Int)
  | empty
  deriving DecidableEq, Repr

structure Conn (Pid : Type) where
  slot : Slot
  autocheckpointPages : Int
  entries : List (Nat × Pid)
  nextId : Nat
  deriving DecidableEq, Repr

def defaultWalAutocheckpointPages : Int := 1000

def Conn.opened {Pid : Type} : Conn Pid := ⟨.xqlite,defaultWalAutocheckpointPages,[],1⟩

inductive SetResult where
  | prepareFailed (reason : String)
  | denied (e : XqliteError)
  | failed (e : XqliteError)
  | noRow
  | row (value : Value)

inductive ReadResult where
  | failed (reason : String)
  | denied (e : XqliteError)
  | noRow
  | row (value : Value)

/-- What SQLite does with the text it is given: the thresholds taken by the
`wal_autocheckpoint` statements it ran, and what it answers to a prepared set, a
batch, or a read. -/
structure Answer where
  taken : List Int
  set : SetResult
  batch : Option XqliteError
  read : ReadResult

inductive Call (Pid : Type) where
  | setPragma (name : String) (value : Term) (a : Answer)
  | getPragma (name : String) (a : Answer)
  | put (key : Key) (value : Term) (dbName : Option String) (a : Answer)
  | registerWalHook (pid : Pid)
  | unregisterWalHook (id : Nat)
  | commit (dbName : String) (pages : Int)

inductive Reply (Pid : Type) where
  | ok (term : Term)
  | error (e : XqliteError)
  | invalidPragmaName (key : String)
  | invalidPragmaValue (pragma : String) (value : Term)
  | raised
  | handle (id : Nat)
  | unregistered
  | committed (messages : List (Pid × String × Int)) (checkpoint : Bool)

/-- `PRAGMA wal_autocheckpoint = pages` inside SQLite. -/
def takeThreshold (_ : Slot) (pages : Int) : Slot :=
  if 0 < pages then .sqlite pages else .empty

variable {Pid : Type}

def Conn.evicted (c : Conn Pid) (taken : List Int) : Conn Pid :=
  { c with slot := taken.foldl takeThreshold c.slot }

def clampI32 (pages : Int) : Int := max (-2147483648) (min 2147483647 pages)

def Conn.storePages (c : Conn Pid) (result : Term) : Conn Pid :=
  match result.decodeI64 with
  | some pages => { c with autocheckpointPages := clampI32 pages }
  | none => c

def installCallback (c : Conn Pid) : Conn Pid := { c with slot := .xqlite }

/-- The repair after a successful set, keyed on the exact name. -/
def repair (c : Conn Pid) (name : String) (result : Term) : Conn Pid :=
  if name = walAutocheckpoint then installCallback (c.storePages result) else c

def setPragma (c : Conn Pid) (name : String) (value : Term) (a : Answer) : Conn Pid × Reply Pid :=
  match validateName name, formatTermForPragma value with
  | .error e, _ => (c,.error e)
  | .ok (), .error e => (c,.error e)
  | .ok (), .ok _ =>
    match a.set with
    | .prepareFailed reason =>
        (c.evicted a.taken,.error (.cannotExecutePragma name (some value) reason))
    | .denied e => (c.evicted a.taken,.error e)
    | .failed e => (c.evicted a.taken,.error e)
    | .noRow => (repair (c.evicted a.taken) name (.atom "nil"),.ok (.atom "nil"))
    | .row v => (repair (c.evicted a.taken) name (encodeVal v),.ok (encodeVal v))

def getPragma (c : Conn Pid) (name : String) (a : Answer) : Reply Pid :=
  if name = walAutocheckpoint then .ok (.int c.autocheckpointPages)
  else
    match validateName name with
    | .error e => .error e
    | .ok () =>
      match a.read with
      | .row v => .ok (encodeVal v)
      | .noRow => .ok (.atom "no_value")
      | .failed reason => .error (.cannotExecutePragma name none reason)
      | .denied e => .error e

def doPut (c : Conn Pid) (key : String) (value : Term) (dbName : Option String) (a : Answer) :
    Conn Pid × Reply Pid :=
  if validPragmaValue (schema.lookup key) value then
    match dbName with
    | none => setPragma c key value a
    | some _ =>
      if formatsPragmaValue value then
        match a.batch with
        | none => (c.evicted a.taken,.ok (.atom "nil"))
        | some e => (c.evicted a.taken,.error e)
      else (c,.raised)
  else (c,.invalidPragmaValue key value)

def put (c : Conn Pid) (key : Key) (value : Term) (dbName : Option String) (a : Answer) :
    Conn Pid × Reply Pid :=
  match key, key.resolve with
  | _, some name => doPut c name value dbName a
  | .atom name, none | .string name, none => (c,.invalidPragmaName name)

def registerWalHook (c : Conn Pid) (pid : Pid) : Conn Pid × Reply Pid :=
  ({ c with entries := c.entries ++ [(c.nextId,pid)], nextId := (c.nextId + 1) % 2^64 },
    .handle c.nextId)

def unregisterWalHook (c : Conn Pid) (id : Nat) : Conn Pid × Reply Pid :=
  ({ c with entries := c.entries.filter (fun e => e.1 ≠ id) },.unregistered)

/-- xqlite's callback tells every subscriber and checkpoints at the threshold;
SQLite's own hook only checkpoints. -/
def commit (c : Conn Pid) (dbName : String) (pages : Int) : Reply Pid :=
  match c.slot with
  | .xqlite =>
      .committed (c.entries.map (fun e => (e.2,dbName,pages)))
        (0 < c.autocheckpointPages && c.autocheckpointPages ≤ pages)
  | .sqlite threshold => .committed [] (threshold ≤ pages)
  | .empty => .committed [] false

def step (c : Conn Pid) : Call Pid → Conn Pid × Reply Pid
  | .setPragma name value a => setPragma c name value a
  | .getPragma name a => (c,getPragma c name a)
  | .put key value dbName a => put c key value dbName a
  | .registerWalHook pid => registerWalHook c pid
  | .unregisterWalHook id => unregisterWalHook c id
  | .commit dbName pages => (c,commit c dbName pages)

end Xqlite.Wal

import Xqlite.BusySlot
import Xqlite.ProgressDispatch
import Xqlite.Lib.Logged
set_option autoImplicit false

/-! `Xqlite.Telemetry.Bridge`: a forwarder process is started, subscribed to each listed
hook in turn, and handed to the caller with its handles. -/

namespace Xqlite.Telemetry

inductive Plain where
  | wal | commit | rollback | update | log
  deriving DecidableEq, Repr

inductive HookKind where
  | plain (p : Plain)
  | progress
  | busy
  deriving DecidableEq, Repr

inductive HookName where
  | kind (k : HookKind)
  | all
  | other (t : Term)

/-- Neither `:all` nor a list has no clause in `expand_hooks`. -/
inductive HooksOption where
  | all
  | list (hooks : List HookName)
  | other (t : Term)

structure World (Token : Type) where
  connOpen : Bool
  lists : Plain → Hook.HookList Nat
  progress : Progress.Conn Token
  busy : Busy.Conn Nat
  masterInstalled : Bool
  forwarders : List Nat
  nextPid : Nat

/-- What the outside adds: the build's switch, the clock, how `sqlite3_busy_handler`
answers on this connection, why the log hook's lock is poisoned and why `sqlite3_config`
refuses, if they are. -/
structure Env (Token : Type) where
  telemetryEnabled : Bool
  now : World Token → Nat
  busyRc : Busy.Rc
  lockError : Option String
  configError : Option String

/-- The scope is `:log` for the one that holds the log handle. -/
structure Bridge where
  pid : Nat
  tag : Term
  hookHandles : List (HookKind × Nat)

inductive BridgeError where
  | telemetryDisabled
  | invalidHook (bad : HookName)
  | native (e : XqliteError)

def perConnHooks : List HookName :=
  [.kind (.plain .wal),.kind (.plain .commit),.kind (.plain .rollback),.kind (.plain .update),
    .kind .progress,.kind .busy]

def HookName.valid : HookName → Bool
  | .kind (.plain .log) => false
  | .kind _ => true
  | .all => true
  | .other _ => false

def expandHooks : HooksOption → Option (List HookName)
  | .all => some perConnHooks
  | .list hooks => some hooks
  | .other _ => none

def validateHooks (hooks : List HookName) : Except BridgeError Unit :=
  match hooks.find? (fun h => !h.valid) with
  -- `Enum.find` answers `nil` for a `nil` it finds as well
  | none | some (.other (.atom "nil")) => .ok ()
  | some bad => .error (.invalidHook bad)

/-- `:lists.keyfind(key, 1, items)`: what stands behind the key in its tuple. -/
def keyfind (key : String) : List Term → Option (List Term)
  | [] => none
  | .tuple (.atom k :: rest) :: items => if k = key then some rest else keyfind key items
  | _ :: items => keyfind key items

/-- `Keyword.get`; `none` where it raises. -/
def keywordGet (key : String) (default : Term) : Term → Option Term
  | .list items =>
    match keyfind key items with
    | none => some default
    | some [value] => some value
    | some _ => none
  | .improper items _ =>
    match keyfind key items with
    | some [value] => some value
    | _ => none
  | _ => none

def decodeU32 : Term → Option Nat
  | .int n => if 0 ≤ n ∧ n < 2^32 then some n.toNat else none
  | _ => none

def tagString : Term → Option (Option (List UInt8))
  | .atom "nil" => some none
  | .atom a => some (some a.toUTF8.toList)
  | _ => none

/-- The arguments of `register_progress_hook` from the `:progress` option; `none` where
reading or decoding them raises. -/
def progressArgs (opts : Term) : Option (Nat × Option (List UInt8)) := do
  let everyN ← keywordGet "every_n" (.int 1000) opts
  let tag ← keywordGet "tag" (.atom "nil") opts
  let tagStr ← tagString tag
  let everyN ← decodeU32 everyN
  pure (everyN,tagStr)

variable {Token : Type}

abbrev Registered (Token : Type) := World Token × Outcome XqliteError Nat

def addSubscriber (p : Plain) (pid : Nat) (w : World Token) : Registered Token :=
  let (list,id) := Hook.register (w.lists p) pid
  ({ w with lists := Function.update w.lists p list },.ok id)

def withConn (w : World Token) (act : World Token → Registered Token) : Registered Token :=
  if w.connOpen then act w else (w,.error .connectionClosed)

def registerBusyObserver (env : Env Token) (pid : Nat) (w : World Token) : Registered Token :=
  match Busy.registerObserver env.busyRc (env.now w) pid w.busy with
  | .ok (busy,handle) => ({ w with busy },.ok handle)
  | .error e => (w,.error e)

def fromResponse : Progress.Response → Outcome XqliteError Nat
  | .handle id => .ok id
  | .cannotExecute message => .error (.cannotExecute message)
  | _ => .crash

/-- `every_n` is looked at before the connection is. -/
def registerProgressHook (env : Env Token) (pid everyN : Nat) (tag : Option (List UInt8))
    (w : World Token) : Registered Token :=
  if everyN ≠ 0 ∧ w.connOpen = false then (w,.error .connectionClosed)
  else
    let (progress,response) :=
      Progress.registerProgressHook w.progress pid everyN tag (env.now w)
    ({ w with progress },fromResponse response)

def registerPerConnHook (env : Env Token) (pid : Nat) (opts : Term) (w : World Token) :
    HookName → Registered Token
  | .kind (.plain .wal) => withConn w (addSubscriber .wal pid)
  | .kind (.plain .commit) => withConn w (addSubscriber .commit pid)
  | .kind (.plain .rollback) => withConn w (addSubscriber .rollback pid)
  | .kind (.plain .update) => withConn w (addSubscriber .update pid)
  | .kind .busy => withConn w (registerBusyObserver env pid)
  | .kind .progress =>
    match progressArgs opts with
    | none => (w,.crash)
    | some (everyN,tag) => registerProgressHook env pid everyN tag w
  -- No clause of the function matches the others.
  | _ => (w,.crash)

/-- The answers of the unregistering functions are not looked at. -/
def unregisterHook (env : Env Token) (w : World Token) : HookKind × Nat → World Token
  | (.plain .log,handle) =>
    if env.lockError.isSome then w
    else { w with lists := Function.update w.lists .log (Hook.unregister (w.lists .log) handle).1 }
  | (.plain p,handle) =>
    if !w.connOpen then w
    else { w with lists := Function.update w.lists p (Hook.unregister (w.lists p) handle).1 }
  | (.busy,handle) =>
    if !w.connOpen then w
    else
      match Busy.unregisterObserver env.busyRc (env.now w) handle w.busy with
      | .ok busy => { w with busy }
      | .error _ => w
  | (.progress,handle) =>
    if !w.connOpen then w
    else
      { w with
        progress.dispatch.ticks := (Hook.unregister w.progress.dispatch.ticks handle).1 }

def startLink (w : World Token) : World Token × Nat :=
  ({ w with forwarders := w.forwarders ++ [w.nextPid], nextPid := w.nextPid+1 },w.nextPid)

/-- `if Process.alive?(pid), do: GenServer.stop(pid, :normal, 1_000)`. -/
def stopForwarder (pid : Nat) (w : World Token) : World Token :=
  { w with forwarders := w.forwarders.filter fun p => p ≠ pid }

/-- The handles are collected from the last to the first. -/
def registerPerConnHooks (env : Env Token) (pid : Nat) (opts : Term) :
    List HookName → List (HookKind × Nat) → World Token →
      World Token × Outcome XqliteError (List (HookKind × Nat))
  | [],acc,w => (w,.ok acc.reverse)
  | hook :: hooks,acc,w =>
    match registerPerConnHook env pid opts w hook with
    | (w,.ok handle) =>
      match hook with
      | .kind k => registerPerConnHooks env pid opts hooks ((k,handle) :: acc) w
      | _ => (w,.crash)
    | (w,.error e) => (stopForwarder pid (acc.foldl (unregisterHook env) w),.error e)
    | (w,.crash) => (w,.crash)

def bridgePerConn (env : Env Token) (w : World Token) (option : HooksOption) (tag opts : Term) :
    World Token × Outcome BridgeError Bridge :=
  if !env.telemetryEnabled then (w,.error .telemetryDisabled)
  else
    match expandHooks option with
    | none => (w,.crash)
    | some hooks =>
      match validateHooks hooks with
      | .error e => (w,.error e)
      | .ok () =>
        let (w,pid) := startLink w
        match registerPerConnHooks env pid opts hooks [] w with
        | (w,.ok handles) => (w,.ok ⟨pid,tag,handles⟩)
        | (w,.error e) => (w,.error (.native e))
        | (w,.crash) => (w,.crash)

def registerLogHook (env : Env Token) (pid : Nat) (w : World Token) : Registered Token :=
  match env.lockError with
  | some e => (w,.error (.cannotExecute ("lock error: " ++ e)))
  | none =>
    if w.masterInstalled then addSubscriber .log pid w
    else
      match env.configError with
      | some e => (w,.error (.cannotExecute ("sqlite3_config failed: " ++ e)))
      | none => addSubscriber .log pid { w with masterInstalled := true }

def bridgeLogGlobal (env : Env Token) (w : World Token) (tag : Term) :
    World Token × Outcome BridgeError Bridge :=
  if !env.telemetryEnabled then (w,.error .telemetryDisabled)
  else
    let (w,pid) := startLink w
    match registerLogHook env pid w with
    | (w,.ok handle) => (w,.ok ⟨pid,tag,[(.plain .log,handle)]⟩)
    | (w,.error e) => (w,.error (.native e))
    | (w,.crash) => (w,.crash)

def unbridge (env : Env Token) (b : Bridge) (w : World Token) : World Token :=
  stopForwarder b.pid (b.hookHandles.foldl (unregisterHook env) w)

inductive Subscriber where
  | pid (p : Nat)
  | tick (t : Progress.TickSubscriber)
  deriving DecidableEq, Repr

def Subscriber.target : Subscriber → Nat
  | .pid p => p
  | .tick t => t.pid

def subs (w : World Token) : HookKind → List (Nat × Subscriber)
  | .plain p => (w.lists p).entries.map fun e => (e.id,.pid e.state)
  | .progress => w.progress.dispatch.ticks.entries.map fun e => (e.id,.tick e.state)
  | .busy => (Busy.snapshot 0 w.busy).observers.map fun o => (o.1,.pid o.2)

def nextHandle (w : World Token) : HookKind → Nat
  | .plain p => (w.lists p).nextId
  | .progress => w.progress.dispatch.ticks.nextId
  | .busy => (Busy.snapshot 0 w.busy).nextHandle

/-- Handles and pids are handed out in order, and `n` more handles do not wrap. -/
structure Room (w : World Token) (n : Nat) : Prop where
  ids : ∀ k, ∀ s ∈ subs w k, s.1 < nextHandle w k
  space : ∀ k, nextHandle w k + n < 2^64
  pids : ∀ p ∈ w.forwarders, p < w.nextPid

theorem Room.mono {w : World Token} {m n : Nat} (h : Room w n) (hm : m ≤ n) : Room w m where
  ids := h.ids
  space k := by
    have hk := h.space k
    omega
  pids := h.pids

structure Adds (k : HookKind) (sub : Subscriber) (w w' : World Token) : Prop where
  subs_self : subs w' k = subs w k ++ [(nextHandle w k,sub)]
  subs_other : ∀ k', k' ≠ k → subs w' k' = subs w k'
  next_self : nextHandle w' k = (nextHandle w k + 1) % 2^64
  next_other : ∀ k', k' ≠ k → nextHandle w' k' = nextHandle w k'
  connOpen : w'.connOpen = w.connOpen
  forwarders : w'.forwarders = w.forwarders
  nextPid : w'.nextPid = w.nextPid

/-! What belongs to one kind can change without a change to the others. -/

theorem others_lists (w : World Token) (p : Plain) (list : Hook.HookList Nat) {k : HookKind}
    (hk : k ≠ .plain p) :
    subs { w with lists := Function.update w.lists p list } k = subs w k ∧
      nextHandle { w with lists := Function.update w.lists p list } k = nextHandle w k := by
  cases k with
  | plain q =>
    have hq : q ≠ p := fun hq => hk (congrArg HookKind.plain hq)
    simp [subs,nextHandle,hq]
  | progress => exact ⟨rfl,rfl⟩
  | busy => exact ⟨rfl,rfl⟩

theorem others_progress (w : World Token) (progress : Progress.Conn Token) {k : HookKind}
    (hk : k ≠ .progress) :
    subs { w with progress } k = subs w k ∧ nextHandle { w with progress } k = nextHandle w k := by
  cases k with
  | progress => exact absurd rfl hk
  | plain q => exact ⟨rfl,rfl⟩
  | busy => exact ⟨rfl,rfl⟩

theorem others_busy (w : World Token) (busy : Busy.Conn Nat) {k : HookKind} (hk : k ≠ .busy) :
    subs { w with busy } k = subs w k ∧ nextHandle { w with busy } k = nextHandle w k := by
  cases k with
  | busy => exact absurd rfl hk
  | plain q => exact ⟨rfl,rfl⟩
  | progress => exact ⟨rfl,rfl⟩

theorem adds_addSubscriber (p : Plain) (pid : Nat) (w : World Token) :
    Adds (.plain p) (.pid pid) w (addSubscriber p pid w).1 := by
  refine ⟨?_,fun _ hk => (others_lists w p _ hk).1,?_,fun _ hk => (others_lists w p _ hk).2,
    rfl,rfl,rfl⟩
  · simp [subs,addSubscriber,nextHandle]
  · simp [addSubscriber,nextHandle]

theorem snapshot_observers (now : Nat) (c : Busy.Conn Nat) :
    (Busy.snapshot now c).observers = (Busy.snapshot 0 c).observers := by
  cases h : c.slot <;> simp [Busy.snapshot,h]

theorem snapshot_nextHandle (now : Nat) (c : Busy.Conn Nat) :
    (Busy.snapshot now c).nextHandle = (Busy.snapshot 0 c).nextHandle := by
  cases h : c.slot <;> simp [Busy.snapshot,h]

theorem settle_observers (state : Busy.BusySlotState Nat) :
    (Busy.snapshot 0 (Busy.settle state)).observers = state.observers := by
  unfold Busy.settle
  by_cases hempty : state.isEmpty = true
  · have hobservers : state.observers = [] := by
      simp only [Busy.BusySlotState.isEmpty,Bool.and_eq_true,List.isEmpty_iff] at hempty
      exact hempty.2
    rw [if_pos hempty,hobservers]
    rfl
  · rw [if_neg hempty]
    rfl

theorem adds_busy {env : Env Token} (hrc : env.busyRc.code = Ffi.sqliteOk) (pid : Nat)
    (w : World Token) :
    ∃ w', registerBusyObserver env pid w = (w',.ok (nextHandle w .busy)) ∧
      Adds .busy (.pid pid) w w' := by
  let state := Busy.snapshot (env.now w) w.busy
  let next : Busy.BusySlotState Nat :=
    { state with
      nextHandle := (state.nextHandle + 1) % 2^64
      observers := state.observers ++ [(state.nextHandle,pid)] }
  have hnext : next.isEmpty = false := by simp [next,Busy.BusySlotState.isEmpty]
  have hsettle : Busy.settle next = ⟨some next,.callback⟩ := by
    rw [Busy.settle,hnext]
    rfl
  have hregister : Busy.registerObserver env.busyRc (env.now w) pid w.busy =
      .ok (Busy.settle next,state.nextHandle) := by
    simp only [Busy.registerObserver,Busy.swapIn_eq,hrc,if_true]
    rfl
  have hhandle : state.nextHandle = nextHandle w .busy := snapshot_nextHandle _ _
  have hobservers : state.observers = (Busy.snapshot 0 w.busy).observers := snapshot_observers _ _
  refine ⟨{ w with busy := Busy.settle next },?_,?_,fun _ hk => (others_busy w _ hk).1,?_,
    fun _ hk => (others_busy w _ hk).2,rfl,rfl,rfl⟩
  · rw [registerBusyObserver,hregister,hhandle]
  · simp only [subs,settle_observers,next,hobservers,hhandle,List.map_append,List.map_cons,
      List.map_nil]
  · show (Busy.snapshot 0 (Busy.settle next)).nextHandle = _
    rw [hsettle,← hhandle]
    rfl

theorem adds_progress (env : Env Token) {w : World Token} (hopen : w.connOpen = true)
    {everyN : Nat} (hn : everyN ≠ 0) (pid : Nat) (tag : Option (List UInt8)) :
    ∃ w' sub, registerProgressHook env pid everyN tag w = (w',.ok (nextHandle w .progress)) ∧
      sub.target = pid ∧ Adds .progress sub w w' := by
  let subscriber := Progress.TickSubscriber.new pid everyN tag w.progress.nextAddr (env.now w)
  let conn : Progress.Conn Token :=
    ⟨⟨w.progress.dispatch.cancels,(Hook.register w.progress.dispatch.ticks subscriber).1⟩,
      w.progress.signalled,Function.update w.progress.counters w.progress.nextAddr 0,
      w.progress.nextAddr+1⟩
  have hregister : Progress.registerProgressHook w.progress pid everyN tag (env.now w) =
      (conn,.handle (nextHandle w .progress)) := by
    rw [Progress.registerProgressHook,if_neg hn]
    rfl
  refine ⟨{ w with progress := conn },.tick subscriber,?_,rfl,?_,
    fun _ hk => (others_progress w conn hk).1,?_,fun _ hk => (others_progress w conn hk).2,
    rfl,rfl,rfl⟩
  · rw [registerProgressHook,if_neg (by simp [hopen]),hregister]
    rfl
  · simp [subs,nextHandle,conn]
  · simp [nextHandle,conn]

inductive Fate where
  | registers | refused | raises
  deriving DecidableEq, Repr

/-- What registering one hook comes to. It depends on the connection only by its being
open, so it is the same at every place of the list. -/
def fate (env : Env Token) (connOpen : Bool) (opts : Term) : HookName → Fate
  | .kind (.plain .log) => .raises
  | .kind (.plain _) => if connOpen then .registers else .refused
  | .kind .busy =>
    if connOpen ∧ env.busyRc.code = Ffi.sqliteOk then .registers else .refused
  | .kind .progress =>
    match progressArgs opts with
    | none => .raises
    | some (everyN,_) => if connOpen ∧ everyN ≠ 0 then .registers else .refused
  | .all => .raises
  | .other _ => .raises

/-- What `unregister_hook` needs to remove a handle of a kind. -/
def Removable (env : Env Token) (connOpen : Bool) : HookKind → Prop
  | .plain .log => env.lockError = none
  | .plain _ => connOpen = true
  | .busy => connOpen = true ∧ env.busyRc.code = Ffi.sqliteOk
  | .progress => connOpen = true

inductive Ends (env : Env Token) (pid : Nat) (w : World Token) (hook : HookName) :
    Fate → Registered Token → Prop
  | registers (k : HookKind) (sub : Subscriber) (w' : World Token) (hkind : hook = .kind k)
      (htarget : sub.target = pid) (hremovable : Removable env w.connOpen k)
      (hadds : Adds k sub w w') : Ends env pid w hook .registers (w',.ok (nextHandle w k))
  | refused (e : XqliteError) : Ends env pid w hook .refused (w,.error e)
  | raises : Ends env pid w hook .raises (w,.crash)

theorem ends_plain (env : Env Token) (pid : Nat) (opts : Term) (w : World Token) {p : Plain}
    (hp : p ≠ .log) :
    Ends env pid w (.kind (.plain p)) (fate env w.connOpen opts (.kind (.plain p)))
      (withConn w (addSubscriber p pid)) := by
  have hfate : fate env w.connOpen opts (.kind (.plain p)) =
      if w.connOpen then .registers else .refused := by
    cases p <;> first | rfl | exact absurd rfl hp
  rw [hfate,withConn]
  cases hopen : w.connOpen with
  | true =>
    have hremovable : Removable env w.connOpen (.plain p) := by
      rw [hopen]
      cases p <;> first | rfl | exact absurd rfl hp
    exact .registers (.plain p) (.pid pid) _ rfl rfl hremovable (adds_addSubscriber p pid w)
  | false => exact .refused _

theorem ends_busy (env : Env Token) (pid : Nat) (opts : Term) (w : World Token) :
    Ends env pid w (.kind .busy) (fate env w.connOpen opts (.kind .busy))
      (withConn w (registerBusyObserver env pid)) := by
  rw [withConn,fate]
  cases hopen : w.connOpen with
  | false => exact .refused _
  | true =>
    by_cases hrc : env.busyRc.code = Ffi.sqliteOk
    · obtain ⟨w',hregister,hadds⟩ := adds_busy hrc pid w
      rw [if_pos ⟨rfl,hrc⟩,if_pos rfl,hregister]
      exact .registers .busy _ _ rfl rfl ⟨hopen,hrc⟩ hadds
    · have hregister : registerBusyObserver env pid w =
          (w,.error (Busy.ffiRcToError env.busyRc)) := by
        simp [registerBusyObserver,Busy.registerObserver,Busy.swapIn_eq,hrc]
      rw [if_neg (fun h => hrc h.2),if_pos rfl,hregister]
      exact .refused _

theorem ends_progress (env : Env Token) (pid : Nat) (opts : Term) (w : World Token) :
    Ends env pid w (.kind .progress) (fate env w.connOpen opts (.kind .progress))
      (registerPerConnHook env pid opts w (.kind .progress)) := by
  simp only [fate,registerPerConnHook]
  cases progressArgs opts with
  | none => exact .raises
  | some args =>
    obtain ⟨everyN,tag⟩ := args
    show Ends env pid w _ (if w.connOpen = true ∧ everyN ≠ 0 then .registers else .refused)
      (registerProgressHook env pid everyN tag w)
    by_cases hn : everyN = 0
    · subst hn
      have hregister : registerProgressHook env pid 0 tag w =
          (w,.error (.cannotExecute "register_progress_hook: every_n must be >= 1")) := rfl
      rw [if_neg (by simp),hregister]
      exact .refused _
    · cases hopen : w.connOpen with
      | false =>
        have hregister : registerProgressHook env pid everyN tag w =
            (w,.error .connectionClosed) := by
          rw [registerProgressHook,if_pos ⟨hn,hopen⟩]
        rw [if_neg (by simp),hregister]
        exact .refused _
      | true =>
        obtain ⟨w',sub,hregister,htarget,hadds⟩ := adds_progress env hopen hn pid tag
        rw [if_pos ⟨rfl,hn⟩,hregister]
        exact .registers .progress sub w' rfl htarget hopen hadds

theorem registerPerConnHook_ends (env : Env Token) (pid : Nat) (opts : Term) (w : World Token)
    (hook : HookName) :
    Ends env pid w hook (fate env w.connOpen opts hook)
      (registerPerConnHook env pid opts w hook) := by
  cases hook with
  | all => exact .raises
  | other t => exact .raises
  | kind k =>
    cases k with
    | busy => exact ends_busy env pid opts w
    | progress => exact ends_progress env pid opts w
    | plain p =>
      cases p with
      | log => exact .raises
      | wal => exact ends_plain env pid opts w (by decide)
      | commit => exact ends_plain env pid opts w (by decide)
      | rollback => exact ends_plain env pid opts w (by decide)
      | update => exact ends_plain env pid opts w (by decide)

def withoutObserver (handle : Nat) (state : Busy.BusySlotState Nat) : Busy.BusySlotState Nat :=
  { state with observers := state.observers.filter fun o => o.1 != handle }

section Remove
variable (env : Env Token)

theorem unregisterHook_frame (w : World Token) (h : HookKind × Nat) :
    (unregisterHook env w h).connOpen = w.connOpen ∧
      (unregisterHook env w h).forwarders = w.forwarders := by
  obtain ⟨k,handle⟩ := h
  cases k with
  | plain p => cases p <;> simp only [unregisterHook] <;> split <;> exact ⟨rfl,rfl⟩
  | progress =>
    simp only [unregisterHook]
    split <;> exact ⟨rfl,rfl⟩
  | busy =>
    simp only [unregisterHook]
    split
    · exact ⟨rfl,rfl⟩
    · split <;> exact ⟨rfl,rfl⟩

theorem filter_ne_kind {k k' : HookKind} (hk : k' ≠ k) (handle : Nat)
    (l : List (Nat × Subscriber)) :
    l.filter (fun s => decide ((k',s.1) ≠ (k,handle))) = l := by
  refine List.filter_eq_self.mpr ?_
  intro s _
  simp [hk]

theorem subs_removed (w : World Token) (p : Plain) (handle : Nat) (k : HookKind) :
    subs { w with lists := Function.update w.lists p (Hook.unregister (w.lists p) handle).1 } k =
      (subs w k).filter fun s => decide ((k,s.1) ≠ (.plain p,handle)) := by
  by_cases hk : k = .plain p
  · subst hk
    simp [subs,List.filter_map,Function.comp_def]
  · rw [filter_ne_kind hk]
    exact (others_lists w p _ hk).1

theorem unregisterHook_busy {w : World Token} (hopen : w.connOpen = true)
    (hrc : env.busyRc.code = Ffi.sqliteOk) (handle : Nat) :
    unregisterHook env w (.busy,handle) =
      { w with
        busy := Busy.settle (withoutObserver handle (Busy.snapshot (env.now w) w.busy)) } := by
  simp [unregisterHook,hopen,Busy.unregisterObserver,Busy.swapIn_eq,hrc,withoutObserver]

theorem subs_unregisterHook {w : World Token} {k : HookKind}
    (hk : Removable env w.connOpen k) (handle : Nat) (k' : HookKind) :
    subs (unregisterHook env w (k,handle)) k' =
      (subs w k').filter fun s => decide ((k',s.1) ≠ (k,handle)) := by
  cases k with
  | plain p =>
    have hremoved : unregisterHook env w (.plain p,handle) =
        { w with lists := Function.update w.lists p (Hook.unregister (w.lists p) handle).1 } := by
      cases p <;> simp only [Removable] at hk <;> simp [unregisterHook,hk]
    rw [hremoved,subs_removed]
  | progress =>
    have hopen : w.connOpen = true := hk
    simp only [unregisterHook,hopen,Bool.not_true,Bool.false_eq_true,if_false]
    by_cases hk' : k' = .progress
    · subst hk'
      simp [subs,List.filter_map,Function.comp_def]
    · rw [filter_ne_kind hk']
      exact (others_progress w _ hk').1
  | busy =>
    obtain ⟨hopen,hrc⟩ := hk
    rw [unregisterHook_busy env hopen hrc]
    by_cases hk' : k' = .busy
    · subst hk'
      simp only [subs,settle_observers,withoutObserver,snapshot_observers,List.filter_map]
      refine congrArg _ (List.filter_congr ?_)
      intro o _
      by_cases ho : o.1 = handle <;> simp [ho]
    · rw [filter_ne_kind hk']
      exact (others_busy w _ hk').1

theorem unregisterHooks_frame (hs : List (HookKind × Nat)) (w : World Token) :
    (hs.foldl (unregisterHook env) w).connOpen = w.connOpen ∧
      (hs.foldl (unregisterHook env) w).forwarders = w.forwarders := by
  induction hs generalizing w with
  | nil => exact ⟨rfl,rfl⟩
  | cons h hs ih =>
    obtain ⟨hopen,hforwarders⟩ := unregisterHook_frame env w h
    obtain ⟨hopen',hforwarders'⟩ := ih (unregisterHook env w h)
    exact ⟨hopen'.trans hopen,hforwarders'.trans hforwarders⟩

theorem subs_unregisterHooks {hs : List (HookKind × Nat)} {w : World Token}
    (h : ∀ x ∈ hs, Removable env w.connOpen x.1) (k : HookKind) :
    subs (hs.foldl (unregisterHook env) w) k =
      (subs w k).filter fun s => decide ((k,s.1) ∉ hs) := by
  induction hs generalizing w with
  | nil => simp
  | cons x hs ih =>
    have hopen := (unregisterHook_frame env w x).1
    have hx := subs_unregisterHook env (h x List.mem_cons_self) x.2 k
    have hrest := ih (w := unregisterHook env w x)
      (fun y hy => hopen ▸ h y (List.mem_cons_of_mem x hy))
    rw [List.foldl_cons,hrest,hx,List.filter_filter]
    refine List.filter_congr ?_
    intro s _
    rw [Bool.and_comm,← Bool.decide_and]
    exact decide_eq_decide.mpr (by rw [List.mem_cons,not_or])

end Remove

@[simp] theorem subs_startLink (w : World Token) (k : HookKind) :
    subs (startLink w).1 k = subs w k := by
  cases k <;> rfl

@[simp] theorem nextHandle_startLink (w : World Token) (k : HookKind) :
    nextHandle (startLink w).1 k = nextHandle w k := by
  cases k <;> rfl

@[simp] theorem subs_stopForwarder (pid : Nat) (w : World Token) (k : HookKind) :
    subs (stopForwarder pid w) k = subs w k := by
  cases k <;> rfl

@[simp] theorem nextHandle_stopForwarder (pid : Nat) (w : World Token) (k : HookKind) :
    nextHandle (stopForwarder pid w) k = nextHandle w k := by
  cases k <;> rfl

section Log
variable {env : Env Token} {w : World Token}

theorem registerLogHook_ok (pid : Nat) (hlock : env.lockError = none)
    (hconfig : w.masterInstalled = true ∨ env.configError = none) :
    ∃ w', registerLogHook env pid w = (w',.ok (nextHandle w (.plain .log))) ∧
      Adds (.plain .log) (.pid pid) w w' := by
  unfold registerLogHook
  rw [hlock]
  cases hinstalled : w.masterInstalled with
  | true => exact ⟨_,rfl,adds_addSubscriber .log pid w⟩
  | false =>
    have hnone : env.configError = none := by simpa [hinstalled] using hconfig
    simp only [Bool.false_eq_true,if_false,hnone]
    obtain ⟨hself,hother,hnext,hnextOther,hopen,hforwarders,hpid⟩ :=
      adds_addSubscriber .log pid { w with masterInstalled := true }
    have hsubs : ∀ k, subs { w with masterInstalled := true } k = subs w k := by
      intro k
      cases k <;> rfl
    have hhandle : ∀ k, nextHandle { w with masterInstalled := true } k = nextHandle w k := by
      intro k
      cases k <;> rfl
    simp only [hsubs,hhandle] at hself hother hnext hnextOther
    exact ⟨_,rfl,hself,hother,hnext,hnextOther,hopen,hforwarders,hpid⟩

theorem registerLogHook_error (pid : Nat)
    (h : ¬ (env.lockError = none ∧ (w.masterInstalled = true ∨ env.configError = none))) :
    ∃ e, registerLogHook env pid w = (w,.error e) := by
  unfold registerLogHook
  cases hlock : env.lockError with
  | some e => exact ⟨_,rfl⟩
  | none =>
    cases hinstalled : w.masterInstalled with
    | true => exact absurd ⟨hlock,.inl hinstalled⟩ h
    | false =>
      cases hconfig : env.configError with
      | none => exact absurd ⟨hlock,.inr hconfig⟩ h
      | some e => exact ⟨_,rfl⟩

end Log

theorem Adds.next_eq {w w' : World Token} {k : HookKind} {sub : Subscriber} (h : Adds k sub w w')
    (hspace : nextHandle w k + 1 < 2^64) : nextHandle w' k = nextHandle w k + 1 := by
  rw [h.next_self]
  exact Nat.mod_eq_of_lt hspace

end Xqlite.Telemetry

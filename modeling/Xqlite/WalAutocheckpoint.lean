import Xqlite.WalRuns
set_option autoImplicit false

namespace Xqlite.Wal
open Runs Pragma

variable {Pid : Type}

/-- What a hook does during one commit. A checkpoint has a result of its own. -/
inductive Effect (Pid : Type) where
  | send (pid : Pid) (dbName : String) (pages : Int)
  | checkpoint (result : Int)
  deriving DecidableEq, Repr

/-- A panic of the body, the error here, becomes the fallback. -/
def guardFfiCallback (fallback : Int) : Except String Int → Int
  | .ok rc => rc
  | .error _ => fallback

/-- `dbName` is absent where SQLite passes no name, or one that is not UTF-8. -/
def walHookCallback (c : Conn Pid) (dbName : Option String) (pages result : Int) :
    List (Effect Pid) × Int :=
  let sent := c.entries.map fun e => Effect.send e.2 (dbName.getD "") pages
  let threshold := c.autocheckpointPages
  let checkpoints := if threshold > 0 ∧ pages ≥ threshold then [Effect.checkpoint result] else []
  (sent ++ checkpoints,guardFfiCallback Ffi.sqliteOk (.ok Ffi.sqliteOk))

def walDefaultHook (threshold pages result : Int) : List (Effect Pid) × Int :=
  (if pages ≥ threshold then [.checkpoint result] else [],Ffi.sqliteOk)

/-- What a commit shows: the hook that ran, what it did, and what it returned. -/
inductive Outcome (Pid : Type) where
  | quiet
  | committed (hook : Slot) (effects : List (Effect Pid)) (rc : Int)
  deriving DecidableEq, Repr

/-- SQLite after a commit in WAL mode. -/
def runHook (slot : Slot) (callback : List (Effect Pid) × Int) (pages result : Int) : Outcome Pid :=
  match slot with
  | .xqlite => .committed .xqlite callback.1 callback.2
  | .sqlite threshold =>
    let hook : List (Effect Pid) × Int := walDefaultHook threshold pages result
    .committed (.sqlite threshold) hook.1 hook.2
  | .empty => .committed .empty [] Ffi.sqliteOk

def Effect.isCheckpoint : Effect Pid → Bool
  | .checkpoint _ => true
  | .send _ _ _ => false

def Outcome.checkpointed : Outcome Pid → Option Bool
  | .quiet => none
  | .committed _ effects _ => some (effects.any Effect.isCheckpoint)

inductive Event (Pid : Type) where
  | commit (dbName : Option String) (pages result : Int)
  | setPragma (value : Term)
  | registerWalHook (pid : Pid)
  | unregisterWalHook (id : Nat)

/-- The threshold that `PRAGMA wal_autocheckpoint` reports. -/
def reportedThreshold : Slot → Int
  | .sqlite threshold => threshold
  | _ => 0

/-- SQLite's answer to `PRAGMA wal_autocheckpoint = literal`, where `atoi` reads the literal. -/
def answerTo (atoi : Literal → Int) (slot : Slot) (literal : Literal) : Answer :=
  ⟨[atoi literal],.row (.integer (reportedThreshold (takeThreshold slot (atoi literal)))),none,
    .row (.integer (reportedThreshold slot))⟩

/-- A value without a literal fails before there is a statement. -/
def setWalAutocheckpoint (atoi : Literal → Int) (c : Conn Pid) (value : Term) : Conn Pid :=
  match formatTermForPragma value with
  | .ok literal => (setPragma c walAutocheckpoint value (answerTo atoi c.slot literal)).1
  | .error _ => c

def xqliteStep (atoi : Literal → Int) (c : Conn Pid) : Event Pid → Conn Pid × Outcome Pid
  | .commit dbName pages result =>
      (c,runHook c.slot (walHookCallback c dbName pages result) pages result)
  | .setPragma value => (setWalAutocheckpoint atoi c value,.quiet)
  | .registerWalHook pid => ((registerWalHook c pid).1,.quiet)
  | .unregisterWalHook id => ((unregisterWalHook c id).1,.quiet)

/-- A stock connection: the same statements reach SQLite, and nobody else takes the slot. -/
def stockStep (atoi : Literal → Int) (slot : Slot) : Event Pid → Slot × Outcome Pid
  | .commit _ pages result => (slot,runHook slot ([],Ffi.sqliteOk) pages result)
  | .setPragma value =>
    match formatTermForPragma value with
    | .ok literal => (takeThreshold slot (atoi literal),.quiet)
    | .error _ => (slot,.quiet)
  | .registerWalHook _ | .unregisterWalHook _ => (slot,.quiet)

def stockOpened : Slot := .sqlite defaultWalAutocheckpointPages

theorem any_isCheckpoint_sent (entries : List (Nat × Pid)) (dbName : String) (pages : Int) :
    (entries.map fun e => Effect.send e.2 dbName pages).any Effect.isCheckpoint = false := by
  induction entries with
  | nil => rfl
  | cons e entries ih => simp [Effect.isCheckpoint]

theorem checkpointed_callback (c : Conn Pid) (dbName : Option String) (pages result : Int) :
    (walHookCallback c dbName pages result).1.any Effect.isCheckpoint =
      (0 < c.autocheckpointPages && c.autocheckpointPages ≤ pages) := by
  rw [walHookCallback,List.any_append,any_isCheckpoint_sent,Bool.false_or]
  by_cases hpages : 0 < c.autocheckpointPages ∧ c.autocheckpointPages ≤ pages
  · simp [hpages,Effect.isCheckpoint]
  · simp [hpages]
    simpa using hpages

theorem checkpointed_default (threshold pages result : Int) :
    (walDefaultHook threshold pages result : List (Effect Pid) × Int).1.any Effect.isCheckpoint =
      decide (threshold ≤ pages) := by
  by_cases hpages : threshold ≤ pages <;> simp [walDefaultHook,hpages,Effect.isCheckpoint]

def Outcome.reply : Outcome Pid → Option (Reply Pid)
  | .quiet => none
  | .committed _ effects _ =>
      some (.committed (effects.filterMap sent?) (effects.any Effect.isCheckpoint))
where
  sent? : Effect Pid → Option (Pid × String × Int)
    | .send pid dbName pages => some (pid,dbName,pages)
    | .checkpoint _ => none

theorem commit_refined (c : Conn Pid) (dbName : Option String) (pages result : Int) :
    (runHook c.slot (walHookCallback c dbName pages result) pages result).reply =
      some (commit c (dbName.getD "") pages) := by
  cases hslot : c.slot with
  | xqlite =>
    have hcheck := checkpointed_callback c dbName pages result
    have hsent : (walHookCallback c dbName pages result).1.filterMap Outcome.reply.sent? =
        c.entries.map (fun e => (e.2,dbName.getD "",pages)) := by
      rw [walHookCallback,List.filterMap_append,List.filterMap_map]
      have hnone : (if c.autocheckpointPages > 0 ∧ pages ≥ c.autocheckpointPages
          then [Effect.checkpoint result] else []).filterMap
            (Outcome.reply.sent? : Effect Pid → _) = [] := by
        split <;> rfl
      rw [hnone,List.append_nil]
      exact List.filterMap_eq_map_iff_forall_eq_some.mpr (fun _ _ => rfl)
    simp [runHook,Outcome.reply,commit,hslot,hcheck,hsent]
  | sqlite threshold =>
    by_cases hpages : threshold ≤ pages <;>
      simp [runHook,Outcome.reply,commit,hslot,walDefaultHook,hpages,Effect.isCheckpoint,
        Outcome.reply.sent?]
  | empty => simp [runHook,Outcome.reply,commit,hslot]

/-- xqlite's callback holds the slot, with the threshold that the stock hook has. -/
structure Emulates (c : Conn Pid) (stock : Slot) : Prop where
  slot : c.slot = .xqlite
  pages : c.autocheckpointPages = reportedThreshold stock
  stock : stock = .empty ∨ ∃ threshold, 0 < threshold ∧ stock = .sqlite threshold

theorem emulates_opened : Emulates (Conn.opened : Conn Pid) stockOpened :=
  ⟨rfl,rfl,Or.inr ⟨defaultWalAutocheckpointPages,by decide,rfl⟩⟩

theorem reported_taken (slot : Slot) (n : Int) :
    reportedThreshold (takeThreshold slot n) = max n 0 := by
  by_cases hn : 0 < n
  · simp [takeThreshold,reportedThreshold,hn]
    omega
  · simp [takeThreshold,reportedThreshold,hn]
    omega

theorem taken_stock (slot : Slot) (n : Int) : takeThreshold slot n = .empty ∨
    ∃ threshold, 0 < threshold ∧ takeThreshold slot n = .sqlite threshold := by
  by_cases hn : 0 < n
  · exact Or.inr ⟨n,hn,if_pos hn⟩
  · exact Or.inl (if_neg hn)

theorem setPragma_answered {atoi : Literal → Int}
    (hatoi : ∀ literal, -2^31 ≤ atoi literal ∧ atoi literal < 2^31) (c : Conn Pid) {value : Term}
    {literal : Literal} (hl : formatTermForPragma value = .ok literal) :
    (setPragma c walAutocheckpoint value (answerTo atoi c.slot literal)).1 =
      { c with slot := .xqlite, autocheckpointPages := max (atoi literal) 0 } := by
  have hname : validateName walAutocheckpoint = .ok () := if_neg (by decide)
  obtain ⟨hlow,hhigh⟩ := hatoi literal
  simp only [setPragma,hname,hl,answerTo,reported_taken,repair,if_true,encodeVal,
    storePages_int hlow hhigh,installCallback,Conn.evicted]

theorem Emulates.setPragma {atoi : Literal → Int}
    (hatoi : ∀ literal, -2^31 ≤ atoi literal ∧ atoi literal < 2^31) {c : Conn Pid} {stock : Slot}
    (h : Emulates c stock) (value : Term) :
    Emulates (setWalAutocheckpoint atoi c value)
      (stockStep atoi stock (.setPragma value : Event Pid)).1 := by
  cases hl : formatTermForPragma value with
  | error e => simpa [setWalAutocheckpoint,stockStep,hl] using h
  | ok literal =>
    simp only [setWalAutocheckpoint,stockStep,hl,setPragma_answered hatoi c hl]
    exact ⟨rfl,(reported_taken stock (atoi literal)).symm,taken_stock stock (atoi literal)⟩

theorem Emulates.checkpointed {c : Conn Pid} {stock : Slot} (h : Emulates c stock)
    (dbName : Option String) (pages result : Int) :
    (runHook c.slot (walHookCallback c dbName pages result) pages result).checkpointed =
      (runHook stock (([],Ffi.sqliteOk) : List (Effect Pid) × Int) pages result).checkpointed := by
  rw [h.slot]
  simp only [runHook,Outcome.checkpointed,checkpointed_callback]
  have hpages := h.pages
  rcases h.stock with rfl | ⟨threshold,hpos,rfl⟩
  · have hzero : c.autocheckpointPages = 0 := hpages
    simp [hzero]
  · have hthreshold : c.autocheckpointPages = threshold := hpages
    simp [hthreshold,hpos,checkpointed_default]

/-- The outcome of an event here, and on the stock connection. -/
structure Alike (here stock : Outcome Pid) : Prop where
  checkpointed : here.checkpointed = stock.checkpointed
  succeeds : ∀ hook effects rc, here = .committed hook effects rc → hook = .xqlite ∧ rc = Ffi.sqliteOk

theorem Emulates.step {atoi : Literal → Int}
    (hatoi : ∀ literal, -2^31 ≤ atoi literal ∧ atoi literal < 2^31) (c : Conn Pid) (stock : Slot)
    (event : Event Pid) (h : Emulates c stock) :
    Emulates (xqliteStep atoi c event).1 (stockStep atoi stock event).1 ∧
      Alike (xqliteStep atoi c event).2 (stockStep atoi stock event).2 := by
  have hquiet : Alike (.quiet : Outcome Pid) .quiet := ⟨rfl,fun _ _ _ hq => by cases hq⟩
  cases event with
  | commit dbName pages result =>
    refine ⟨h,h.checkpointed dbName pages result,?_⟩
    intro hook effects rc hcommit
    simp only [xqliteStep,h.slot,runHook,Outcome.committed.injEq] at hcommit
    obtain ⟨rfl,-,rfl⟩ := hcommit
    exact ⟨rfl,rfl⟩
  | setPragma value =>
    refine ⟨h.setPragma hatoi value,?_⟩
    cases hl : formatTermForPragma value <;> simpa [xqliteStep,stockStep,hl] using hquiet
  | registerWalHook pid => exact ⟨⟨h.slot,h.pages,h.stock⟩,hquiet⟩
  | unregisterWalHook id => exact ⟨⟨h.slot,h.pages,h.stock⟩,hquiet⟩

/-- Along every history of commits, settings and registrations, each commit is followed by
a checkpoint exactly where it would be on a stock connection, it is xqlite's callback
that runs, and the callback returns `SQLITE_OK`. -/
theorem autocheckpoint_as_stock {atoi : Literal → Int}
    (hatoi : ∀ literal, -2^31 ≤ atoi literal ∧ atoi literal < 2^31) (events : List (Event Pid)) :
    List.Forall₂ Alike (run (xqliteStep atoi) Conn.opened events).2
      (run (stockStep atoi) stockOpened events).2 :=
  (run_simulates (Emulates.step hatoi) emulates_opened events).2

/-- `sqlite3Atoi` on the literals of `set`; what does not fit in 32 bits is zero. -/
def atoi : Literal → Int
  | .integer n => if -2^31 ≤ n ∧ n < 2^31 then n else 0
  | _ => 0

theorem atoi_range (literal : Literal) : -2^31 ≤ atoi literal ∧ atoi literal < 2^31 := by
  unfold atoi
  split
  · split <;> omega
  · omega

def thresholdHistory : List (Event Nat) :=
  [.commit none 1000 0,.setPragma (.int 2),.commit (some "main") 1 0,.registerWalHook 7,
    .commit (some "main") 2 5,.setPragma (.int (-3)),.commit (some "main") 5000 0,
    .setPragma (.int 2147483648),.commit (some "main") 5000 0]

theorem autocheckpoint_as_stock_history :
    (run (xqliteStep atoi) Conn.opened thresholdHistory).2.map Outcome.checkpointed =
        [some true,none,some false,none,some true,none,some false,none,some false] ∧
      List.Forall₂ Alike (run (xqliteStep atoi) Conn.opened thresholdHistory).2
        (run (stockStep atoi) stockOpened thresholdHistory).2 :=
  ⟨by decide,autocheckpoint_as_stock atoi_range thresholdHistory⟩

end Xqlite.Wal

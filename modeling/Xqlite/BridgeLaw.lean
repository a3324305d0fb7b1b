import Xqlite.BridgeRooms
set_option autoImplicit false

namespace Xqlite.Telemetry

variable {Token : Type}

def handlesOf (k : HookKind) (hs : List (HookKind × Nat)) : List Nat :=
  (hs.filter fun h => h.1 = k).map Prod.snd

/-- `w` is `w₀` with one subscription of `pid` under each of the handles. -/
structure Grown (env : Env Token) (pid : Nat) (w₀ w : World Token)
    (hs : List (HookKind × Nat)) : Prop where
  added : ∀ k, ∃ new, subs w k = subs w₀ k ++ new ∧ new.map Prod.fst = handlesOf k hs ∧
    ∀ s ∈ new, s.2.target = pid
  fresh : ∀ h ∈ hs, ∀ s ∈ subs w₀ h.1, s.1 ≠ h.2
  removable : ∀ h ∈ hs, Removable env w.connOpen h.1
  next_le : ∀ k, nextHandle w₀ k ≤ nextHandle w k
  connOpen : w.connOpen = w₀.connOpen
  forwarders : w.forwarders = w₀.forwarders

section Grow
variable {env : Env Token} {pid : Nat} {w₀ w w' : World Token} {hs : List (HookKind × Nat)}

theorem Grown.nil (env : Env Token) (pid : Nat) (w : World Token) : Grown env pid w w [] where
  added _ := ⟨[],(List.append_nil _).symm,rfl,fun _ h => nomatch h⟩
  fresh _ h := nomatch h
  removable _ h := nomatch h
  next_le _ := le_rfl
  connOpen := rfl
  forwarders := rfl

theorem Grown.snoc (h : Grown env pid w₀ w hs) {k : HookKind} {sub : Subscriber}
    (hadds : Adds k sub w w') (htarget : sub.target = pid)
    (hremovable : Removable env w.connOpen k)
    (hids : ∀ k, ∀ s ∈ subs w₀ k, s.1 < nextHandle w₀ k)
    (hspace : nextHandle w k + 1 < 2^64) :
    Grown env pid w₀ w' (hs ++ [(k,nextHandle w k)]) where
  added k' := by
    obtain ⟨new,hnew,hhandles,htargets⟩ := h.added k'
    by_cases hk : k' = k
    · subst hk
      refine ⟨new ++ [(nextHandle w k',sub)],?_,?_,?_⟩
      · rw [hadds.subs_self,hnew,List.append_assoc]
      · simp [handlesOf,hhandles]
      · intro s hs
        rcases List.mem_append.mp hs with hs | hs
        · exact htargets s hs
        · rw [List.mem_singleton.mp hs]
          exact htarget
    · refine ⟨new,(hadds.subs_other k' hk).trans hnew,?_,htargets⟩
      simp [handlesOf,hhandles,Ne.symm hk]
  fresh x hx s hs := by
    rcases List.mem_append.mp hx with hx | hx
    · exact h.fresh x hx s hs
    · rw [List.mem_singleton.mp hx] at hs ⊢
      have hlt := hids k s hs
      have hle := h.next_le k
      exact Nat.ne_of_lt (Nat.lt_of_lt_of_le hlt hle)
  removable x hx := by
    rw [hadds.connOpen]
    rcases List.mem_append.mp hx with hx | hx
    · exact h.removable x hx
    · rw [List.mem_singleton.mp hx]
      exact hremovable
  next_le k' := by
    have hle := h.next_le k'
    by_cases hk : k' = k
    · subst hk
      rw [hadds.next_eq hspace]
      omega
    · rw [hadds.next_other k' hk]
      exact hle
  connOpen := hadds.connOpen.trans h.connOpen
  forwarders := hadds.forwarders.trans h.forwarders

theorem mem_handlesOf {k : HookKind} {id : Nat} : id ∈ handlesOf k hs ↔ (k,id) ∈ hs := by
  simp [handlesOf]

theorem Grown.undone (h : Grown env pid w₀ w hs) {hs' : List (HookKind × Nat)}
    (hmem : ∀ x, x ∈ hs' ↔ x ∈ hs) (k : HookKind) :
    subs (hs'.foldl (unregisterHook env) w) k = subs w₀ k := by
  obtain ⟨new,hnew,hhandles,-⟩ := h.added k
  have hold : (subs w₀ k).filter (fun s => decide ((k,s.1) ∉ hs')) = subs w₀ k := by
    refine List.filter_eq_self.mpr ?_
    intro s hs
    refine decide_eq_true ?_
    intro hx
    exact h.fresh (k,s.1) ((hmem _).mp hx) s hs rfl
  have hgone : new.filter (fun s => decide ((k,s.1) ∉ hs')) = [] := by
    refine List.filter_eq_nil_iff.mpr ?_
    intro s hs
    have hhandle : s.1 ∈ handlesOf k _ := hhandles ▸ List.mem_map_of_mem hs
    simpa using (hmem _).mpr (mem_handlesOf.mp hhandle)
  rw [subs_unregisterHooks env (fun x hx => h.removable x ((hmem x).mp hx)),hnew,
    List.filter_append,hold,hgone,List.append_nil]

end Grow

def verdict (env : Env Token) (connOpen : Bool) (opts : Term) : List HookName → Fate
  | [] => .registers
  | hook :: hooks =>
    match fate env connOpen opts hook with
    | .registers => verdict env connOpen opts hooks
    | .refused => .refused
    | .raises => .raises

/-- A hook raises behind hooks that all registered. -/
def RaisesMidway (env : Env Token) (connOpen : Bool) (opts : Term) (hooks : List HookName) : Prop :=
  ∃ before hook after, hooks = before ++ hook :: after ∧
    (∀ h ∈ before, fate env connOpen opts h = .registers) ∧ fate env connOpen opts hook = .raises

section Midway
variable {env : Env Token} {connOpen : Bool} {opts : Term} {hook : HookName}
  {hooks : List HookName}

theorem raisesMidway_registers (hfate : fate env connOpen opts hook = .registers) :
    RaisesMidway env connOpen opts (hook :: hooks) ↔ RaisesMidway env connOpen opts hooks := by
  constructor
  · intro ⟨before,h,after,heq,hbefore,hraises⟩
    cases before with
    | nil =>
      cases heq
      rw [hfate] at hraises
      cases hraises
    | cons b before =>
      cases heq
      exact ⟨before,h,after,rfl,fun x hx => hbefore x (List.mem_cons_of_mem _ hx),hraises⟩
  · intro ⟨before,h,after,heq,hbefore,hraises⟩
    refine ⟨hook :: before,h,after,by rw [heq]; rfl,?_,hraises⟩
    intro x hx
    rcases List.mem_cons.mp hx with hx | hx
    · rw [hx,hfate]
    · exact hbefore x hx

theorem not_raisesMidway_refused (hfate : fate env connOpen opts hook = .refused) :
    ¬RaisesMidway env connOpen opts (hook :: hooks) := by
  intro ⟨before,h,after,heq,hbefore,hraises⟩
  cases before with
  | nil =>
    cases heq
    rw [hfate] at hraises
    cases hraises
  | cons b before =>
    cases heq
    have hb := hbefore _ List.mem_cons_self
    rw [hfate] at hb
    cases hb

theorem verdict_raises_iff (env : Env Token) (connOpen : Bool) (opts : Term)
    (hooks : List HookName) :
    verdict env connOpen opts hooks = .raises ↔ RaisesMidway env connOpen opts hooks := by
  induction hooks with
  | nil =>
    refine iff_of_false (by simp [verdict]) ?_
    intro ⟨before,hook,after,h,_⟩
    cases before <;> cases h
  | cons hook hooks ih =>
    cases hfate : fate env connOpen opts hook with
    | registers =>
      rw [raisesMidway_registers hfate,← ih]
      simp only [verdict,hfate]
    | refused =>
      simp only [verdict,hfate]
      exact iff_of_false (by simp) (not_raisesMidway_refused hfate)
    | raises =>
      simp only [verdict,hfate]
      refine iff_of_true trivial ⟨[],hook,hooks,rfl,?_,hfate⟩
      intro x hx
      cases hx

end Midway

inductive Finishes (env : Env Token) (pid : Nat) (w₀ : World Token) (names : List HookName) :
    Fate → World Token × Outcome XqliteError (List (HookKind × Nat)) → Prop
  | registers (w : World Token) (handles : List (HookKind × Nat))
      (hnames : handles.map (fun h => HookName.kind h.1) = names)
      (hgrown : Grown env pid w₀ w handles) : Finishes env pid w₀ names .registers (w,.ok handles)
  | refused (w : World Token) (e : XqliteError) (hsubs : ∀ k, subs w k = subs w₀ k)
      (hforwarders : w.forwarders = w₀.forwarders.filter fun p => p ≠ pid) :
      Finishes env pid w₀ names .refused (w,.error e)
  | raises (w : World Token) (hforwarders : w.forwarders = w₀.forwarders) :
      Finishes env pid w₀ names .raises (w,.crash)

/-- The invariant of the loop: the world has grown by the handles collected so far. -/
theorem registerPerConnHooks_finishes (env : Env Token) (pid : Nat) (opts : Term)
    {w₀ : World Token} (hids : ∀ k, ∀ s ∈ subs w₀ k, s.1 < nextHandle w₀ k)
    (hooks : List HookName) (acc : List (HookKind × Nat)) (w : World Token)
    (hgrown : Grown env pid w₀ w acc.reverse)
    (hspace : ∀ k, nextHandle w k + hooks.length < 2^64) :
    Finishes env pid w₀ (acc.reverse.map (fun h => HookName.kind h.1) ++ hooks)
      (verdict env w₀.connOpen opts hooks) (registerPerConnHooks env pid opts hooks acc w) := by
  induction hooks generalizing acc w with
  | nil => exact .registers w acc.reverse (List.append_nil _).symm hgrown
  | cons hook hooks ih =>
    have hends := registerPerConnHook_ends env pid opts w hook
    rw [hgrown.connOpen] at hends
    rw [verdict,registerPerConnHooks]
    cases hfate : fate env w₀.connOpen opts hook with
    | registers =>
      rw [hfate] at hends
      generalize registerPerConnHook env pid opts w hook = result at hends
      cases hends with
      | registers k sub w' hkind htarget hremovable hadds =>
        subst hkind
        have hnext : nextHandle w k + 1 < 2^64 := by
          have hk := hspace k
          simp only [List.length_cons] at hk
          omega
        have hgrown' : Grown env pid w₀ w' ((k,nextHandle w k) :: acc).reverse := by
          rw [List.reverse_cons]
          exact hgrown.snoc hadds htarget hremovable hids hnext
        have hspace' : ∀ k', nextHandle w' k' + hooks.length < 2^64 := by
          intro k'
          have hk := hspace k'
          simp only [List.length_cons] at hk
          by_cases hkk : k' = k
          · subst hkk
            rw [hadds.next_eq hnext]
            omega
          · rw [hadds.next_other k' hkk]
            omega
        have hrest := ih ((k,nextHandle w k) :: acc) w' hgrown' hspace'
        simpa using hrest
    | refused =>
      rw [hfate] at hends
      generalize registerPerConnHook env pid opts w hook = result at hends
      cases hends with
      | refused e =>
        refine .refused _ e (hgrown.undone fun x => List.mem_reverse.symm) ?_
        show (acc.foldl (unregisterHook env) w).forwarders.filter _ = _
        rw [(unregisterHooks_frame env acc w).2,hgrown.forwarders]
    | raises =>
      rw [hfate] at hends
      generalize registerPerConnHook env pid opts w hook = result at hends
      cases hends with
      | raises => exact .raises w hgrown.forwarders

/-- The subscriptions of every kind and the forwarders are what they were. -/
def NothingLeft (w w' : World Token) : Prop :=
  (∀ k, subs w' k = subs w k) ∧ w'.forwarders = w.forwarders

/-- One subscription of the forwarder for each listed hook, under a handle that was free,
and `unbridge` takes away these and no other. -/
structure Bridged (env : Env Token) (hooks : List HookName) (w w' : World Token) (b : Bridge) :
    Prop where
  one_each : b.hookHandles.map (fun h => HookName.kind h.1) = hooks
  added : ∀ k, ∃ new, subs w' k = subs w k ++ new ∧ new.map Prod.fst = handlesOf k b.hookHandles ∧
    ∀ s ∈ new, s.2.target = b.pid
  fresh : ∀ h ∈ b.hookHandles, ∀ s ∈ subs w h.1, s.1 ≠ h.2
  forwarder : w'.forwarders = w.forwarders ++ [b.pid]
  removes : ∀ later : World Token, later.connOpen = w.connOpen → ∀ k,
    subs (unbridge env b later) k = (subs later k).filter fun s => (k,s.1) ∉ b.hookHandles
  undone : NothingLeft w (unbridge env b w')

def Clean (env : Env Token) (hooks : List HookName) (w : World Token) :
    World Token × Outcome BridgeError Bridge → Prop
  | (w',.ok b) => Bridged env hooks w w' b
  | (w',_) => NothingLeft w w'

section Law
variable {env : Env Token} {w w' : World Token}

theorem startLink_stopped {n : Nat} (h : Room w n) :
    ((startLink w).1.forwarders.filter fun p => p ≠ w.nextPid) = w.forwarders := by
  have hold : (w.forwarders.filter fun p => p ≠ w.nextPid) = w.forwarders := by
    refine List.filter_eq_self.mpr ?_
    intro p hp
    have hlt := h.pids p hp
    exact decide_eq_true (Nat.ne_of_lt hlt)
  simpa [startLink] using hold

theorem not_nothingLeft (h : w'.forwarders = (startLink w).1.forwarders) :
    ¬ NothingLeft w w' := by
  intro hleft
  have hlength := congrArg List.length (h.symm.trans hleft.2)
  simp [startLink] at hlength

theorem Grown.bridged {n : Nat} (hroom : Room w n) {handles : List (HookKind × Nat)}
    {hooks : List HookName} (hnames : handles.map (fun h => HookName.kind h.1) = hooks)
    (hgrown : Grown env w.nextPid (startLink w).1 w' handles) (tag : Term) :
    Bridged env hooks w w' ⟨w.nextPid,tag,handles⟩ where
  one_each := hnames
  added k := by
    have hadded := hgrown.added k
    rwa [subs_startLink] at hadded
  fresh h hh s hs := hgrown.fresh h hh s (by rwa [subs_startLink])
  forwarder := hgrown.forwarders
  removes later hopen k := by
    refine subs_unregisterHooks env ?_ k
    intro h hh
    have hremovable := hgrown.removable h hh
    have hconn : w'.connOpen = w.connOpen := hgrown.connOpen
    rwa [hopen,← hconn]
  undone := by
    refine ⟨fun k => (hgrown.undone (fun _ => Iff.rfl) k).trans (subs_startLink w k),?_⟩
    show (handles.foldl (unregisterHook env) w').forwarders.filter _ = _
    rw [(unregisterHooks_frame env handles w').2,hgrown.forwarders]
    exact startLink_stopped hroom

theorem bridgePerConn_clean_iff {option : HooksOption} {hooks : List HookName}
    (hexpand : expandHooks option = some hooks) (hvalid : validateHooks hooks = .ok ())
    (hroom : Room w hooks.length) (tag opts : Term) :
    Clean env hooks w (bridgePerConn env w option tag opts) ↔
      env.telemetryEnabled = false ∨ ¬ RaisesMidway env w.connOpen opts hooks := by
  unfold bridgePerConn
  cases henabled : env.telemetryEnabled with
  | false => exact iff_of_true ⟨fun _ => rfl,rfl⟩ (.inl rfl)
  | true =>
    have hfinishes := registerPerConnHooks_finishes env w.nextPid opts
      (by simpa using hroom.ids) hooks [] (startLink w).1 (.nil env w.nextPid (startLink w).1)
      (by simpa using hroom.space)
    rw [← verdict_raises_iff]
    have hopen : (startLink w).1.connOpen = w.connOpen := rfl
    rw [hopen] at hfinishes
    simp only [hexpand,hvalid,Bool.not_true,Bool.false_eq_true,if_false,Bool.true_eq_false,false_or]
    have hpid : (startLink w).2 = w.nextPid := rfl
    simp only [hpid]
    generalize registerPerConnHooks env w.nextPid opts hooks [] (startLink w).1 = result
      at hfinishes ⊢
    generalize verdict env w.connOpen opts hooks = v at hfinishes ⊢
    cases hfinishes with
    | registers w' handles hnames hgrown =>
      exact iff_of_true (hgrown.bridged hroom hnames tag) (by simp)
    | refused w' e hsubs hforwarders =>
      refine iff_of_true ⟨?_,?_⟩ (by simp)
      · intro k
        rw [hsubs,subs_startLink]
      · rw [hforwarders]
        exact startLink_stopped hroom
    | raises w' hforwarders =>
      exact iff_of_false (not_nothingLeft hforwarders) (by simp)

/-- `bridge_log` has no branch that stops the forwarder again. -/
theorem bridgeLogGlobal_clean_iff (hroom : Room w 1) (tag : Term) :
    Clean env [.kind (.plain .log)] w (bridgeLogGlobal env w tag) ↔
      env.telemetryEnabled = false ∨
        (env.lockError = none ∧ (w.masterInstalled = true ∨ env.configError = none)) := by
  unfold bridgeLogGlobal
  cases henabled : env.telemetryEnabled with
  | false => exact iff_of_true ⟨fun _ => rfl,rfl⟩ (.inl rfl)
  | true =>
    have hpid : (startLink w).2 = w.nextPid := rfl
    simp only [Bool.not_true,Bool.false_eq_true,if_false,Bool.true_eq_false,false_or,hpid]
    by_cases hlog : env.lockError = none ∧ (w.masterInstalled = true ∨ env.configError = none)
    · obtain ⟨w',hregister,hadds⟩ :=
        registerLogHook_ok (w := (startLink w).1) w.nextPid hlog.1 hlog.2
      have hgrown := (Grown.nil env w.nextPid (startLink w).1).snoc hadds rfl hlog.1
        (by simpa using hroom.ids) (by simpa using hroom.space (.plain .log))
      rw [hregister]
      exact iff_of_true (hgrown.bridged hroom rfl tag) hlog
    · obtain ⟨e,he⟩ := registerLogHook_error (w := (startLink w).1) w.nextPid hlog
      rw [he]
      exact iff_of_false (not_nothingLeft rfl) hlog

end Law

/-- A failed bridge leaves nothing behind unless a hook raises after the forwarder is
started (`:all` or `nil` inside the list, or `:progress` options that do not decode) and no
hook before it was refused. A failed log bridge always leaves its forwarder. -/
theorem bridge_leaves_nothing_iff (env : Env Token) (w : World Token) (option : HooksOption)
    (hooks : List HookName) (hexpand : expandHooks option = some hooks)
    (hvalid : validateHooks hooks = .ok ()) (hroom : Room w (hooks.length+1)) (tag opts : Term) :
    (Clean env hooks w (bridgePerConn env w option tag opts) ↔
      env.telemetryEnabled = false ∨ ¬ RaisesMidway env w.connOpen opts hooks) ∧
    (Clean env [.kind (.plain .log)] w (bridgeLogGlobal env w tag) ↔
      env.telemetryEnabled = false ∨
        (env.lockError = none ∧ (w.masterInstalled = true ∨ env.configError = none))) :=
  ⟨bridgePerConn_clean_iff hexpand hvalid (hroom.mono (Nat.le_succ _)) tag opts,
    bridgeLogGlobal_clean_iff (hroom.mono (Nat.le_add_left 1 _)) tag⟩

def quietEnv : Env Unit := ⟨true,fun _ => 0,.success,none,some "misuse"⟩

def openedWorld : World Unit := .opened fun _ => false

theorem bridge_leaves_nothing_wal :
    Clean quietEnv [.kind (.plain .wal)] openedWorld
      (bridgePerConn quietEnv openedWorld (.list [.kind (.plain .wal)]) (.atom "nil") (.list [])) :=
  (bridge_leaves_nothing_iff quietEnv openedWorld (.list [.kind (.plain .wal)])
    [.kind (.plain .wal)] rfl rfl (room_opened _ (by decide)) (.atom "nil") (.list [])).1.mpr
      (.inr (by
        intro h
        have hverdict := (verdict_raises_iff quietEnv true (.list []) _).mpr h
        cases hverdict))

/-- `hooks: [:wal, :all]` and `[:wal, nil]` pass the validation and raise with the forwarder
running and subscribed; a log hook that SQLite refuses leaves its forwarder running. -/
theorem bridge_leaves_forwarder :
    (∀ bad ∈ [HookName.all,.other (.atom "nil")],
      validateHooks [.kind (.plain .wal),bad] = .ok () ∧
      (let bridged := bridgePerConn quietEnv openedWorld (.list [.kind (.plain .wal),bad])
        (.atom "nil") (.list [])
      bridged.2 = .crash ∧ bridged.1.forwarders = [0] ∧
        subs bridged.1 (.plain .wal) = [(1,.pid 0)])) ∧
    (let bridged := bridgeLogGlobal quietEnv openedWorld (.atom "nil")
    bridged.2 = .error (.native (.cannotExecute "sqlite3_config failed: misuse")) ∧
      bridged.1.forwarders = [0]) :=
  ⟨List.forall_mem_cons.mpr ⟨⟨rfl,rfl,rfl,rfl⟩,
    List.forall_mem_singleton.mpr ⟨rfl,rfl,rfl,rfl⟩⟩,rfl,rfl⟩

end Xqlite.Telemetry

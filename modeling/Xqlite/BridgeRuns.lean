import Xqlite.BridgeLaw
set_option autoImplicit false

namespace Xqlite.Telemetry

variable {Token : Type}

inductive Holder where
  | bridge (b : Bridge)
  | client (pid : Nat) (k : HookKind) (handle : Nat)

def Holder.handles : Holder → List (HookKind × Nat)
  | .bridge b => b.hookHandles
  | .client _ k handle => [(k,handle)]

def Holder.pid : Holder → Nat
  | .bridge b => b.pid
  | .client pid _ _ => pid

def Holder.forwarder : Holder → Option Nat
  | .bridge b => some b.pid
  | .client _ _ _ => none

def Holder.release (env : Env Token) : Holder → World Token → World Token
  | .bridge b,w => unbridge env b w
  | .client _ k handle,w => unregisterHook env w (k,handle)

/-- The subscriptions of one kind that stand behind what is held, with the process each
goes to. -/
def held (k : HookKind) (holders : List Holder) : List (Nat × Nat) :=
  holders.flatMap fun x => (handlesOf k x.handles).map fun id => (id,x.pid)

structure Site (Token : Type) where
  world : World Token
  holders : List Holder

/-- For a hook that is not one a subscription takes there is no function to call. -/
inductive Call where
  | bridge (option : HooksOption) (tag opts : Term)
  | bridgeLog (tag : Term)
  | subscribe (pid : Nat) (opts : Term) (hook : HookName)
  | subscribeLog (pid : Nat)
  | release (i : Nat)

def Site.took (s : Site Token) (x : Holder) (w : World Token) : Site Token :=
  ⟨w,s.holders ++ [x]⟩

def Site.bridged (s : Site Token) : World Token × Outcome BridgeError Bridge → Site Token
  | (w,.ok b) => s.took (.bridge b) w
  | (w,_) => { s with world := w }

def Site.subscribed (s : Site Token) (pid : Nat) (k : HookKind) : Registered Token → Site Token
  | (w,.ok handle) => s.took (.client pid k handle) w
  | (w,_) => { s with world := w }

def Site.call (env : Env Token) (s : Site Token) : Call → Site Token
  | .bridge option tag opts => s.bridged (bridgePerConn env s.world option tag opts)
  | .bridgeLog tag => s.bridged (bridgeLogGlobal env s.world tag)
  | .subscribe pid opts (.kind k) =>
    s.subscribed pid k (registerPerConnHook env pid opts s.world (.kind k))
  | .subscribe _ _ _ => s
  | .subscribeLog pid => s.subscribed pid (.plain .log) (registerLogHook env pid s.world)
  | .release i =>
    match s.holders[i]? with
    | none => s
    | some x => ⟨x.release env s.world,s.holders.eraseIdx i⟩

def Call.cost : Call → Nat
  | .bridge option _ _ => ((expandHooks option).getD []).length
  | .bridgeLog _ => 1
  | .subscribe _ _ _ => 1
  | .subscribeLog _ => 1
  | .release _ => 0

def cost : List Call → Nat
  | [] => 0
  | c :: calls => c.cost + cost calls

/-- The call does not raise or fail with its forwarder running. -/
def Call.Clean (env : Env Token) : Call → Prop
  | .bridge option _ opts => ∀ hooks, expandHooks option = some hooks →
    validateHooks hooks = .ok () →
      env.telemetryEnabled = false ∨ ¬RaisesMidway env true opts hooks
  | .bridgeLog _ =>
    env.telemetryEnabled = false ∨ env.lockError = none ∧ env.configError = none
  | _ => True

section Acts
variable {env : Env Token} {w : World Token} {n : Nat}

def Act.takes : Act → Bool
  | .register _ _ _ | .registerLog _ => true
  | _ => false

structure Tidy (w : World Token) (n : Nat) : Prop where
  room : Room w n
  ids : ∀ k, ((subs w k).map Prod.fst).Pairwise (· < ·)
  pids : w.forwarders.Pairwise (· < ·)
  connOpen : w.connOpen = true

theorem Tidy.mono {m : Nat} (h : Tidy w n) (hm : m ≤ n) : Tidy w m :=
  ⟨h.room.mono hm,h.ids,h.pids,h.connOpen⟩

theorem Tidy.adds (h : Tidy w (n+1)) {w' : World Token} {k : HookKind} {sub : Subscriber}
    (hadds : Adds k sub w w') : Tidy w' n where
  room := h.room.adds hadds
  ids k' := by
    by_cases hk : k' = k
    · subst hk
      rw [hadds.subs_self,List.map_append,List.map_singleton,List.pairwise_append]
      refine ⟨h.ids k',List.pairwise_singleton _ _,fun id hid handle hhandle => ?_⟩
      obtain ⟨s,hs,rfl⟩ := List.mem_map.mp hid
      rw [List.mem_singleton.mp hhandle]
      exact h.room.ids k' s hs
    · rw [hadds.subs_other k' hk]
      exact h.ids k'
  pids := by
    rw [hadds.forwarders]
    exact h.pids
  connOpen := hadds.connOpen.trans h.connOpen

theorem Tidy.unregister (h : Tidy w n) (x : HookKind × Nat) : Tidy (unregisterHook env w x) n where
  room := room_unregisterHook h.room env x
  ids k := by
    obtain ⟨k',handle⟩ := x
    by_cases hk : Removable env w.connOpen k'
    · rw [subs_unregisterHook env hk]
      exact (h.ids k).sublist ((List.filter_sublist).map _)
    · rw [unregisterHook_of_not_removable hk]
      exact h.ids k
  pids := by
    rw [(unregisterHook_frame env w x).2]
    exact h.pids
  connOpen := (unregisterHook_frame env w x).1.trans h.connOpen

theorem Tidy.start (h : Tidy w n) : Tidy (startLink w).1 n where
  room := room_startLink h.room
  ids k := by
    rw [subs_startLink]
    exact h.ids k
  pids := by
    refine List.pairwise_append.mpr ⟨h.pids,List.pairwise_singleton _ _,fun p hp q hq => ?_⟩
    rw [List.mem_singleton.mp hq]
    exact h.room.pids p hp
  connOpen := h.connOpen

theorem Tidy.stop (h : Tidy w n) (pid : Nat) : Tidy (stopForwarder pid w) n where
  room := room_stopForwarder h.room pid
  ids k := by
    rw [subs_stopForwarder]
    exact h.ids k
  pids := h.pids.sublist List.filter_sublist
  connOpen := h.connOpen

theorem Tidy.act (a : Act) (h : Tidy w (n + [a].countP Act.takes)) : Tidy (act env w a) n := by
  cases a with
  | register pid opts hook =>
    have hends := registerPerConnHook_ends env pid opts w hook
    show Tidy (registerPerConnHook env pid opts w hook).1 n
    generalize registerPerConnHook env pid opts w hook = result at hends ⊢
    generalize fate env w.connOpen opts hook = f at hends
    cases hends with
    | registers k sub w' hkind htarget hremovable hadds => exact Tidy.adds h hadds
    | refused e => exact h.mono (Nat.le_succ n)
    | raises => exact h.mono (Nat.le_succ n)
  | registerLog pid =>
    show Tidy (registerLogHook env pid w).1 n
    by_cases hlog : env.lockError = none ∧ (w.masterInstalled = true ∨ env.configError = none)
    · obtain ⟨w',hregister,hadds⟩ := registerLogHook_ok pid hlog.1 hlog.2
      rw [hregister]
      exact Tidy.adds h hadds
    · obtain ⟨e,he⟩ := registerLogHook_error pid hlog
      rw [he]
      exact h.mono (Nat.le_succ n)
  | unregister x => exact Tidy.unregister h x
  | start => exact Tidy.start h
  | stop pid => exact Tidy.stop h pid

theorem Tidy.run (acts : List Act) (h : Tidy w (n + acts.countP Act.takes)) :
    Tidy (acts.foldl (Telemetry.act env) w) n := by
  induction acts generalizing w with
  | nil => exact h
  | cons a acts ih =>
    refine ih (Tidy.act a ?_)
    rwa [Nat.add_assoc,Nat.add_comm (acts.countP Act.takes),← List.countP_append]

theorem countP_unregister (hs : List (HookKind × Nat)) (pid : Nat) :
    (hs.map Act.unregister ++ [Act.stop pid]).countP Act.takes = 0 := by
  rw [List.countP_eq_zero]
  intro a ha
  obtain ha | ha := List.mem_append.mp ha
  · obtain ⟨x,-,rfl⟩ := List.mem_map.mp ha
    simp [Act.takes]
  · rw [List.mem_singleton.mp ha]
    simp [Act.takes]

theorem registerPerConnHooks_acts (env : Env Token) (pid : Nat) (opts : Term)
    (hooks : List HookName) (acc : List (HookKind × Nat)) (w : World Token) :
    ∃ acts : List Act, (registerPerConnHooks env pid opts hooks acc w).1 = acts.foldl (act env) w ∧
      acts.countP Act.takes ≤ hooks.length := by
  induction hooks generalizing acc w with
  | nil => exact ⟨[],rfl,le_rfl⟩
  | cons hook hooks ih =>
    have hact : act env w (.register pid opts hook) =
        (registerPerConnHook env pid opts w hook).1 := rfl
    rw [registerPerConnHooks]
    generalize registerPerConnHook env pid opts w hook = result at hact
    obtain ⟨w',out⟩ := result
    have hone : ∃ acts : List Act, w' = acts.foldl (act env) w ∧
        acts.countP Act.takes ≤ (hook :: hooks).length :=
      ⟨[.register pid opts hook],hact.symm,Nat.succ_le_succ (Nat.zero_le _)⟩
    cases out with
    | ok handle =>
      cases hook with
      | kind k =>
        obtain ⟨acts,hacts,hcount⟩ := ih ((k,handle) :: acc) w'
        refine ⟨.register pid opts (.kind k) :: acts,?_,?_⟩
        · rw [List.foldl_cons,hact]
          exact hacts
        · rw [List.countP_cons_of_pos rfl]
          exact Nat.succ_le_succ hcount
      | all => exact hone
      | other t => exact hone
    | error e =>
      refine ⟨.register pid opts hook :: (acc.map Act.unregister ++ [.stop pid]),?_,?_⟩
      · rw [List.foldl_cons,hact,List.foldl_append,List.foldl_map]
        rfl
      · rw [List.countP_cons_of_pos rfl,countP_unregister]
        exact Nat.succ_le_succ (Nat.zero_le _)
    | crash => exact hone

theorem Tidy.bridgePerConn {option : HooksOption} {tag opts : Term}
    (h : Tidy w (n + (Call.bridge option tag opts).cost)) :
    Tidy (Telemetry.bridgePerConn env w option tag opts).1 n := by
  have hsame : Tidy w n := h.mono (Nat.le_add_right n _)
  unfold Telemetry.bridgePerConn
  cases env.telemetryEnabled with
  | false => exact hsame
  | true =>
    cases hexpand : expandHooks option with
    | none => exact hsame
    | some hooks =>
      cases hvalid : validateHooks hooks with
      | error e => simpa [hvalid] using hsame
      | ok _ =>
        have hcost : (Call.bridge option tag opts).cost = hooks.length := by
          simp [Call.cost,hexpand]
        rw [hcost] at h
        obtain ⟨acts,hacts,hcount⟩ :=
          registerPerConnHooks_acts env w.nextPid opts hooks [] (startLink w).1
        have htidy : Tidy (registerPerConnHooks env w.nextPid opts hooks [] (startLink w).1).1 n := by
          rw [hacts]
          exact Tidy.run acts (h.start.mono (Nat.add_le_add_left hcount n))
        have hpid : (startLink w).2 = w.nextPid := rfl
        simp only [hvalid,hpid,Bool.not_true,Bool.false_eq_true,if_false]
        generalize registerPerConnHooks env w.nextPid opts hooks [] (startLink w).1 = result at htidy
        obtain ⟨w',out⟩ := result
        cases out <;> exact htidy

theorem Tidy.bridgeLogGlobal {tag : Term} (h : Tidy w (n+1)) :
    Tidy (Telemetry.bridgeLogGlobal env w tag).1 n := by
  unfold Telemetry.bridgeLogGlobal
  cases env.telemetryEnabled with
  | false => exact h.mono (Nat.le_succ n)
  | true =>
    have hact : Tidy (Telemetry.act env (startLink w).1 (.registerLog w.nextPid)) n :=
      Tidy.act (.registerLog w.nextPid) h.start
    have htidy : Tidy (registerLogHook env w.nextPid (startLink w).1).1 n := hact
    have hpid : (startLink w).2 = w.nextPid := rfl
    simp only [hpid,Bool.not_true,Bool.false_eq_true,if_false]
    generalize registerLogHook env w.nextPid (startLink w).1 = result at htidy
    obtain ⟨w',out⟩ := result
    cases out <;> exact htidy

theorem Tidy.release (h : Tidy w n) (x : Holder) : Tidy (x.release env w) n := by
  cases x with
  | bridge b =>
    have hrun : Tidy ((b.hookHandles.map Act.unregister ++ [Act.stop b.pid]).foldl
        (Telemetry.act env) w) n := by
      refine Tidy.run _ ?_
      rw [countP_unregister]
      exact h
    rw [List.foldl_append,List.foldl_map] at hrun
    exact hrun
  | client pid k handle => exact h.unregister (k,handle)

end Acts

section Books
variable {env : Env Token} {s : Site Token} {n : Nat}

def Releasable (env : Env Token) (x : Holder) : Prop :=
  ∀ w : World Token, w.connOpen = true → ∀ k, subs (x.release env w) k =
    (subs w k).filter fun y => decide ((k,y.1) ∉ x.handles)

/-- The books balance: every subscription is held by someone, in the order they were
taken, and every forwarder belongs to a bridge that is held. -/
structure Balanced (env : Env Token) (n : Nat) (s : Site Token) : Prop where
  tidy : Tidy s.world n
  subs : ∀ k, (subs s.world k).map (fun x => (x.1,x.2.target)) = held k s.holders
  forwarders : s.world.forwarders = s.holders.filterMap Holder.forwarder
  releasable : ∀ x ∈ s.holders, Releasable env x

theorem held_append (k : HookKind) (xs ys : List Holder) :
    held k (xs ++ ys) = held k xs ++ held k ys := List.flatMap_append

theorem Balanced.took {m : Nat} (h : Balanced env m s) {w : World Token} {x : Holder}
    (htidy : Tidy w n)
    (hadded : ∀ k, ∃ new, Telemetry.subs w k = Telemetry.subs s.world k ++ new ∧
      new.map Prod.fst = handlesOf k x.handles ∧ ∀ y ∈ new, y.2.target = x.pid)
    (hforwarders : w.forwarders = s.world.forwarders ++ x.forwarder.toList)
    (hreleasable : Releasable env x) : Balanced env n (s.took x w) where
  tidy := htidy
  subs k := by
    obtain ⟨new,hnew,hhandles,htargets⟩ := hadded k
    have htarget : new.map (fun y => (y.1,y.2.target)) = new.map fun y => (y.1,x.pid) :=
      List.map_congr_left fun y hy => by rw [htargets y hy]
    show (Telemetry.subs w k).map _ = held k (s.holders ++ [x])
    rw [hnew,List.map_append,h.subs,held_append,htarget]
    simp only [held,List.flatMap_singleton,← hhandles,List.map_map]
    rfl
  forwarders := by
    show w.forwarders = (s.holders ++ [x]).filterMap Holder.forwarder
    rw [hforwarders,h.forwarders,List.filterMap_append]
    cases hx : x.forwarder <;> simp [hx]
  releasable y hy := by
    obtain hy | hy := List.mem_append.mp hy
    · exact h.releasable y hy
    · rw [List.mem_singleton.mp hy]
      exact hreleasable

theorem Balanced.failed {m : Nat} (h : Balanced env m s) {w : World Token} (htidy : Tidy w n)
    (hleft : NothingLeft s.world w) : Balanced env n { s with world := w } where
  tidy := htidy
  subs k := by
    rw [hleft.1 k]
    exact h.subs k
  forwarders := hleft.2.trans h.forwarders
  releasable := h.releasable

theorem filter_middle {α β : Type} [DecidableEq β] {f : α → β} {a b c : List α}
    (h : ((a ++ b ++ c).map f).Nodup) :
    (a ++ b ++ c).filter (fun y => decide (f y ∉ b.map f)) = a ++ c := by
  simp only [List.map_append,List.nodup_append] at h
  obtain ⟨⟨-,-,hab⟩,-,habc⟩ := h
  have ha : a.filter (fun y => decide (f y ∉ b.map f)) = a := by
    refine List.filter_eq_self.mpr fun y hy => decide_eq_true fun hb => ?_
    exact hab _ (List.mem_map_of_mem hy) _ hb rfl
  have hc : c.filter (fun y => decide (f y ∉ b.map f)) = c := by
    refine List.filter_eq_self.mpr fun y hy => decide_eq_true fun hb => ?_
    exact habc _ (List.mem_append_right _ hb) _ (List.mem_map_of_mem hy) rfl
  have hb : b.filter (fun y => decide (f y ∉ b.map f)) = [] := by
    refine List.filter_eq_nil_iff.mpr fun y hy => ?_
    simpa using ⟨y,hy,rfl⟩
  rw [List.filter_append,List.filter_append,ha,hb,hc,List.append_nil]

theorem release_forwarders (x : Holder) (w : World Token) :
    (x.release env w).forwarders =
      w.forwarders.filter fun p => decide (p ∉ x.forwarder.toList) := by
  cases x with
  | bridge b =>
    show (b.hookHandles.foldl (unregisterHook env) w).forwarders.filter _ = _
    rw [(unregisterHooks_frame env b.hookHandles w).2]
    exact List.filter_congr fun p _ => by simp [Holder.forwarder]
  | client pid k handle =>
    show (unregisterHook env w (k,handle)).forwarders = _
    rw [(unregisterHook_frame env w (k,handle)).2]
    simp [Holder.forwarder]

theorem Balanced.released (h : Balanced env n s) {before after : List Holder} {x : Holder}
    (hholders : s.holders = before ++ x :: after) :
    Balanced env n ⟨x.release env s.world,before ++ after⟩ where
  tidy := h.tidy.release x
  subs k := by
    have hsubs := h.releasable x (hholders ▸ List.mem_append_right _ List.mem_cons_self)
      s.world h.tidy.connOpen k
    have hheld := h.subs k
    have hsplit : held k s.holders =
        held k before ++ (handlesOf k x.handles).map (fun id => (id,x.pid)) ++ held k after := by
      rw [hholders,held_append,List.append_assoc]
      rfl
    have hids : (held k s.holders).map Prod.fst = (Telemetry.subs s.world k).map Prod.fst := by
      rw [← hheld,List.map_map]
      rfl
    have hnodup : ((held k s.holders).map Prod.fst).Nodup :=
      hids ▸ (h.tidy.ids k).imp fun hlt => Nat.ne_of_lt hlt
    rw [hsplit] at hnodup
    have hmiddle := filter_middle hnodup
    have hkeys : ((handlesOf k x.handles).map (fun id => (id,x.pid))).map Prod.fst =
        handlesOf k x.handles := by simp [Function.comp_def]
    rw [hkeys] at hmiddle
    show (Telemetry.subs (x.release env s.world) k).map _ = held k (before ++ after)
    rw [held_append,← hmiddle,← hsplit,← hheld,List.filter_map,hsubs]
    refine congrArg _ (List.filter_congr fun y _ => ?_)
    simp [mem_handlesOf]
  forwarders := by
    have hsplit : s.world.forwarders = before.filterMap Holder.forwarder ++ x.forwarder.toList ++
        after.filterMap Holder.forwarder := by
      rw [h.forwarders,hholders,List.filterMap_append]
      cases hx : x.forwarder <;> simp [hx]
    have hnodup : (s.world.forwarders.map id).Nodup := by
      rw [List.map_id]
      exact h.tidy.pids.imp fun hlt => Nat.ne_of_lt hlt
    rw [hsplit] at hnodup
    have hmiddle := filter_middle hnodup
    rw [List.map_id,← hsplit] at hmiddle
    show (x.release env s.world).forwarders = (before ++ after).filterMap Holder.forwarder
    rw [release_forwarders,List.filterMap_append]
    exact hmiddle
  releasable y hy := by
    refine h.releasable y ?_
    rw [hholders]
    obtain hy | hy := List.mem_append.mp hy
    · exact List.mem_append_left _ hy
    · exact List.mem_append_right _ (List.mem_cons_of_mem _ hy)

theorem balanced_of_clean {m : Nat} (h : Balanced env m s) {hooks : List HookName}
    {result : World Token × Outcome BridgeError Bridge} (hclean : Clean env hooks s.world result)
    (htidy : Tidy result.1 n) :
    Balanced env n (s.bridged result) := by
  obtain ⟨w,out⟩ := result
  cases out with
  | ok b =>
    have hbridged : Bridged env hooks s.world w b := hclean
    refine h.took htidy hbridged.added hbridged.forwarder fun later hopen k => ?_
    exact hbridged.removes later (hopen.trans h.tidy.connOpen.symm) k
  | error e => exact h.failed htidy hclean
  | crash => exact h.failed htidy hclean

theorem balanced_subscribed (h : Balanced env (n+1) s) {k : HookKind} {sub : Subscriber}
    {w : World Token} {pid : Nat} (hadds : Adds k sub s.world w) (htarget : sub.target = pid)
    (hremovable : Removable env s.world.connOpen k) :
    Balanced env n (s.took (.client pid k (nextHandle s.world k)) w) := by
  refine h.took (h.tidy.adds hadds) ?_ (hadds.forwarders.trans (List.append_nil _).symm) ?_
  · intro k'
    by_cases hk : k' = k
    · subst hk
      refine ⟨[(nextHandle s.world k',sub)],hadds.subs_self,?_,?_⟩
      · simp [handlesOf,Holder.handles]
      · intro y hy
        rw [List.mem_singleton.mp hy]
        exact htarget
    · refine ⟨[],by rw [hadds.subs_other k' hk,List.append_nil],?_,?_⟩
      · simp [handlesOf,Holder.handles,Ne.symm hk]
      · intro y hy
        exact absurd hy List.not_mem_nil
  · intro later hopen k'
    rw [h.tidy.connOpen,← hopen] at hremovable
    have hsubs := subs_unregisterHook env hremovable (nextHandle s.world k) k'
    simpa [Holder.release,Holder.handles] using hsubs

theorem bridgePerConn_clean {w : World Token} {option : HooksOption} {tag opts : Term}
    (hroom : Room w (Call.bridge option tag opts).cost) (hopen : w.connOpen = true)
    (hclean : (Call.bridge option tag opts).Clean env) :
    ∃ hooks, Clean env hooks w (bridgePerConn env w option tag opts) := by
  have hnothing : NothingLeft w w := ⟨fun _ => rfl,rfl⟩
  cases hexpand : expandHooks option with
  | none =>
    refine ⟨[],?_⟩
    cases henabled : env.telemetryEnabled <;>
      simpa [bridgePerConn,hexpand,henabled,Telemetry.Clean] using hnothing
  | some hooks =>
    cases hvalid : validateHooks hooks with
    | error e =>
      refine ⟨[],?_⟩
      cases henabled : env.telemetryEnabled <;>
        simpa [bridgePerConn,hexpand,hvalid,henabled,Telemetry.Clean] using hnothing
    | ok _ =>
      have hcost : (Call.bridge option tag opts).cost = hooks.length := by
        simp [Call.cost,hexpand]
      refine ⟨hooks,(bridgePerConn_clean_iff hexpand hvalid (hcost ▸ hroom) tag opts).mpr ?_⟩
      rw [hopen]
      exact hclean hooks hexpand hvalid

theorem Balanced.call {c : Call} (h : Balanced env (n + c.cost) s) (hclean : c.Clean env) :
    Balanced env n (s.call env c) := by
  have hless : Tidy s.world n := h.tidy.mono (Nat.le_add_right n _)
  cases c with
  | bridge option tag opts =>
    obtain ⟨hooks,hbridge⟩ := bridgePerConn_clean
      (h.tidy.room.mono (Nat.le_add_left _ n)) h.tidy.connOpen hclean
    exact balanced_of_clean h hbridge h.tidy.bridgePerConn
  | bridgeLog tag =>
    have hlog : Telemetry.Clean env [.kind (.plain .log)] s.world
        (bridgeLogGlobal env s.world tag) := by
      refine (bridgeLogGlobal_clean_iff (h.tidy.room.mono (Nat.le_add_left _ n)) tag).mpr ?_
      exact hclean.imp id fun hlog => ⟨hlog.1,.inr hlog.2⟩
    exact balanced_of_clean h hlog h.tidy.bridgeLogGlobal
  | subscribe pid opts hook =>
    have hsame : Balanced env n s := { h with tidy := hless }
    cases hook with
    | all => exact hsame
    | other t => exact hsame
    | kind k =>
      have hends := registerPerConnHook_ends env pid opts s.world (.kind k)
      simp only [Site.call]
      generalize registerPerConnHook env pid opts s.world (.kind k) = result at hends ⊢
      generalize fate env s.world.connOpen opts (.kind k) = f at hends
      cases hends with
      | registers k' sub w' hkind htarget hremovable hadds =>
        cases hkind
        exact balanced_subscribed h hadds htarget hremovable
      | refused e => exact hsame
      | raises => exact hsame
  | subscribeLog pid =>
    simp only [Site.call]
    by_cases hlog : env.lockError = none ∧
        (s.world.masterInstalled = true ∨ env.configError = none)
    · obtain ⟨w',hregister,hadds⟩ := registerLogHook_ok pid hlog.1 hlog.2
      rw [hregister]
      exact balanced_subscribed h hadds rfl hlog.1
    · obtain ⟨e,he⟩ := registerLogHook_error pid hlog
      rw [he]
      exact { h with tidy := hless }
  | release i =>
    simp only [Site.call]
    cases hx : s.holders[i]? with
    | none => exact h
    | some x =>
      obtain ⟨hi,hget⟩ := List.getElem?_eq_some_iff.mp hx
      have hsplit : s.holders = s.holders.take i ++ x :: s.holders.drop (i+1) := by
        rw [← hget,List.getElem_cons_drop,List.take_append_drop]
      show Balanced env n ⟨x.release env s.world,s.holders.eraseIdx i⟩
      rw [List.eraseIdx_eq_take_drop_succ]
      exact Balanced.released h hsplit

theorem Balanced.run (calls : List Call) (h : Balanced env (n + cost calls) s)
    (hclean : ∀ c ∈ calls, c.Clean env) : Balanced env n (calls.foldl (Site.call env) s) := by
  induction calls generalizing s with
  | nil => exact h
  | cons c calls ih =>
    rw [List.forall_mem_cons] at hclean
    refine ih (Balanced.call ?_ hclean.1) hclean.2
    rwa [Nat.add_assoc,Nat.add_comm (cost calls)]

end Books

def sited (env : Env Token) (signalled : Token → Bool) (calls : List Call) : Site Token :=
  calls.foldl (Site.call env) ⟨.opened signalled,[]⟩

theorem balanced_opened (env : Env Token) (signalled : Token → Bool) {n : Nat}
    (hn : n + 1 < 2^64) : Balanced env n ⟨.opened signalled,[]⟩ where
  tidy := by
    refine ⟨room_opened signalled hn,fun k => ?_,List.Pairwise.nil,rfl⟩
    cases k <;> exact List.Pairwise.nil
  subs k := by cases k <;> rfl
  forwarders := rfl
  releasable _ hx := nomatch hx

/-- In every order of bridging, subscribing and releasing, the subscriber lists hold what
the bridges and subscribers of the moment were given, in the order they were given it, and
nothing else; the forwarders are those of the bridges. Nobody's release takes away what
another holds, and none leaves anything behind. -/
theorem every_subscription_held (env : Env Token) (signalled : Token → Bool) (calls : List Call)
    (hclean : ∀ c ∈ calls, c.Clean env) (hspace : cost calls + 1 < 2^64) :
    (∀ k, (subs (sited env signalled calls).world k).map (fun x => (x.1,x.2.target)) =
      held k (sited env signalled calls).holders) ∧
    (sited env signalled calls).world.forwarders =
      (sited env signalled calls).holders.filterMap Holder.forwarder := by
  have hbalanced : Balanced env 0 (sited env signalled calls) :=
    Balanced.run calls (balanced_opened env signalled (by omega)) hclean
  exact ⟨hbalanced.subs,hbalanced.forwarders⟩

def busyCalls : List Call :=
  [.bridge (.list [.kind .busy,.kind (.plain .wal)]) (.atom "nil") (.list []),
    .subscribe 7 (.list []) (.kind .busy),
    .bridge (.list [.kind .busy]) (.atom "nil") (.list []),
    .release 0]

/-- Two bridges and a subscriber watch for busy events, and the first bridge goes. -/
theorem every_subscription_held_busy :
    (subs (sited quietEnv (fun _ => false) busyCalls).world .busy).map
        (fun x => (x.1,x.2.target)) = [(1,7),(2,1)] ∧
      (sited quietEnv (fun _ => false) busyCalls).world.forwarders = [1] := by
  have hclean : ∀ c ∈ busyCalls, c.Clean quietEnv := by
    simp only [busyCalls,List.forall_mem_cons]
    refine ⟨?_,trivial,?_,trivial,by simp⟩
    · rintro hooks ⟨⟩ -
      exact .inr fun h => nomatch (verdict_raises_iff quietEnv true (.list []) _).mpr h
    · rintro hooks ⟨⟩ -
      exact .inr fun h => nomatch (verdict_raises_iff quietEnv true (.list []) _).mpr h
  obtain ⟨hsubs,hforwarders⟩ :=
    every_subscription_held quietEnv (fun _ => false) busyCalls hclean (by decide)
  exact ⟨(hsubs .busy).trans rfl,hforwarders.trans rfl⟩

end Xqlite.Telemetry

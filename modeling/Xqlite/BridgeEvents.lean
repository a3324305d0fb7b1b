import Xqlite.BridgeRuns
import Xqlite.Forwarder
set_option autoImplicit false

namespace Xqlite.Telemetry
open Forwarder (Notice Delivered serve)

variable {Token : Type}

section Source

def hookOf : Notice → HookKind
  | .wal _ _ => .plain .wal
  | .commit => .plain .commit
  | .rollback => .plain .rollback
  | .update _ _ _ _ => .plain .update
  | .progress _ _ _ => .progress
  | .busy _ _ => .busy
  | .log _ _ => .plain .log

/-- A callback tells every subscriber of its hook the same; a tick goes to one subscriber,
with the numbers that are its own. -/
inductive Firing where
  | all (n : Notice)
  | tick (handle count elapsedMs : Nat)

def ticksOf (w : World Token) : List (Hook.HookEntry Progress.TickSubscriber) :=
  w.progress.dispatch.ticks.entries

def Firing.sends (w : World Token) : Firing → List (Nat × Notice)
  | .all n =>
    if hookOf n = .progress then [] else (subs w (hookOf n)).map fun s => (s.2.target,n)
  | .tick handle count elapsedMs =>
    ((ticksOf w).filter fun e => e.id = handle).map fun e =>
      (e.state.pid,.progress e.state.tagBytes count elapsedMs)

inductive Happening where
  | call (c : Call)
  | fires (f : Firing)

structure Scene (Token : Type) where
  site : Site Token
  mail : List (Nat × Notice)

def Scene.step (env : Env Token) (s : Scene Token) : Happening → Scene Token
  | .call c => { s with site := s.site.call env c }
  | .fires f => { s with mail := s.mail ++ f.sends s.site.world }

def Scene.opened (signalled : Token → Bool) : Scene Token := ⟨⟨.opened signalled,[]⟩,[]⟩

def Scene.run (env : Env Token) (s : Scene Token) (hs : List Happening) : Scene Token :=
  hs.foldl (Scene.step env) s

def Scene.mailbox (s : Scene Token) (p : Nat) : List Notice :=
  (s.mail.filter fun m => m.1 = p).map Prod.snd

def Happening.cost : Happening → Nat
  | .call c => c.cost
  | .fires _ => 0

def costs : List Happening → Nat
  | [] => 0
  | h :: hs => h.cost + costs hs

def Happening.Clean (env : Env Token) : Happening → Prop
  | .call c => c.Clean env
  | .fires _ => True

/-- No one but the bridge subscribes its process. -/
def Happening.Spares (p : Nat) : Happening → Prop
  | .call (.subscribe pid _ _) | .call (.subscribeLog pid) => pid ≠ p
  | _ => True

def progressTag (opts : Term) : Option (List UInt8) := (progressArgs opts).bind Prod.snd

/-- What a bridge is to hear of: each firing of a hook once for each of its handles. -/
def told (b : Bridge) (tag : Option (List UInt8)) : Happening → List Notice
  | .call _ => []
  | .fires (.all n) =>
    if hookOf n = .progress then []
    else List.replicate (handlesOf (hookOf n) b.hookHandles).length n
  | .fires (.tick handle count elapsedMs) =>
    if handle ∈ handlesOf .progress b.hookHandles then [.progress tag count elapsedMs] else []

end Source

section Calls
variable {env : Env Token} {s : Site Token} {w : World Token}

/-- Pids are handed out in order, and whoever is new among the tick subscribers is the one
that was asked for. -/
structure Advances (asked : Progress.TickSubscriber → Prop) (w w' : World Token) : Prop where
  nextPid : w.nextPid ≤ w'.nextPid
  ticks : ∀ e ∈ ticksOf w', e ∈ ticksOf w ∨ asked e.state

variable {asked : Progress.TickSubscriber → Prop} {w' w'' : World Token}

theorem Advances.refl (w : World Token) : Advances asked w w := ⟨le_rfl,fun _ he => .inl he⟩

theorem Advances.trans (h : Advances asked w w') (h' : Advances asked w' w'') :
    Advances asked w w'' where
  nextPid := h.nextPid.trans h'.nextPid
  ticks e he := (h'.ticks e he).elim (h.ticks e) .inr

/-- The tick subscribers of `pid` that the `:progress` option asks for. -/
def Asked (pid : Nat) (opts : Term) (t : Progress.TickSubscriber) : Prop :=
  t.pid = pid ∧ t.tagBytes = progressTag opts

theorem mem_ticksOf (w : World Token) (e : Hook.HookEntry Progress.TickSubscriber) :
    (e.id,Subscriber.tick e.state) ∈ subs w .progress ↔ e ∈ ticksOf w := by
  refine ⟨fun h => ?_,fun h => List.mem_map_of_mem h⟩
  obtain ⟨e',he',heq⟩ := List.mem_map.mp h
  cases e'
  cases e
  cases heq
  exact he'

theorem advances_of_adds {k : HookKind} {sub : Subscriber} (hk : k ≠ .progress)
    (h : Adds k sub w w') : Advances asked w w' where
  nextPid := h.nextPid.ge
  ticks e he := by
    rw [← mem_ticksOf,h.subs_other .progress (Ne.symm hk),mem_ticksOf] at he
    exact .inl he

theorem advances_registerProgressHook (pid everyN : Nat) {opts : Term}
    {tag : Option (List UInt8)} (hargs : progressArgs opts = some (everyN,tag)) :
    Advances (Asked pid opts) w (registerProgressHook env pid everyN tag w).1 := by
  unfold registerProgressHook
  by_cases hzero : everyN = 0
  · simp only [hzero,ne_eq,not_true,false_and,if_false,Progress.registerProgressHook,if_true]
    exact .refl w
  · by_cases hopen : w.connOpen = false
    · rw [if_pos ⟨hzero,hopen⟩]
      exact .refl w
    · rw [if_neg (fun h => hopen h.2)]
      refine ⟨le_rfl,fun e he => ?_⟩
      simp only [ticksOf,Progress.registerProgressHook,hzero,if_false] at he
      rw [Hook.register_entries] at he
      obtain he | he := List.mem_append.mp he
      · exact .inl he
      · rw [List.mem_singleton.mp he]
        exact .inr ⟨rfl,by rw [progressTag,hargs]; rfl⟩

theorem advances_register (pid : Nat) (opts : Term) (w : World Token) (hook : HookName) :
    Advances (Asked pid opts) w (registerPerConnHook env pid opts w hook).1 := by
  have hends := registerPerConnHook_ends env pid opts w hook
  by_cases hhook : hook = .kind .progress
  · subst hhook
    unfold registerPerConnHook
    cases hargs : progressArgs opts with
    | none => exact .refl w
    | some args => exact advances_registerProgressHook pid args.1 hargs
  · generalize registerPerConnHook env pid opts w hook = result at hends ⊢
    generalize fate env w.connOpen opts hook = f at hends
    cases hends with
    | registers k sub w' hkind htarget hremovable hadds =>
      exact advances_of_adds (fun hk => hhook (hk ▸ hkind)) hadds
    | refused e => exact .refl w
    | raises => exact .refl w

theorem advances_registerLog (pid : Nat) (w : World Token) :
    Advances asked w (registerLogHook env pid w).1 := by
  by_cases hlog : env.lockError = none ∧ (w.masterInstalled = true ∨ env.configError = none)
  · obtain ⟨w',hregister,hadds⟩ := registerLogHook_ok pid hlog.1 hlog.2
    rw [hregister]
    exact advances_of_adds (by decide) hadds
  · obtain ⟨e,he⟩ := registerLogHook_error pid hlog
    rw [he]
    exact .refl w

theorem advances_unregister (w : World Token) (x : HookKind × Nat) :
    Advances asked w (unregisterHook env w x) where
  nextPid := (unregisterHook_nextPid env w x).ge
  ticks e he := by
    obtain ⟨k,handle⟩ := x
    by_cases hk : Removable env w.connOpen k
    · rw [← mem_ticksOf,subs_unregisterHook env hk] at he
      exact .inl ((mem_ticksOf w e).mp (List.mem_filter.mp he).1)
    · rw [unregisterHook_of_not_removable hk] at he
      exact .inl he

theorem advances_unregisters (hs : List (HookKind × Nat)) (w : World Token) :
    Advances asked w (hs.foldl (unregisterHook env) w) := by
  induction hs generalizing w with
  | nil => exact .refl w
  | cons x hs ih => exact (advances_unregister w x).trans (ih _)

theorem advances_stop (pid : Nat) (w : World Token) : Advances asked w (stopForwarder pid w) :=
  ⟨le_rfl,fun _ he => .inl he⟩

theorem advances_registers (pid : Nat) (opts : Term) (hooks : List HookName)
    (acc : List (HookKind × Nat)) (w : World Token) :
    Advances (Asked pid opts) w (registerPerConnHooks env pid opts hooks acc w).1 := by
  induction hooks generalizing acc w with
  | nil => exact .refl w
  | cons hook hooks ih =>
    have hone : Advances (Asked pid opts) w (registerPerConnHook env pid opts w hook).1 :=
      advances_register pid opts w hook
    rw [registerPerConnHooks]
    generalize registerPerConnHook env pid opts w hook = result at hone
    obtain ⟨w',out⟩ := result
    cases out with
    | ok handle =>
      cases hook with
      | kind k => exact hone.trans (ih _ w')
      | all => exact hone
      | other t => exact hone
    | error e => exact hone.trans ((advances_unregisters acc w').trans (advances_stop pid _))
    | crash => exact hone

/-- A bridging call that starts no forwarder changes nothing; one that does starts it under
the next pid and works from there. -/
theorem bridgePerConn_starts (env : Env Token) (w : World Token) (option : HooksOption) (tag opts : Term) :
    ((bridgePerConn env w option tag opts).1 = w ∧
      ∀ b, (bridgePerConn env w option tag opts).2 ≠ .ok b) ∨
    Advances (Asked w.nextPid opts) (startLink w).1 (bridgePerConn env w option tag opts).1 ∧
      ∀ b, (bridgePerConn env w option tag opts).2 = .ok b → b.pid = w.nextPid := by
  unfold bridgePerConn
  cases env.telemetryEnabled with
  | false => exact .inl ⟨rfl,nofun⟩
  | true =>
    cases expandHooks option with
    | none => exact .inl ⟨rfl,nofun⟩
    | some hooks =>
      cases hvalid : validateHooks hooks with
      | error e =>
        simp only [hvalid]
        exact .inl ⟨rfl,nofun⟩
      | ok _ =>
        have hstart : Advances (Asked w.nextPid opts) (startLink w).1
            (registerPerConnHooks env w.nextPid opts hooks [] (startLink w).1).1 :=
          advances_registers w.nextPid opts hooks [] _
        have hpid : (startLink w).2 = w.nextPid := rfl
        simp only [hvalid,hpid,Bool.not_true,Bool.false_eq_true,if_false]
        generalize registerPerConnHooks env w.nextPid opts hooks [] (startLink w).1 = result
          at hstart
        obtain ⟨w',out⟩ := result
        cases out with
        | ok handles => exact .inr ⟨hstart,fun b hb => by cases hb; rfl⟩
        | error e => exact .inr ⟨hstart,nofun⟩
        | crash => exact .inr ⟨hstart,nofun⟩

theorem bridgeLogGlobal_starts (w : World Token) (tag : Term) :
    ((bridgeLogGlobal env w tag).1 = w ∧ ∀ b, (bridgeLogGlobal env w tag).2 ≠ .ok b) ∨
    (∀ asked, Advances asked (startLink w).1 (bridgeLogGlobal env w tag).1) ∧
      ∀ b, (bridgeLogGlobal env w tag).2 = .ok b → b.pid = w.nextPid := by
  unfold bridgeLogGlobal
  cases env.telemetryEnabled with
  | false => exact .inl ⟨rfl,nofun⟩
  | true =>
    have hstart : ∀ asked, Advances asked (startLink w).1
        (registerLogHook env w.nextPid (startLink w).1).1 :=
      fun _ => advances_registerLog w.nextPid _
    have hpid : (startLink w).2 = w.nextPid := rfl
    simp only [hpid,Bool.not_true,Bool.false_eq_true,if_false]
    generalize registerLogHook env w.nextPid (startLink w).1 = result at hstart
    obtain ⟨w',out⟩ := result
    cases out with
    | ok handle => exact .inr ⟨hstart,fun b hb => by cases hb; rfl⟩
    | error e => exact .inr ⟨hstart,nofun⟩
    | crash => exact .inr ⟨hstart,nofun⟩

/-- What a call can do to the holders: it lets one go, or there is one more, with a pid of
its own or the one that was subscribed. -/
structure Moves (c : Call) (s s' : Site Token) : Prop where
  nextPid : s.world.nextPid ≤ s'.world.nextPid
  holders : ∀ x ∈ s'.holders, x ∈ s.holders ∨
    x.pid = s.world.nextPid ∧ s.world.nextPid < s'.world.nextPid ∨
    ¬Happening.Spares x.pid (.call c) ∧ x.forwarder = none
  ticks : ∀ e ∈ ticksOf s'.world, e ∈ ticksOf s.world ∨
    e.state.pid = s.world.nextPid ∧ s.world.nextPid < s'.world.nextPid ∨
    ¬Happening.Spares e.state.pid (.call c)

theorem moves_bridged {c : Call} {result : World Token × Outcome BridgeError Bridge}
    (hasked : ∀ t, asked t → t.pid = s.world.nextPid)
    (h : (result.1 = s.world ∧ ∀ b, result.2 ≠ .ok b) ∨
      Advances asked (startLink s.world).1 result.1 ∧
        ∀ b, result.2 = .ok b → b.pid = s.world.nextPid) : Moves c s (s.bridged result) := by
  obtain ⟨w',out⟩ := result
  obtain ⟨hw,hout⟩ | ⟨hstart,hout⟩ := h
  · obtain rfl : w' = s.world := hw
    have hsame : s.bridged (s.world,out) = s := by
      cases out with
      | ok b => exact absurd rfl (hout b)
      | error e => rfl
      | crash => rfl
    rw [hsame]
    exact ⟨le_rfl,fun _ hx => .inl hx,fun _ he => .inl he⟩
  · have hlt : s.world.nextPid < w'.nextPid := hstart.nextPid
    have hworld : (s.bridged (w',out)).world = w' := by cases out <;> rfl
    refine ⟨by rw [hworld]; exact hlt.le,fun x hx => ?_,fun e he => ?_⟩
    · rw [hworld]
      cases out with
      | ok b =>
        obtain hx | hx := List.mem_append.mp hx
        · exact .inl hx
        · rw [List.mem_singleton.mp hx]
          exact .inr (.inl ⟨hout b rfl,hlt⟩)
      | error e => exact .inl hx
      | crash => exact .inl hx
    · rw [hworld] at he ⊢
      exact (hstart.ticks e he).imp id fun hstate => .inl ⟨hasked _ hstate,hlt⟩

theorem moves_subscribed {c : Call} {pid : Nat} {k : HookKind} {result : Registered Token}
    (hasked : ∀ t, asked t → t.pid = pid) (h : Advances asked s.world result.1)
    (hc : ¬Happening.Spares pid (.call c)) :
    Moves c s (s.subscribed pid k result) := by
  obtain ⟨w',out⟩ := result
  have hworld : (s.subscribed pid k (w',out)).world = w' := by cases out <;> rfl
  refine ⟨by rw [hworld]; exact h.nextPid,fun x hx => ?_,fun e he => ?_⟩
  · cases out with
    | ok handle =>
      obtain hx | hx := List.mem_append.mp hx
      · exact .inl hx
      · rw [List.mem_singleton.mp hx]
        exact .inr (.inr ⟨hc,rfl⟩)
    | error e => exact .inl hx
    | crash => exact .inl hx
  · rw [hworld] at he
    refine (h.ticks e he).imp id fun hstate => .inr ?_
    rw [hasked _ hstate]
    exact hc

theorem advances_release (x : Holder) (w : World Token) : Advances asked w (x.release env w) := by
  cases x with
  | bridge b => exact (advances_unregisters b.hookHandles w).trans (advances_stop b.pid _)
  | client pid k handle => exact advances_unregister w (k,handle)

theorem moves_call (s : Site Token) (c : Call) : Moves c s (s.call env c) := by
  have hsame : Moves c s s := ⟨le_rfl,fun _ hx => .inl hx,fun _ he => .inl he⟩
  cases c with
  | bridge option tag opts =>
    exact moves_bridged (fun _ h => h.1) (bridgePerConn_starts env s.world option tag opts)
  | bridgeLog tag =>
    refine moves_bridged (fun _ h => False.elim h) ?_
    exact (bridgeLogGlobal_starts s.world tag).imp id fun h => ⟨h.1 fun _ => False,h.2⟩
  | subscribe pid opts hook =>
    cases hook with
    | all => exact hsame
    | other t => exact hsame
    | kind k =>
      exact moves_subscribed (fun _ h => h.1) (advances_register pid opts s.world (.kind k))
        fun h => h rfl
  | subscribeLog pid =>
    exact moves_subscribed (fun _ h => False.elim h) (advances_registerLog pid s.world)
      fun h => h rfl
  | release i =>
    simp only [Site.call]
    cases hx : s.holders[i]? with
    | none => exact hsame
    | some x =>
      have hadvance : Advances (fun _ => False) s.world (x.release env s.world) :=
        advances_release x s.world
      refine ⟨hadvance.nextPid,fun y hy => .inl (List.mem_of_mem_eraseIdx hy),fun e he => ?_⟩
      exact (hadvance.ticks e he).imp id False.elim

end Calls

section Mail
variable {env : Env Token} {n p : Nat} {b : Bridge} {tag : Option (List UInt8)} {s : Site Token}

theorem subscriber_held (h : Balanced env n s) {k : HookKind} {y : Nat × Subscriber}
    (hy : y ∈ subs s.world k) : ∃ x ∈ s.holders, x.pid = y.2.target := by
  have hmem : (y.1,y.2.target) ∈ held k s.holders := by
    rw [← h.subs k]
    exact List.mem_map_of_mem hy
  obtain ⟨x,hx,hpair⟩ := List.mem_flatMap.mp hmem
  obtain ⟨id,-,heq⟩ := List.mem_map.mp hpair
  exact ⟨x,hx,congrArg Prod.snd heq⟩

theorem sends_away (h : Balanced env n s) (haway : ∀ x ∈ s.holders, x.pid ≠ p) (f : Firing) :
    (f.sends s.world).filter (fun m => m.1 = p) = [] := by
  have htarget : ∀ k, ∀ y ∈ subs s.world k, y.2.target ≠ p := by
    intro k y hy
    obtain ⟨x,hx,hpid⟩ := subscriber_held h hy
    rw [← hpid]
    exact haway x hx
  refine List.filter_eq_nil_iff.mpr fun m hm => ?_
  rw [decide_eq_true_iff]
  cases f with
  | all n =>
    simp only [Firing.sends] at hm
    split_ifs at hm
    · exact absurd hm (List.not_mem_nil)
    · obtain ⟨y,hy,rfl⟩ := List.mem_map.mp hm
      exact htarget _ y hy
  | tick handle count elapsedMs =>
    obtain ⟨e,he,rfl⟩ := List.mem_map.mp hm
    exact htarget .progress _ ((mem_ticksOf s.world e).mpr (List.mem_of_mem_filter he))

/-- All that goes to the bridge's process goes there for the bridge. -/
structure Watching (env : Env Token) (n : Nat) (b : Bridge) (tag : Option (List UInt8))
    (s : Site Token) : Prop where
  balanced : Balanced env n s
  known : b.pid < s.world.nextPid
  own : ∀ x ∈ s.holders, x.pid = b.pid → x = .bridge b
  tags : ∀ e ∈ ticksOf s.world, e.state.pid = b.pid → e.state.tagBytes = tag

theorem held_away {xs : List Holder} (h : ∀ x ∈ xs, x.pid ≠ p) (k : HookKind) :
    (held k xs).filter (fun y => y.2 = p) = [] := by
  refine List.filter_eq_nil_iff.mpr fun y hy => ?_
  obtain ⟨x,hx,hpair⟩ := List.mem_flatMap.mp hy
  obtain ⟨id,-,rfl⟩ := List.mem_map.mp hpair
  rw [decide_eq_true_iff]
  exact h x hx

theorem Watching.others_away (h : Watching env n b tag s) {before after : List Holder}
    (hholders : s.holders = before ++ .bridge b :: after) :
    ∀ x ∈ before ++ after, x.pid ≠ b.pid := by
  -- a second holder of the pid would be the bridge again, with the same forwarder
  have hforwarders : (s.holders.filterMap Holder.forwarder).Nodup := by
    rw [← h.balanced.forwarders]
    exact h.balanced.tidy.pids.imp fun hlt => Nat.ne_of_lt hlt
  have hperm : s.holders.Perm (.bridge b :: (before ++ after)) := by
    rw [hholders]
    exact List.perm_middle
  have hnodup : (b.pid :: (before ++ after).filterMap Holder.forwarder).Nodup :=
    (hperm.filterMap Holder.forwarder).nodup hforwarders
  rw [List.nodup_cons] at hnodup
  intro x hx hpid
  obtain rfl := h.own x (hperm.mem_iff.mpr (List.mem_cons_of_mem _ hx)) hpid
  exact hnodup.1 (List.mem_filterMap.mpr ⟨.bridge b,hx,rfl⟩)

theorem Watching.own_subs (h : Watching env n b tag s) (hmem : .bridge b ∈ s.holders)
    (k : HookKind) :
    ((subs s.world k).filter fun y => y.2.target = b.pid).map Prod.fst =
      handlesOf k b.hookHandles := by
  obtain ⟨before,after,hholders⟩ := List.append_of_mem hmem
  have haway := h.others_away hholders
  have hheld : (held k s.holders).filter (fun y => y.2 = b.pid) =
      (handlesOf k b.hookHandles).map fun id => (id,b.pid) := by
    have hbefore := held_away (fun x hx => haway x (List.mem_append_left _ hx)) k
    have hafter := held_away (fun x hx => haway x (List.mem_append_right _ hx)) k
    have hmine : held k (.bridge b :: after) =
        (handlesOf k b.hookHandles).map (fun id => (id,b.pid)) ++ held k after := rfl
    rw [hholders,held_append,hmine,List.filter_append,List.filter_append,hbefore,hafter]
    simp
  rw [← h.balanced.subs,List.filter_map] at hheld
  have hfst := congrArg (List.map Prod.fst) hheld
  simpa [Function.comp_def] using hfst

theorem Watching.sends_all (h : Watching env n b tag s) (hmem : .bridge b ∈ s.holders)
    (m : Notice) :
    (((Firing.all m).sends s.world).filter fun m => m.1 = b.pid).map Prod.snd =
      told b tag (.fires (.all m)) := by
  simp only [Firing.sends,told]
  split_ifs with hprogress
  · rfl
  · have hown := congrArg List.length (h.own_subs hmem (hookOf m))
    rw [List.length_map] at hown
    rw [← hown,List.filter_map,List.map_map]
    exact List.map_const'

theorem Watching.own_ticks (h : Watching env n b tag s) (hmem : .bridge b ∈ s.holders) :
    ((ticksOf s.world).filter fun e => e.state.pid = b.pid).map (·.id) =
      handlesOf .progress b.hookHandles := by
  rw [← h.own_subs hmem .progress]
  simp only [subs,List.filter_map,List.map_map]
  rfl

theorem Watching.handles_nodup (h : Watching env n b tag s) (hmem : .bridge b ∈ s.holders)
    (k : HookKind) : (handlesOf k b.hookHandles).Nodup := by
  have hids : ((subs s.world k).map Prod.fst).Nodup :=
    (h.balanced.tidy.ids k).imp fun hlt => Nat.ne_of_lt hlt
  rw [← h.own_subs hmem k]
  exact hids.sublist (List.filter_sublist.map _)

theorem Watching.sends_tick (h : Watching env n b tag s) (hmem : .bridge b ∈ s.holders)
    (handle count elapsedMs : Nat) :
    (((Firing.tick handle count elapsedMs).sends s.world).filter fun m => m.1 = b.pid).map
      Prod.snd = told b tag (.fires (.tick handle count elapsedMs)) := by
  have hmine : (((Firing.tick handle count elapsedMs).sends s.world).filter fun m =>
      m.1 = b.pid).map Prod.snd =
      (((ticksOf s.world).filter fun e => e.state.pid = b.pid).filter fun e => e.id = handle).map
        fun e => .progress e.state.tagBytes count elapsedMs := by
    simp only [Firing.sends,List.filter_map,List.map_map,List.filter_filter,Function.comp_def,
      Bool.and_comm]
  have htags : ∀ e ∈ ((ticksOf s.world).filter fun e => e.state.pid = b.pid).filter fun e =>
      e.id = handle, Notice.progress e.state.tagBytes count elapsedMs =
        .progress tag count elapsedMs := by
    intro e he
    obtain ⟨hticks,hpid⟩ := List.mem_filter.mp (List.mem_of_mem_filter he)
    rw [h.tags e hticks (of_decide_eq_true hpid)]
  have hlength : (((ticksOf s.world).filter fun e => e.state.pid = b.pid).filter fun e =>
      e.id = handle).length = (handlesOf .progress b.hookHandles).count handle := by
    rw [← h.own_ticks hmem,← List.countP_eq_length_filter,List.count,List.countP_map]
    exact List.countP_congr fun e _ => by simp
  rw [hmine,List.map_congr_left htags,List.map_const',hlength,(h.handles_nodup hmem _).count]
  simp only [told]
  split_ifs <;> rfl

theorem Watching.sends (h : Watching env n b tag s) (hmem : .bridge b ∈ s.holders) (f : Firing) :
    ((f.sends s.world).filter fun m => m.1 = b.pid).map Prod.snd = told b tag (.fires f) := by
  cases f with
  | all m => exact h.sends_all hmem m
  | tick handle count elapsedMs => exact h.sends_tick hmem handle count elapsedMs

theorem Watching.call {c : Call} (h : Watching env (n + c.cost) b tag s) (hclean : c.Clean env)
    (hspares : Happening.Spares b.pid (.call c)) : Watching env n b tag (s.call env c) := by
  have hmoves : Moves c s (s.call env c) := moves_call s c
  refine ⟨h.balanced.call hclean,h.known.trans_le hmoves.nextPid,fun x hx hpid => ?_,
    fun e he hpid => ?_⟩
  · obtain hx | ⟨hnext,-⟩ | ⟨hsub,-⟩ := hmoves.holders x hx
    · exact h.own x hx hpid
    · exact absurd (hpid.symm.trans hnext) (Nat.ne_of_lt h.known)
    · exact absurd (hpid ▸ hspares) hsub
  · obtain he | ⟨hnext,-⟩ | hsub := hmoves.ticks e he
    · exact h.tags e he hpid
    · exact absurd (hpid.symm.trans hnext) (Nat.ne_of_lt h.known)
    · exact absurd (hpid ▸ hspares) hsub

theorem Watching.held_before {c : Call} (h : Watching env n b tag s)
    (hmem : .bridge b ∈ (s.call env c).holders) : .bridge b ∈ s.holders := by
  have hmoves : Moves c s (s.call env c) := moves_call s c
  obtain hx | ⟨hnext,-⟩ | ⟨-,hnone⟩ := hmoves.holders _ hmem
  · exact hx
  · exact absurd hnext (Nat.ne_of_lt h.known)
  · exact nomatch hnone

end Mail

section Runs
variable {env : Env Token} {n : Nat} {b : Bridge} {tag : Option (List UInt8)} {s : Scene Token}

theorem mailbox_fires (s : Scene Token) (f : Firing) (p : Nat) :
    (s.step env (.fires f)).mailbox p =
      s.mailbox p ++ ((f.sends s.site.world).filter fun m => m.1 = p).map Prod.snd := by
  simp [Scene.mailbox,Scene.step]

theorem Scene.run_append (s : Scene Token) (hs hs' : List Happening) :
    s.run env (hs ++ hs') = (s.run env hs).run env hs' := List.foldl_append

theorem Watching.run_held (hs : List Happening) (h : Watching env (n + costs hs) b tag s.site)
    (hclean : ∀ x ∈ hs, x.Clean env) (hspares : ∀ x ∈ hs, x.Spares b.pid)
    (hmem : .bridge b ∈ (s.run env hs).site.holders) :
    Watching env n b tag (s.run env hs).site ∧ .bridge b ∈ s.site.holders ∧
      (s.run env hs).mailbox b.pid = s.mailbox b.pid ++ hs.flatMap (told b tag) := by
  induction hs generalizing s with
  | nil => exact ⟨h,hmem,(List.append_nil _).symm⟩
  | cons x hs ih =>
    rw [List.forall_mem_cons] at hclean hspares
    have hcost : n + costs (x :: hs) = n + costs hs + x.cost := by
      rw [costs,Nat.add_assoc,Nat.add_comm x.cost]
    rw [hcost] at h
    cases x with
    | call c =>
      have hnext : Watching env (n + costs hs) b tag (s.step env (.call c)).site :=
        h.call hclean.1 hspares.1
      obtain ⟨hend,hheld,hmail⟩ := ih hnext hclean.2 hspares.2 hmem
      exact ⟨hend,h.held_before hheld,hmail⟩
    | fires f =>
      have hnext : Watching env (n + costs hs) b tag (s.step env (.fires f)).site := h
      obtain ⟨hend,hheld,hmail⟩ := ih hnext hclean.2 hspares.2 hmem
      refine ⟨hend,hheld,hmail.trans ?_⟩
      rw [mailbox_fires,h.sends hheld f,List.flatMap_cons,List.append_assoc]

theorem step_nextPid (s : Scene Token) (x : Happening) :
    s.site.world.nextPid ≤ (s.step env x).site.world.nextPid := by
  cases x with
  | call c => exact (moves_call s.site c).nextPid
  | fires f => exact le_rfl

theorem run_nextPid (s : Scene Token) (hs : List Happening) :
    s.site.world.nextPid ≤ (s.run env hs).site.world.nextPid := by
  induction hs generalizing s with
  | nil => exact le_rfl
  | cons x hs ih => exact (step_nextPid s x).trans (ih _)

theorem run_away {p : Nat} (hs : List Happening) (h : Balanced env (n + costs hs) s.site)
    (haway : ∀ x ∈ s.site.holders, x.pid ≠ p) (hclean : ∀ x ∈ hs, x.Clean env)
    (hspares : ∀ x ∈ hs, x.Spares p)
    (hfree : (s.run env hs).site.world.nextPid ≤ p ∨ p < s.site.world.nextPid) :
    Balanced env n (s.run env hs).site ∧ (∀ x ∈ (s.run env hs).site.holders, x.pid ≠ p) ∧
      (s.run env hs).mailbox p = s.mailbox p := by
  induction hs generalizing s with
  | nil => exact ⟨h,haway,rfl⟩
  | cons x hs ih =>
    rw [List.forall_mem_cons] at hclean hspares
    have hcost : n + costs (x :: hs) = n + costs hs + x.cost := by
      rw [costs,Nat.add_assoc,Nat.add_comm x.cost]
    rw [hcost] at h
    have hle : s.site.world.nextPid ≤ (s.step env x).site.world.nextPid := step_nextPid s x
    have hend : (s.step env x).site.world.nextPid ≤
        ((s.step env x).run env hs).site.world.nextPid := run_nextPid _ hs
    have hfree' : ((s.step env x).run env hs).site.world.nextPid ≤ p ∨
        p < (s.step env x).site.world.nextPid := hfree.imp id fun hlt => hlt.trans_le hle
    cases x with
    | call c =>
      refine ih (h.call hclean.1) ?_ hclean.2 hspares.2 hfree'
      intro y hy
      obtain hy | ⟨hnext,hlt⟩ | ⟨hsub,-⟩ := (moves_call s.site c).holders y hy
      · exact haway y hy
      · rw [hnext]
        obtain hlast | hfirst := hfree
        · exact Nat.ne_of_lt (hlt.trans_le (hend.trans hlast))
        · exact Nat.ne_of_gt hfirst
      · exact fun hpid => hsub (hpid ▸ hspares.1)
    | fires f =>
      have hnext : Balanced env (n + costs hs) (s.step env (.fires f)).site := h
      obtain ⟨hbalanced,hholders,hmail⟩ := ih hnext haway hclean.2 hspares.2 hfree'
      refine ⟨hbalanced,hholders,hmail.trans ?_⟩
      rw [mailbox_fires,sends_away h haway f]
      exact List.append_nil _

theorem watching_bridged {option : HooksOption} {tag opts : Term} {s : Site Token}
    (h : Balanced env (n + (Call.bridge option tag opts).cost) s)
    (haway : ∀ x ∈ s.holders, x.pid ≠ b.pid)
    (hclean : (Call.bridge option tag opts).Clean env)
    (hb : (bridgePerConn env s.world option tag opts).2 = .ok b) :
    Watching env n b (progressTag opts) (s.call env (.bridge option tag opts)) := by
  have hbalanced := h.call hclean
  obtain ⟨-,hnone⟩ | ⟨hadvances,hpid⟩ := bridgePerConn_starts env s.world option tag opts
  · exact absurd hb (hnone b)
  · have hcall : s.call env (.bridge option tag opts) =
        s.took (.bridge b) (bridgePerConn env s.world option tag opts).1 := by
      simp only [Site.call]
      generalize bridgePerConn env s.world option tag opts = result at hb
      obtain ⟨w,out⟩ := result
      cases hb
      rfl
    rw [hcall] at hbalanced ⊢
    have hb := hpid b hb
    refine ⟨hbalanced,?_,fun x hx hx' => ?_,fun e he hpid' => ?_⟩
    · rw [hb]
      exact hadvances.nextPid
    · obtain hx | hx := List.mem_append.mp hx
      · exact absurd hx' (haway x hx)
      · exact List.mem_singleton.mp hx
    · obtain he | hasked := hadvances.ticks e he
      · obtain ⟨x,hx,htarget⟩ := subscriber_held h ((mem_ticksOf s.world e).mpr he)
        exact absurd (htarget.trans hpid') (haway x hx)
      · exact hasked.2

theorem Watching.released {s : Site Token} (h : Watching env n b tag s) {i : Nat}
    (hi : s.holders[i]? = some (.bridge b)) :
    ∀ x ∈ (s.call env (.release i)).holders, x.pid ≠ b.pid := by
  obtain ⟨hlt,hget⟩ := List.getElem?_eq_some_iff.mp hi
  have hsplit : s.holders = s.holders.take i ++ .bridge b :: s.holders.drop (i+1) := by
    rw [← hget,List.getElem_cons_drop,List.take_append_drop]
  simp only [Site.call,hi]
  rw [List.eraseIdx_eq_take_drop_succ]
  exact h.others_away hsplit

theorem costs_append (hs hs' : List Happening) : costs (hs ++ hs') = costs hs + costs hs' := by
  induction hs with
  | nil => exact (Nat.zero_add _).symm
  | cons x hs ih =>
    rw [List.cons_append,costs,costs,ih,Nat.add_assoc]

end Runs

section Life
variable (option : HooksOption) (tag opts : Term) (i : Nat)

def bridgeLife (before during after : List Happening) : List Happening :=
  before ++ .call (.bridge option tag opts) :: (during ++ .call (.release i) :: after)

variable {option tag opts i} {env : Env Token} {b : Bridge} {n : Nat}

theorem watching_made {s : Scene Token} {before : List Happening}
    (h : Balanced env (n + (Call.bridge option tag opts).cost + costs before) s.site)
    (hstart : s.site.holders = [])
    (hclean : ∀ x ∈ before, x.Clean env) (hspares : ∀ x ∈ before, x.Spares b.pid)
    (hbridge : (Call.bridge option tag opts).Clean env)
    (hb : (bridgePerConn env (s.run env before).site.world option tag opts).2 = .ok b) :
    Watching env n b (progressTag opts)
        ((s.run env before).step env (.call (.bridge option tag opts))).site ∧
      ((s.run env before).step env (.call (.bridge option tag opts))).mailbox b.pid =
        s.mailbox b.pid := by
  have hpid : b.pid = (s.run env before).site.world.nextPid := by
    obtain ⟨-,hnone⟩ | ⟨-,hpid⟩ := bridgePerConn_starts env (s.run env before).site.world option
      tag opts
    · exact absurd hb (hnone b)
    · exact hpid b hb
  have haway : ∀ x ∈ s.site.holders, x.pid ≠ b.pid := by
    rw [hstart]
    exact fun x hx => nomatch hx
  obtain ⟨hbalanced,haway,hmail⟩ := run_away before h haway hclean hspares (.inl hpid.ge)
  exact ⟨watching_bridged hbalanced haway hbridge hb,hmail⟩

theorem Watching.mailbox_life {s : Scene Token} {tag : Option (List UInt8)}
    {during after : List Happening}
    (h : Watching env (n + costs after + (Call.release i).cost + costs during) b tag s.site)
    (hclean : ∀ x ∈ during ++ .call (.release i) :: after, x.Clean env)
    (hspares : ∀ x ∈ during ++ .call (.release i) :: after, x.Spares b.pid)
    (hi : (s.run env during).site.holders[i]? = some (.bridge b)) :
    (s.run env (during ++ .call (.release i) :: after)).mailbox b.pid =
      s.mailbox b.pid ++ during.flatMap (told b tag) := by
  rw [List.forall_mem_append,List.forall_mem_cons] at hclean hspares
  obtain ⟨hheld,-,hmail⟩ := h.run_held during hclean.1 hspares.1 (List.mem_of_getElem? hi)
  have hbalanced : Balanced env (n + costs after)
      ((s.run env during).step env (.call (.release i))).site := hheld.balanced.call hclean.2.1
  have hknown : b.pid < ((s.run env during).step env (.call (.release i))).site.world.nextPid :=
    hheld.known.trans_le (step_nextPid _ _)
  obtain ⟨-,-,hafter⟩ := run_away after hbalanced (hheld.released hi) hclean.2.2 hspares.2.2
    (.inr hknown)
  rw [Scene.run_append]
  exact hafter.trans hmail

variable (option tag opts i)

def walCommit : HooksOption := .list [.kind (.plain .wal),.kind (.plain .commit)]

def earlier : List Happening :=
  [.call (.subscribe 7 (.list []) (.kind (.plain .wal))),.fires (.all .commit)]

def meanwhile : List Happening :=
  [.fires (.all .rollback),.fires (.all .commit),
    .call (.subscribe 9 (.list []) (.kind (.plain .commit))),
    .fires (.all (.wal [109,97,105,110] 3))]

end Life

end Xqlite.Telemetry

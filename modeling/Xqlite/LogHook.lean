import Xqlite.HookBoxes
import Xqlite.Lib.Critical
set_option autoImplicit false

/-! The process-wide log hook. Registration, unregistration and SQLite's log callback run on
any threads, and each of them takes `MASTER_LOCK` around what it does with the subscriber
list. -/

namespace Xqlite.LogHook
open Runs Hook Boxes Critical

abbrev Event := Int × String

/-- `configured` is SQLite's side: `sqlite3_config` has taken the callback. Nothing in the
hook panics, so that the lock stays poisoned or sound. -/
structure Shared (Pid : Type) where
  poisoned : Bool
  installed : Bool
  configured : Bool
  subscribers : HookBox.State Pid Event

variable {Pid : Type}

def Shared.initial (poisoned : Bool) : Shared Pid := ⟨poisoned,false,false,.new⟩

inductive Op (Pid : Type) where
  | register (pid : Pid)
  | unregister (id : Nat)
  | log (errCode : Int) (msg : String)
  deriving DecidableEq, Repr

inductive Loc (Pid : Type) where
  | locked (op : Op Pid)
  | configLog (pid : Pid)
  | storeInstalled (pid : Pid)
  | list (l : HookBox.Loc Pid Event)

inductive Reply where
  | registered (id : Nat)
  | unregistered
  | logged
  | error (text : String)
  | fault (f : HookBox.Fault)
  deriving DecidableEq, Repr

def Op.call : Op Pid → Feed.Call Pid Event
  | .register pid => .register pid
  | .unregister id => .unregister id
  | .log errCode msg => .notify (errCode,msg)

def lockError : String := "lock error: poisoned lock: another task failed inside"

def configError (e : String) : String := "sqlite3_config failed: " ++ e

/-- `unregister` drops what the list answers. -/
def Reply.ofList : Feed.Reply → Reply
  | .handle id => .registered id
  | .removed _ => .unregistered
  | .notified => .logged

/-- The choice is the outcome of `config_log`. -/
def step (s : Shared Pid) (l : Loc Pid) (c : Except String Unit) :
    Shared Pid × (Loc Pid ⊕ Reply) :=
  match l with
  | .locked (.register pid) =>
    if s.poisoned then (s,.inr (.error lockError))
    else if s.installed then (s,.inl (.list (HookBox.enter (.register pid))))
    else (s,.inl (.configLog pid))
  | .locked (.unregister id) =>
    if s.poisoned then (s,.inr (.error lockError))
    else (s,.inl (.list (HookBox.enter (.unregister id))))
  | .locked (.log errCode msg) => (s,.inl (.list (HookBox.enter (.notify (errCode,msg)))))
  | .configLog pid =>
    match c with
    | .error e => (s,.inr (.error (configError e)))
    | .ok () => ({ s with configured := true },.inl (.storeInstalled pid))
  | .storeInstalled pid =>
    ({ s with installed := true },.inl (.list (HookBox.enter (.register pid))))
  | .list l =>
    match HookBox.step s.subscribers l with
    | (subscribers,.inl l') => ({ s with subscribers },.inl (.list l'))
    | (subscribers,.inr (.ok reply)) => ({ s with subscribers },.inr (.ofList reply))
    | (subscribers,.inr (.error f)) => ({ s with subscribers },.inr (.fault f))

/-- SQLite calls back only once it is configured to. -/
def Shared.ready (s : Shared Pid) : Op Pid → Bool
  | .log _ _ => s.configured
  | _ => true

def object : Object (Shared Pid) (Op Pid) (Loc Pid) Reply (Except String Unit) :=
  ⟨Shared.ready,.locked,step⟩

def reached (cs : List (Op Pid × Reply)) : List (Op Pid × Reply) :=
  cs.filter fun c => match c.2 with | .error _ => false | _ => true

def calls (cs : List (Op Pid × Reply)) : List (Feed.Call Pid Event) := (reached cs).map (·.1.call)

def feed (cs : List (Op Pid × Reply)) : Feed.State Pid Event := (run Feed.step .new (calls cs)).1

structure Shared.Flags (s : Shared Pid) (entries : List (HookEntry Pid)) : Prop where
  configured : s.installed = true → s.configured = true
  installed : entries ≠ [] → s.installed = true

structure Settled (s : Shared Pid) : Prop where
  owned : HookBox.Owned s.subscribers []
  flags : s.Flags s.subscribers.feed.list.entries

/-- A call in progress that found the list as `f`. -/
def Progress (f : Feed.State Pid Event) (op : Op Pid) (s : Shared Pid) : Loc Pid → Prop
  | .locked op' => op' = op ∧ Settled s ∧ s.subscribers.feed = f
  | .configLog pid => op = .register pid ∧ Settled s ∧ s.subscribers.feed = f
  | .storeInstalled pid =>
    op = .register pid ∧ s.configured = true ∧ Settled s ∧ s.subscribers.feed = f
  | .list l => HookBox.Towards f op.call s.subscribers l ∧ s.Flags (Feed.step f op.call).1.list.entries

/-- A call that failed has left the list alone; any other has done what it does to `f`. -/
def Completed (f : Feed.State Pid Event) (op : Op Pid) (s : Shared Pid) (r : Reply) : Prop :=
  Settled s ∧
    ((∃ e, r = .error e ∧ (∀ errCode msg, op ≠ .log errCode msg) ∧ s.subscribers.feed = f) ∨
      ∃ reply, r = .ofList reply ∧ Feed.step f op.call = (s.subscribers.feed,reply))

variable {f : Feed.State Pid Event} {op : Op Pid} {s s' : Shared Pid} {l l' : Loc Pid}
  {c : Except String Unit} {r : Reply}

theorem Shared.Flags.call (h : s.Flags f.list.entries)
    (hreg : ∀ pid, op = .register pid → s.installed = true) :
    s.Flags (Feed.step f op.call).1.list.entries := by
  refine ⟨h.configured,?_⟩
  cases op with
  | register pid =>
    intro _
    exact hreg pid rfl
  | unregister id =>
    intro hne
    apply h.installed
    intro hnil
    simp [Op.call,Feed.step,hnil] at hne
  | log errCode msg => exact h.installed

theorem progress_enter (h : Settled s) (hf : s.subscribers.feed = f)
    (hreg : ∀ pid, op = .register pid → s.installed = true) :
    Progress f op s (.list (HookBox.enter op.call)) := by
  subst hf
  exact ⟨HookBox.towards_enter h.owned op.call,h.flags.call hreg⟩

def After (f : Feed.State Pid Event) (op : Op Pid) : Shared Pid × (Loc Pid ⊕ Reply) → Prop
  | (s,.inl l) => Progress f op s l
  | (s,.inr r) => Completed f op s r

theorem step_list {l : HookBox.Loc Pid Event} (h : Progress f op s (.list l)) :
    After f op (step s (.list l) c) := by
  obtain ⟨htowards,hflags⟩ := h
  have hnext := HookBox.step_next htowards
  cases hstep : HookBox.step s.subscribers l with
  | mk subscribers after =>
    rw [hstep] at hnext
    cases after with
    | inl l' =>
      simp only [step,hstep]
      exact ⟨hnext,hflags.configured,hflags.installed⟩
    | inr r =>
      obtain ⟨howned,reply,rfl,hcall⟩ := hnext
      simp only [step,hstep]
      rw [hcall] at hflags
      exact ⟨⟨howned,hflags.configured,hflags.installed⟩,.inr ⟨reply,rfl,hcall⟩⟩

theorem step_after (h : Progress f op s l) : After f op (step s l c) := by
  cases l with
  | locked op' =>
    obtain ⟨rfl,hsettled,hfeed⟩ := h
    cases op' with
    | register pid =>
      cases hp : s.poisoned with
      | true =>
        simp only [step,hp,if_true]
        exact ⟨hsettled,.inl ⟨lockError,rfl,by simp,hfeed⟩⟩
      | false =>
        cases hi : s.installed with
        | true =>
          simp only [step,hp,hi,if_true,Bool.false_eq_true,if_false]
          exact progress_enter hsettled hfeed (fun _ _ => hi)
        | false =>
          simp only [step,hp,hi,Bool.false_eq_true,if_false]
          exact ⟨rfl,hsettled,hfeed⟩
    | unregister id =>
      cases hp : s.poisoned with
      | true =>
        simp only [step,hp,if_true]
        exact ⟨hsettled,.inl ⟨lockError,rfl,by simp,hfeed⟩⟩
      | false =>
        simp only [step,hp,Bool.false_eq_true,if_false]
        exact progress_enter hsettled hfeed (fun _ hop => by cases hop)
    | log errCode msg => exact progress_enter hsettled hfeed (fun _ hop => by cases hop)
  | configLog pid =>
    obtain ⟨rfl,hsettled,hfeed⟩ := h
    cases c with
    | error e => exact ⟨hsettled,.inl ⟨configError e,rfl,by simp,hfeed⟩⟩
    | ok _ => exact ⟨rfl,rfl,⟨hsettled.owned,fun _ => rfl,hsettled.flags.installed⟩,hfeed⟩
  | storeInstalled pid =>
    obtain ⟨rfl,hconfigured,hsettled,hfeed⟩ := h
    have hinstalled : Settled { s with installed := true } :=
      ⟨hsettled.owned,fun _ => hconfigured,fun _ => rfl⟩
    exact progress_enter hinstalled hfeed (fun _ _ => rfl)
  | list l => exact step_list h

theorem step_more (h : Progress f op s l) (hstep : step s l c = (s',.inl l')) :
    Progress f op s' l' := by
  have hafter := step_after (c := c) h
  rw [hstep] at hafter
  exact hafter

theorem step_last (h : Progress f op s l) (hstep : step s l c = (s',.inr r)) :
    Completed f op s' r := by
  have hafter := step_after (c := c) h
  rw [hstep] at hafter
  exact hafter

theorem step_configured (h : s.configured = true) (hstep : step s l c = (s',.inl l')) :
    s'.configured = true := by
  cases l with
  | locked op =>
    cases op with
    | register pid =>
      simp only [step] at hstep
      split at hstep
      · cases hstep
      · split at hstep <;> cases hstep <;> exact h
    | unregister id =>
      simp only [step] at hstep
      split at hstep <;> cases hstep
      exact h
    | log errCode msg =>
      cases hstep
      exact h
  | configLog pid =>
    cases c with
    | error e => cases hstep
    | ok _ =>
      cases hstep
      rfl
  | storeInstalled pid =>
    cases hstep
    exact h
  | list l =>
    simp only [step] at hstep
    split at hstep <;> cases hstep
    exact h

theorem alone_completed (hs : Settled s) (h : Alone object s (.locked op) s' r) :
    Completed s.subscribers.feed op s' r :=
  h.inv (J := Progress s.subscribers.feed op) (Q := Completed s.subscribers.feed op)
    (fun _ _ _ _ _ => step_more) (fun _ _ _ _ _ => step_last) ⟨rfl,hs,rfl⟩

theorem settled_initial (poisoned : Bool) : Settled (.initial poisoned : Shared Pid) :=
  ⟨Balanced.empty,⟨fun h => (by cases h),fun h => absurd rfl h⟩⟩

theorem keeps_settled :
    Keeps object Settled (fun (s : Shared Pid) l => ∃ f op, Progress f op s l) where
  enter s op h := ⟨s.subscribers.feed,op,rfl,h,rfl⟩
  more := by
    intro s l c s' l' h hstep
    obtain ⟨f,op,hprogress⟩ := h
    exact ⟨f,op,step_more hprogress hstep⟩
  last := by
    intro s l c s' r h hstep
    obtain ⟨f,op,hprogress⟩ := h
    exact (step_last hprogress hstep).1

structure Replayed (cs : List (Op Pid × Reply)) (s : Shared Pid) : Prop where
  settled : Settled s
  feed_eq : s.subscribers.feed = feed cs
  replies : ((run Feed.step .new (calls cs)).2.map Reply.ofList) = (reached cs).map Prod.snd

theorem reached_append (cs cs' : List (Op Pid × Reply)) :
    reached (cs ++ cs') = reached cs ++ reached cs' :=
  List.filter_append cs cs'

theorem reached_error (op : Op Pid) (e : String) : reached [(op,Reply.error e)] = [] := rfl

theorem reached_ofList (op : Op Pid) (reply : Feed.Reply) :
    reached [(op,Reply.ofList reply)] = [(op,Reply.ofList reply)] := by
  cases reply <;> rfl

theorem Replayed.snoc {cs : List (Op Pid × Reply)} (h : Replayed cs s)
    (hdone : Completed s.subscribers.feed op s' r) : Replayed (cs ++ [(op,r)]) s' := by
  obtain ⟨hsettled,⟨e,rfl,_,hsame⟩ | ⟨reply,rfl,hcall⟩⟩ := hdone
  · have hreached : reached (cs ++ [(op,.error e)]) = reached cs := by
      rw [reached_append,reached_error,List.append_nil]
    refine ⟨hsettled,?_,?_⟩
    · rw [hsame,h.feed_eq,feed,feed,calls,calls,hreached]
    · rw [calls,hreached]
      exact h.replies
  · have hreached : reached (cs ++ [(op,.ofList reply)]) = reached cs ++ [(op,.ofList reply)] := by
      rw [reached_append,reached_ofList]
    have hcalls : calls (cs ++ [(op,.ofList reply)]) = calls cs ++ [op.call] := by
      rw [calls,hreached,List.map_append]
      rfl
    have hstep : Feed.step (run Feed.step .new (calls cs)).1 op.call =
        (s'.subscribers.feed,reply) := by
      rw [← hcall,h.feed_eq]
      rfl
    refine ⟨hsettled,?_,?_⟩
    · rw [feed,hcalls,run_append,run_cons,run_nil,hstep]
    · rw [hcalls,hreached,run_append,run_cons,run_nil,hstep,List.map_append,h.replies,
        List.map_append]
      rfl

theorem sequential_replayed {poisoned : Bool} {cs : List (Op Pid × Reply)}
    (h : Sequential object (.initial poisoned) cs s) : Replayed cs s :=
  h.inv ⟨settled_initial poisoned,rfl,rfl⟩
    (fun _ _ _ _ _ hreplayed halone =>
      hreplayed.snoc (alone_completed hreplayed.settled halone))

theorem completed_of_mem {poisoned : Bool} {cs cs' : List (Op Pid × Reply)}
    (h : Sequential object (.initial poisoned) (cs ++ (op,r) :: cs') s) :
    ∃ t, Completed (feed cs) op t r := by
  obtain ⟨t,t',hseq,halone⟩ := h.split
  have hreplayed := sequential_replayed hseq
  refine ⟨t',?_⟩
  rw [← hreplayed.feed_eq]
  exact alone_completed hreplayed.settled halone

theorem calls_append (cs cs' : List (Op Pid × Reply)) :
    calls (cs ++ cs') = calls cs ++ calls cs' := by
  rw [calls,reached_append,List.map_append]
  rfl

theorem calls_cons (op : Op Pid) (reply : Feed.Reply) (cs : List (Op Pid × Reply)) :
    calls ((op,.ofList reply) :: cs) = op.call :: calls cs := by
  rw [← List.singleton_append,calls_append,calls,reached_ofList]
  rfl

theorem registered_handle {pid : Pid} {id : Nat} {t : Shared Pid}
    (h : Completed f (.register pid) t (.registered id)) :
    (Feed.step f (.register pid)).2 = .handle id := by
  obtain ⟨_,⟨e,hr,_⟩ | ⟨reply,hr,hcall⟩⟩ := h
  · cases hr
  · cases reply with
    | handle id' =>
      cases hr
      exact congrArg Prod.snd hcall
    | removed found | notified => cases hr

theorem register_of_registered {id : Nat} {t : Shared Pid} (h : Completed f op t (.registered id)) :
    ∃ pid, op = .register pid := by
  obtain ⟨_,⟨e,hr,_⟩ | ⟨reply,hr,hcall⟩⟩ := h
  · cases hr
  · cases reply with
    | handle id' =>
      cases op with
      | register pid => exact ⟨pid,rfl⟩
      | unregister id | log errCode msg => cases congrArg Prod.snd hcall
    | removed found | notified => cases hr

theorem registrations_unregister (id : Nat) (cs : List (Op Pid × Reply)) :
    Feed.registrations (calls ((.unregister id,.unregistered) :: cs)) =
      Feed.registrations (calls cs) := by
  have hcalls : calls ((.unregister id,.unregistered) :: cs) = .unregister id :: calls cs :=
    calls_cons (.unregister id) (.removed true) cs
  rw [hcalls,Feed.registrations_cons]
  exact Nat.zero_add _

theorem feed_subscription {before during after : List (Op Pid × Reply)} {pid : Pid} {id : Nat}
    (hreg : (Feed.step (feed before) (.register pid)).2 = .handle id)
    (hcount : Feed.registrations (calls (before ++ (.register pid,.registered id) :: during)) +
      Feed.registrations (calls after) < 2^64-1)
    (hduring : Feed.Call.unregister id ∉ calls during) :
    (feed (before ++ (.register pid,.registered id) :: during)).received id =
      Feed.notifications (calls during) ∧
    let ended := feed (before ++ (.register pid,.registered id) :: during ++
      (.unregister id,.unregistered) :: after)
    ended.holders id = [] ∧ ended.received id = Feed.notifications (calls during) := by
  have hstart : calls (before ++ (.register pid,.registered id) :: during) =
      calls before ++ .register pid :: calls during := by
    rw [calls_append]
    exact congrArg _ (calls_cons (.register pid) (.handle id) during)
  have hend : calls (before ++ (.register pid,.registered id) :: during ++
      (.unregister id,.unregistered) :: after) =
      calls before ++ .register pid :: calls during ++ .unregister id :: calls after := by
    rw [calls_append,hstart]
    exact congrArg _ (calls_cons (.unregister id) (.removed true) after)
  rw [hstart] at hcount
  have h := Feed.subscription_messages (calls before) (calls during) (calls after) pid id hreg
    hcount hduring
  rw [← hend,← hstart] at h
  exact h

theorem Progress.received (h : Progress f op s l) (id : Nat) :
    ∃ more, s.subscribers.feed.received id = f.received id ++ more ∧
      (f.holders id = [] → more = []) := by
  cases l with
  | locked op' => exact ⟨[],by rw [h.2.2,List.append_nil],fun _ => rfl⟩
  | configLog pid => exact ⟨[],by rw [h.2.2,List.append_nil],fun _ => rfl⟩
  | storeInstalled pid => exact ⟨[],by rw [h.2.2.2,List.append_nil],fun _ => rfl⟩
  | list l => exact h.1.received id

theorem mem_notifications {cs : List (Op Pid × Reply)} {errCode : Int} {msg : String}
    {reply : Feed.Reply} (h : (Op.log errCode msg,.ofList reply) ∈ cs) :
    (errCode,msg) ∈ Feed.notifications (calls cs) := by
  obtain ⟨before,after,rfl⟩ := List.append_of_mem h
  rw [calls_append,calls_cons]
  simp [Feed.notifications,Op.call,Feed.Call.message?]

theorem first_unregister {α : Type} {ms : List (Mark α (Op Pid) Reply)} {id : Nat}
    (h : Feed.Call.unregister id ∈ calls (completions ms)) :
    ∃ earlier j a r later, ms = earlier ++ .finished j a (.unregister id) r :: later ∧
      (∀ e, r ≠ .error e) ∧ Feed.Call.unregister id ∉ calls (completions earlier) := by
  induction ms with
  | nil => cases h
  | cons m ms ih =>
    by_cases hm : Feed.Call.unregister id ∈ calls (completions [m])
    · cases m with
      | called k a op | returned k a r => cases hm
      | finished k a op r =>
        cases r with
        | error e => cases hm
        | registered id' | unregistered | logged | fault f =>
          have hop : op.call = .unregister id := (List.mem_singleton.mp hm).symm
          cases op with
          | unregister id' =>
            cases hop
            exact ⟨[],k,a,_,ms,rfl,fun _ => by simp,by simp [calls,reached,completions]⟩
          | register pid | log errCode msg => cases hop
    · have happend : calls (completions (m :: ms)) =
          calls (completions [m]) ++ calls (completions ms) := by
        rw [← calls_append,← completions_append]
        rfl
      rw [happend] at h
      obtain ⟨earlier,j,a,r,later,rfl,hr,hearlier⟩ :=
        ih ((List.mem_append.mp h).resolve_left hm)
      refine ⟨m :: earlier,j,a,r,later,rfl,hr,?_⟩
      have hfirst : calls (completions (m :: earlier)) =
          calls (completions [m]) ++ calls (completions earlier) := by
        rw [← calls_append,← completions_append]
        rfl
      rw [hfirst]
      exact fun hmem => (List.mem_append.mp hmem).elim hm hearlier

section Threads

variable {α : Type} [DecidableEq α] (poisoned : Bool)
  (is : List (α × Input (Op Pid) (Except String Unit)))

def threads : State α (Shared Pid) (Op Pid) (Loc Pid) Reply :=
  (run (Critical.step object) (.initial (.initial poisoned)) is).1

def happened : List (Mark α (Op Pid) Reply) := marks object (.initial poisoned) is

theorem threads_completed {before rest : List (Op Pid × Reply)}
    (h : completions (happened poisoned is) = before ++ (op,r) :: rest) :
    ∃ t, Completed (feed before) op t r := by
  obtain ⟨t,hseq,_⟩ := shared_reached object (.initial poisoned) is
  rw [show completions (marks object (.initial poisoned) is) = _ from h] at hseq
  exact completed_of_mem hseq

/-- No thread reads or frees a list that was freed, and no list is lost: whatever the threads
do, the next access of each is to a live box, no box is freed twice, and while nobody has the
lock every box but the current one was freed. -/
theorem log_hook_memory_safe :
    (∀ a k op l p, (threads poisoned is).pc a = .inside k op (.list l) → l.accesses = some p →
      p < (threads poisoned is).shared.subscribers.boxes.length ∧
        p ∉ (threads poisoned is).shared.subscribers.reclaimed) ∧
    (threads poisoned is).shared.subscribers.reclaimed.Nodup ∧
    ((threads poisoned is).mutex = none →
      Balanced ⟨(threads poisoned is).shared.subscribers.boxes.length,
          (threads poisoned is).shared.subscribers.reclaimed⟩
        (threads poisoned is).shared.subscribers.head.toList) ∧
    ∀ k a op f, Mark.finished k a op (.fault f) ∉ happened poisoned is := by
  have hinitial : Settled (Shared.initial poisoned : Shared Pid) := settled_initial poisoned
  refine ⟨?_,?_,?_,?_⟩
  · intro a k op l p hpc hp
    obtain ⟨f,op,hprogress⟩ := inside_keeps keeps_settled hinitial hpc
    exact hprogress.1.access_live hp
  · refine always_keeps is keeps_settled hinitial
      (K := fun s => s.subscribers.reclaimed.Nodup) (fun _ h => h.owned.nodup_reclaimed) ?_
    intro s l h
    obtain ⟨f,op,hprogress⟩ := h
    cases l with
    | locked op' => exact hprogress.2.1.owned.nodup_reclaimed
    | configLog pid => exact hprogress.2.1.owned.nodup_reclaimed
    | storeInstalled pid => exact hprogress.2.2.1.owned.nodup_reclaimed
    | list l =>
      obtain ⟨inHand,howned⟩ := hprogress.1.owned
      exact howned.nodup_reclaimed
  · intro hfree
    exact (free_keeps keeps_settled hinitial hfree).owned
  · intro k a op f hmem
    obtain ⟨before,after,hcs⟩ := List.append_of_mem (mem_completions hmem)
    obtain ⟨_,_,⟨e,hr,_⟩ | ⟨reply,hr,_⟩⟩ := threads_completed poisoned is hcs
    · cases hr
    · cases reply <;> cases hr

theorem threads_feed (hfree : (threads poisoned is).mutex = none) :
    (threads poisoned is).shared.subscribers.feed = feed (completions (happened poisoned is)) :=
  (sequential_replayed ((inv_run object (.initial poisoned) is).free hfree)).feed_eq

/-- The calls that are over are a run of the subscriber list: replayed one after another in
the order in which they finished, they are answered as they were, and the list is as the
replay leaves it whenever nobody has the lock. That order keeps to real time, and while the
replayed list has a subscriber SQLite is set to call back. -/
theorem log_hook_linearizable :
    (run Feed.step .new (calls (completions (happened poisoned is)))).2.map Reply.ofList =
      (reached (completions (happened poisoned is))).map Prod.snd ∧
    ((threads poisoned is).mutex = none →
      (threads poisoned is).shared.subscribers.feed = feed (completions (happened poisoned is))) ∧
    (∀ k j a b op op' r r', [.returned k a r,.called j b op'].Sublist (happened poisoned is) →
      Mark.finished k a op r ∈ happened poisoned is →
      Mark.finished j b op' r' ∈ happened poisoned is →
      [.finished k a op r,.finished j b op' r'].Sublist (happened poisoned is)) ∧
    ((feed (completions (happened poisoned is))).list.entries ≠ [] →
      (threads poisoned is).shared.configured = true) := by
  obtain ⟨t,hseq,hshared⟩ := shared_reached object (.initial poisoned) is
  have hreplayed := sequential_replayed hseq
  refine ⟨hreplayed.replies,?_,?_,?_⟩
  · exact threads_feed poisoned is
  · intro k j a b op op' r r' hreal hk hj
    exact finished_order hreal hk hj
  · intro hne
    have hconfigured : t.configured = true := by
      apply hreplayed.settled.flags.configured
      apply hreplayed.settled.flags.installed
      rw [hreplayed.feed_eq]
      exact hne
    obtain hsame | ⟨op,l,hreach⟩ := hshared
    · rw [threads,hsame]
      exact hconfigured
    · exact hreach.inv (J := fun s _ => s.configured = true)
        (fun _ _ _ _ _ h hstep => step_configured h hstep) hconfigured

theorem threads_received (id : Nat) :
    ∃ more, (threads poisoned is).shared.subscribers.feed.received id =
        (feed (completions (happened poisoned is))).received id ++ more ∧
      ((feed (completions (happened poisoned is))).holders id = [] → more = []) := by
  obtain ⟨t,hseq,hshared⟩ := shared_reached object (.initial poisoned) is
  have hreplayed := sequential_replayed hseq
  rw [happened,← hreplayed.feed_eq]
  obtain hsame | ⟨op,l,hreach⟩ := hshared
  · exact ⟨[],by rw [threads,hsame,List.append_nil],fun _ => rfl⟩
  · have hprogress := hreach.inv (J := Progress t.subscribers.feed op)
      (fun _ _ _ _ _ => step_more) ⟨rfl,hreplayed.settled,rfl⟩
    exact hprogress.received id

theorem log_answered {k : Nat} {a : α} {errCode : Int} {msg : String}
    (h : Mark.finished k a (.log errCode msg) r ∈ happened poisoned is) :
    ∃ reply, r = .ofList reply := by
  obtain ⟨before,rest,hcs⟩ := List.append_of_mem (mem_completions h)
  obtain ⟨t,_,⟨e,_,hlog,_⟩ | ⟨reply,hr,_⟩⟩ := threads_completed poisoned is hcs
  · exact absurd rfl (hlog errCode msg)
  · exact ⟨reply,hr⟩

theorem unregister_answered {k : Nat} {a : α} {id : Nat}
    (h : Mark.finished k a (.unregister id) r ∈ happened poisoned is)
    (hr : ∀ e, r ≠ .error e) : r = .unregistered := by
  obtain ⟨before,rest,hcs⟩ := List.append_of_mem (mem_completions h)
  obtain ⟨t,_,⟨e,herror,_⟩ | ⟨reply,hreply,hcall⟩⟩ := threads_completed poisoned is hcs
  · exact absurd herror (hr e)
  · have hremoved : reply = .removed (Hook.unregister (feed before).list id).2 :=
      (congrArg Prod.snd hcall).symm
    rw [hreply,hremoved]
    rfl

/-- What one subscription is sent, whatever the threads do: the messages of the events that
finished between its registration and its end, in their order and each once. While it lasts
this holds whenever nobody has the lock; once its unregistration is over it holds for good. -/
theorem log_subscription_messages (before during after : List (Op Pid × Reply)) (pid : Pid)
    (id : Nat) (hcount : Feed.registrations (calls (completions (happened poisoned is))) < 2^64-1)
    (hduring : Feed.Call.unregister id ∉ calls during) :
    (completions (happened poisoned is) = before ++ (.register pid,.registered id) :: during →
      (threads poisoned is).mutex = none →
      (threads poisoned is).shared.subscribers.feed.received id =
        Feed.notifications (calls during)) ∧
    (completions (happened poisoned is) = before ++ (.register pid,.registered id) :: during ++
        (.unregister id,.unregistered) :: after →
      (threads poisoned is).shared.subscribers.feed.received id =
        Feed.notifications (calls during)) := by
  refine ⟨?_,?_⟩
  · intro hcs hfree
    obtain ⟨t,hdone⟩ := threads_completed poisoned is hcs
    have hreg := registered_handle hdone
    rw [hcs] at hcount
    rw [threads_feed poisoned is hfree,hcs]
    have hnothing : Feed.registrations (calls ([] : List (Op Pid × Reply))) = 0 := rfl
    exact (feed_subscription hreg (by rw [hnothing]; exact hcount) hduring).1
  · intro hcs
    obtain ⟨t,hdone⟩ := threads_completed poisoned is (hcs.trans (List.append_assoc _ _ _))
    have hreg := registered_handle hdone
    rw [hcs,calls_append,Feed.registrations_append,registrations_unregister] at hcount
    have hended := (feed_subscription hreg hcount hduring).2
    obtain ⟨more,hreceived,hnone⟩ := threads_received poisoned is id
    rw [hcs] at hreceived hnone
    rw [hreceived,hnone hended.1,List.append_nil]
    exact hended.2

def oneSubscriber : List (Bool × Input (Op Nat) (Except String Unit)) :=
  (false,.call (.register 7)) :: List.replicate 10 (false,.next (.ok ())) ++
    (true,.call (.log 1 "m")) :: List.replicate 7 (true,.next (.ok ()))

theorem oneSubscriber_happened :
    happened false oneSubscriber =
      [.called 0 false (.register 7),.finished 0 false (.register 7) (.registered 1),
        .returned 0 false (.registered 1),.called 1 true (.log 1 "m"),
        .finished 1 true (.log 1 "m") .logged,.returned 1 true .logged] := rfl

theorem log_subscription_messages_one :
    (threads false oneSubscriber).mutex = none ∧
      (threads false oneSubscriber).shared.subscribers.feed.received 1 = [(1,"m")] := by
  have hfree : (threads false oneSubscriber).mutex = none := rfl
  have h := log_subscription_messages false oneSubscriber [] [(.log 1 "m",.logged)] [] 7 1
    (by rw [oneSubscriber_happened]; decide) (by decide)
  exact ⟨hfree,h.1 (by rw [oneSubscriber_happened]; rfl) hfree⟩

/-- A subscriber is sent every event that is raised after its registration has returned and
is over before anybody asks for its unregistration. -/
theorem log_event_delivered (kr k : Nat) (a b : α) (id : Nat) (errCode : Int) (msg : String)
    (r : Reply)
    (hcount : Feed.registrations (calls (completions (happened poisoned is))) < 2^64-1)
    (hraised : [.returned kr a (.registered id),.called k b (.log errCode msg)].Sublist
      (happened poisoned is))
    (hover : Mark.finished k b (.log errCode msg) r ∈ happened poisoned is)
    (hkept : ∀ j c, Mark.called j c (.unregister id) ∈ happened poisoned is →
      [.returned k b r,.called j c (.unregister id)].Sublist (happened poisoned is)) :
    (errCode,msg) ∈ (threads poisoned is).shared.subscribers.feed.received id := by
  obtain ⟨op,hreturned⟩ := returned_finished (hraised.subset List.mem_cons_self)
  have hfinished : Mark.finished kr a op (.registered id) ∈ happened poisoned is :=
    hreturned.subset List.mem_cons_self
  obtain ⟨earlier,rest,hmarks,hrest⟩ :=
    before_split (l := happened poisoned is) (finished_order hraised hfinished hover)
  have hcs : completions (happened poisoned is) =
      completions earlier ++ (op,.registered id) :: completions rest := by
    rw [hmarks,completions_append,completions_finished]
  obtain ⟨t,hdone⟩ := threads_completed poisoned is hcs
  obtain ⟨pid,rfl⟩ := register_of_registered hdone
  obtain ⟨reply,rfl⟩ := log_answered poisoned is hover
  obtain ⟨more,hreceived,_⟩ := threads_received poisoned is id
  rw [hreceived]
  refine List.mem_append_left more ?_
  by_cases hun : Feed.Call.unregister id ∈ calls (completions rest)
  · obtain ⟨during,j,c,r,after,rfl,hr,hduring⟩ := first_unregister hun
    have hsuffix : happened poisoned is =
        (earlier ++ .finished kr a (.register pid) (.registered id) :: during) ++
          .finished j c (.unregister id) r :: after := by
      rw [hmarks,List.append_assoc,List.cons_append]
    have hgone : Mark.finished j c (.unregister id) r ∈ happened poisoned is := by
      rw [hsuffix]
      simp
    have hr : r = .unregistered := unregister_answered poisoned is hgone hr
    have hcalled : [.called j c (.unregister id),.finished j c (.unregister id) r].Sublist
        (happened poisoned is) := (inv_run object (.initial poisoned) is).after _ hgone
    -- the event was over when the unregistration was called, so it is not among the later ones
    have hbefore := finished_order (hkept j c (hcalled.subset List.mem_cons_self)) hover hgone
    have hmem : Mark.finished k b (.log errCode msg) (.ofList reply) ∈ during := by
      obtain hduring | hlater := List.mem_append.mp hrest
      · exact hduring
      · exfalso
        obtain heq | hafter := List.mem_cons.mp hlater
        · cases heq
        · refine not_before_both (inv_run object (.initial poisoned) is).nodup hbefore ?_
          exact (before_of_mem hafter).trans (List.IsSuffix.sublist ⟨_,hsuffix.symm⟩)
    have hsplit : completions (happened poisoned is) =
        completions earlier ++ (.register pid,.registered id) :: completions during ++
          (.unregister id,.unregistered) :: completions after := by
      rw [hcs,completions_append,completions_finished,hr]
      simp
    rw [hsplit] at hcount ⊢
    rw [calls_append,Feed.registrations_append,registrations_unregister] at hcount
    rw [(feed_subscription (registered_handle hdone) hcount hduring).2.2]
    exact mem_notifications (mem_completions hmem)
  · have hnothing : Feed.registrations (calls ([] : List (Op Pid × Reply))) = 0 := rfl
    rw [hcs] at hcount ⊢
    rw [(feed_subscription (registered_handle hdone) (by rw [hnothing]; exact hcount) hun).1]
    exact mem_notifications (mem_completions hrest)

theorem log_event_delivered_one :
    (1,"m") ∈ (threads false oneSubscriber).shared.subscribers.feed.received 1 := by
  refine log_event_delivered false oneSubscriber 0 1 false true 1 1 "m" .logged ?_ ?_ ?_ ?_
  · rw [oneSubscriber_happened]
    decide
  · rw [oneSubscriber_happened]
    exact .cons _ (.cons _ (.cons_cons _ (.cons_cons _ (List.nil_sublist _))))
  · rw [oneSubscriber_happened]
    simp
  · intro j c hj
    rw [oneSubscriber_happened] at hj
    simp at hj

end Threads

end Xqlite.LogHook

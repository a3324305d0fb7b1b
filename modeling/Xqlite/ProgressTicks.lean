import Xqlite.ProgressDispatch
set_option autoImplicit false

namespace Xqlite.Progress
open Runs Hook

variable {Token : Type}

def Response.sent : Response → List Sent
  | .returned _ sent => sent
  | _ => []

def Response.passed : Response → Bool
  | .returned 0 _ => true
  | _ => false

def Request.isCallback : Request Token → Bool
  | .callback _ => true
  | _ => false

def countsFor (s : TickSubscriber) (sent : List Sent) : List Int :=
  (sent.filter fun m => m.1 = s).map fun m => m.2.count

def messagesFor (s : TickSubscriber) (responses : List Response) : List Int :=
  countsFor s (responses.flatMap Response.sent)

def multiplesBelow (n c : Nat) : List Nat := (List.range c).filter fun k => k % n = 0

@[simp] theorem countsFor_nil (s : TickSubscriber) : countsFor s [] = [] := rfl

@[simp] theorem countsFor_append (s : TickSubscriber) (l m : List Sent) :
    countsFor s (l ++ m) = countsFor s l ++ countsFor s m := by
  simp [countsFor]

theorem countsFor_single_self (s : TickSubscriber) (m : TickMessage) :
    countsFor s [(s,m)] = [m.count] := by
  simp [countsFor]

theorem countsFor_single_other {s s' : TickSubscriber} (h : s' ≠ s) (m : TickMessage) :
    countsFor s [(s',m)] = [] := by
  simp [countsFor,h]

theorem messagesFor_cons (s : TickSubscriber) (r : Response) (rs : List Response) :
    messagesFor s (r :: rs) = countsFor s r.sent ++ messagesFor s rs := by
  simp [messagesFor]

theorem tickPass_eq (now : TickSubscriber → Nat) (counters : Nat → Nat)
    (ticks : HookList TickSubscriber) :
    tickPass now counters ticks =
      (ticks.entries.map HookEntry.state).foldl (tick now) (counters,[]) := by
  unfold tickPass
  rw [forEachSnapshot_eq,List.foldl_map]
  cases h : ticks.head with
  | none => simp [isEmpty,HookList.entries,h]
  | some v => simp [isEmpty,h]

theorem tick_other (now : TickSubscriber → Nat) (acc : (Nat → Nat) × List Sent)
    {s s' : TickSubscriber} (h : s'.count ≠ s.count) :
    (tick now acc s').1 s.count = acc.1 s.count ∧
      countsFor s (tick now acc s').2 = countsFor s acc.2 := by
  have hne : s' ≠ s := fun heq => h (by rw [heq])
  by_cases hn : acc.1 s'.count % s'.everyN = 0
  · simp [tick,hn,h.symm,sendTickToPid,countsFor_single_other hne]
  · simp [tick,hn,h.symm]

theorem tick_self (now : TickSubscriber → Nat) (acc : (Nat → Nat) × List Sent)
    (s : TickSubscriber) :
    (tick now acc s).1 s.count = (acc.1 s.count + 1) % 2^64 ∧
      countsFor s (tick now acc s).2 = countsFor s acc.2 ++
        if acc.1 s.count % s.everyN = 0 then [asI64 (acc.1 s.count)] else [] := by
  by_cases hn : acc.1 s.count % s.everyN = 0
  · simp [tick,hn,sendTickToPid,countsFor_single_self]
  · simp [tick,hn]

theorem foldl_tick_other (now : TickSubscriber → Nat) (l : List TickSubscriber)
    (acc : (Nat → Nat) × List Sent) {s : TickSubscriber}
    (h : s.count ∉ l.map TickSubscriber.count) :
    (l.foldl (tick now) acc).1 s.count = acc.1 s.count ∧
      countsFor s (l.foldl (tick now) acc).2 = countsFor s acc.2 := by
  induction l generalizing acc with
  | nil => exact ⟨rfl,rfl⟩
  | cons s' l ih =>
    simp only [List.map_cons,List.mem_cons,not_or] at h
    obtain ⟨hcount,hsent⟩ := ih (tick now acc s') h.2
    obtain ⟨hcount',hsent'⟩ := tick_other now acc (Ne.symm h.1)
    exact ⟨hcount.trans hcount',hsent.trans hsent'⟩

theorem foldl_tick_self (now : TickSubscriber → Nat) (l : List TickSubscriber)
    (acc : (Nat → Nat) × List Sent) {s : TickSubscriber} (hs : s ∈ l)
    (hnodup : (l.map TickSubscriber.count).Nodup) :
    (l.foldl (tick now) acc).1 s.count = (acc.1 s.count + 1) % 2^64 ∧
      countsFor s (l.foldl (tick now) acc).2 = countsFor s acc.2 ++
        if acc.1 s.count % s.everyN = 0 then [asI64 (acc.1 s.count)] else [] := by
  induction l generalizing acc with
  | nil => cases hs
  | cons s' l ih =>
    simp only [List.map_cons,List.nodup_cons] at hnodup
    by_cases hself : s' = s
    · subst hself
      obtain ⟨hcount,hsent⟩ := foldl_tick_other now l (tick now acc s') hnodup.1
      obtain ⟨hcount',hsent'⟩ := tick_self now acc s'
      exact ⟨hcount.trans hcount',hsent.trans hsent'⟩
    · have hl : s ∈ l := (List.mem_cons.mp hs).resolve_left (Ne.symm hself)
      have hne : s'.count ≠ s.count := fun heq =>
        hnodup.1 (heq ▸ List.mem_map_of_mem hl)
      obtain ⟨hcount,hsent⟩ := ih (tick now acc s') hl hnodup.2
      obtain ⟨hcount',hsent'⟩ := tick_other now acc hne
      rw [hcount'] at hcount hsent
      rw [hsent'] at hsent
      exact ⟨hcount,hsent⟩

def Conn.addrs (c : Conn Token) : List Nat :=
  (c.dispatch.ticks.entries.map HookEntry.state).map TickSubscriber.count

/-- No two subscribers share a counter, and the next address is free. -/
structure Conn.Distinct (c : Conn Token) : Prop where
  nodup : c.addrs.Nodup
  bound : ∀ a ∈ c.addrs, a < c.nextAddr

theorem distinct_opened (signalled : Token → Bool) : (Conn.opened signalled).Distinct :=
  ⟨List.nodup_nil,fun _ ha => absurd ha List.not_mem_nil⟩

theorem addrs_registered (c : Conn Token) (pid : Nat) {everyN : Nat} (tag : Option (List UInt8)) (now : Nat)
    (hn : everyN ≠ 0) :
    (registerProgressHook c pid everyN tag now).1.addrs = c.addrs ++ [c.nextAddr] := by
  simp [registerProgressHook,hn,Conn.addrs,TickSubscriber.new]

theorem addrs_unregistered (c : Conn Token) (id : Nat) :
    (((unregister c.dispatch.ticks id).1.entries.map HookEntry.state).map
      TickSubscriber.count).Sublist c.addrs := by
  rw [unregister_entries]
  exact (List.filter_sublist.map _).map _

theorem callback_kept (now : TickSubscriber → Nat) (c : Conn Token) :
    (progressDispatchCallback now c).1.dispatch = c.dispatch ∧
      (progressDispatchCallback now c).1.nextAddr = c.nextAddr := by
  unfold progressDispatchCallback
  cases cancelPass c.signalled c.dispatch.cancels <;> exact ⟨rfl,rfl⟩

section Steps

variable [DecidableEq Token]

theorem distinct_step (c : Conn Token) (r : Request Token) (h : c.Distinct) :
    (step c r).1.Distinct := by
  cases r with
  | registerProgressHook pid everyN tag now =>
    by_cases hn : everyN = 0
    · simpa [step,registerProgressHook,hn] using h
    · have haddrs := addrs_registered c pid tag now hn
      have hnext : (registerProgressHook c pid everyN tag now).1.nextAddr = c.nextAddr + 1 := by
        simp [registerProgressHook,hn]
      constructor
      · rw [step,haddrs,List.nodup_append]
        refine ⟨h.nodup,by simp,?_⟩
        intro a ha b hb
        have hlt := h.bound a ha
        have hb' := List.mem_singleton.mp hb
        omega
      · intro a ha
        rw [step,haddrs,List.mem_append,List.mem_singleton] at ha
        rw [step,hnext]
        rcases ha with ha | ha
        · have hlt := h.bound a ha
          omega
        · omega
  | unregisterProgressHook id =>
    have hsub := addrs_unregistered c id
    exact ⟨h.nodup.sublist hsub,fun a ha => h.bound a (hsub.subset ha)⟩
  | registerCancel token | unregisterCancel id | cancel token => exact ⟨h.nodup,h.bound⟩
  | callback now =>
    obtain ⟨hdispatch,hnext⟩ := callback_kept now c
    refine ⟨?_,?_⟩
    · simpa [step,Conn.addrs,hdispatch] using h.nodup
    · simpa [step,Conn.addrs,hdispatch,hnext] using h.bound

theorem registered_step {c : Conn Token} {r : Request Token} {e : HookEntry TickSubscriber}
    (he : e ∈ c.dispatch.ticks.entries) (hr : r ≠ .unregisterProgressHook e.id) :
    e ∈ (step c r).1.dispatch.ticks.entries := by
  cases r with
  | registerProgressHook pid everyN tag now =>
    by_cases hn : everyN = 0
    · simpa [step,registerProgressHook,hn] using he
    · simp [step,registerProgressHook,hn,he]
  | unregisterProgressHook id =>
    have hid : e.id ≠ id := fun heq => hr (by rw [heq])
    simp [step,he,hid]
  | registerCancel token | unregisterCancel id | cancel token => exact he
  | callback now =>
    obtain ⟨hdispatch,_⟩ := callback_kept now c
    simpa [step,hdispatch] using he

/-- What one request does to the counter of a registered subscriber, and what it sends
to it: nothing unless it is a callback that does not interrupt. -/
theorem counts_step {c : Conn Token} (r : Request Token) {e : HookEntry TickSubscriber}
    (h : c.Distinct) (he : e ∈ c.dispatch.ticks.entries) :
    (step c r).1.counters e.state.count =
      (if (step c r).2.passed then (c.counters e.state.count + 1) % 2^64
        else c.counters e.state.count) ∧
    countsFor e.state (step c r).2.sent =
      if (step c r).2.passed ∧ c.counters e.state.count % e.state.everyN = 0
        then [asI64 (c.counters e.state.count)] else [] := by
  cases r with
  | registerProgressHook pid everyN tag now =>
    by_cases hn : everyN = 0
    · simp [step,registerProgressHook,hn,Response.passed,Response.sent]
    · have haddr : e.state.count ∈ c.addrs :=
        List.mem_map_of_mem (List.mem_map_of_mem he)
      have hne : e.state.count ≠ c.nextAddr := Nat.ne_of_lt (h.bound _ haddr)
      simp [step,registerProgressHook,hn,Response.passed,Response.sent,hne]
  | unregisterProgressHook id => simp [step,Response.passed,Response.sent]
  | registerCancel token | unregisterCancel id | cancel token =>
    simp [step,Response.passed,Response.sent]
  | callback now =>
    cases hc : cancelPass c.signalled c.dispatch.cancels with
    | true => simp [step,progressDispatchCallback,hc,Response.passed,Response.sent]
    | false =>
      have hpass := foldl_tick_self now _ (c.counters,[]) (List.mem_map_of_mem he) h.nodup
      rw [← tickPass_eq] at hpass
      simpa [step,progressDispatchCallback,hc,Response.passed,Response.sent] using hpass

theorem messages_run {e : HookEntry TickSubscriber} (rest : List (Request Token)) (c : Conn Token)
    (h : c.Distinct) (he : e ∈ c.dispatch.ticks.entries)
    (hrest : .unregisterProgressHook e.id ∉ rest)
    (hfew : c.counters e.state.count + (run step c rest).2.countP Response.passed < 2^64) :
    messagesFor e.state (run step c rest).2 =
      ((List.range' (c.counters e.state.count) ((run step c rest).2.countP Response.passed)).filter
        fun k => k % e.state.everyN = 0).map asI64 := by
  induction rest generalizing c with
  | nil => rfl
  | cons r rest ih =>
    simp only [List.mem_cons,not_or] at hrest
    obtain ⟨hcount,hsent⟩ := counts_step r h he
    have hrun := ih (step c r).1 (distinct_step c r h) (registered_step he (Ne.symm hrest.1)) hrest.2
    simp only [run_cons,List.countP_cons] at hfew ⊢
    rw [messagesFor_cons,hsent]
    cases hp : (step c r).2.passed with
    | false =>
      simp only [hp,Bool.false_eq_true,if_false,false_and,Nat.add_zero,List.nil_append] at hfew hcount ⊢
      rw [hcount] at hrun
      exact hrun hfew
    | true =>
      simp only [hp,if_true,true_and] at hfew hcount ⊢
      have hlt : (c.counters e.state.count + 1) % 2^64 = c.counters e.state.count + 1 :=
        Nat.mod_eq_of_lt (by omega)
      rw [hcount,hlt] at hrun
      rw [hrun (by omega),List.range'_succ,List.filter_cons]
      by_cases hn : c.counters e.state.count % e.state.everyN = 0 <;> simp [hn]

theorem passed_le_callbacks (rest : List (Request Token)) (c : Conn Token) :
    (run step c rest).2.countP Response.passed ≤ rest.countP Request.isCallback := by
  induction rest generalizing c with
  | nil => exact Nat.le_refl _
  | cons r rest ih =>
    have hrest := ih (step c r).1
    have hone : (step c r).2.passed = true → r.isCallback = true := by
      cases r with
      | callback now => exact fun _ => rfl
      | registerProgressHook pid everyN tag now =>
        by_cases hn : everyN = 0 <;> simp [step,registerProgressHook,hn,Response.passed]
      | _ => simp [step,Response.passed]
    simp only [run_cons,List.countP_cons]
    cases hp : (step c r).2.passed with
    | false => simp only [Bool.false_eq_true,if_false]; omega
    | true => simp only [hone hp,if_true]; omega

theorem asI64_eq_iff (k : Nat) : asI64 k = k ↔ k < 2^63 := by
  unfold asI64
  by_cases h : k < 2^63
  · simp only [h,if_true]
  · simp only [h,if_false,iff_false]
    omega

theorem multiples_asI64_iff (n c : Nat) :
    (multiplesBelow n c).map asI64 = (multiplesBelow n c).map Int.ofNat ↔
      ∀ k < c, n ∣ k → k < 2^63 := by
  rw [List.map_inj_left]
  constructor
  · intro h k hk hdvd
    have hmem : k ∈ multiplesBelow n c := by
      simp [multiplesBelow,hk,Nat.mod_eq_zero_of_dvd hdvd]
    exact (asI64_eq_iff k).mp (h k hmem)
  · intro h k hmem
    simp only [multiplesBelow,List.mem_filter,List.mem_range,decide_eq_true_eq] at hmem
    exact (asI64_eq_iff k).mpr (h k hmem.1 (Nat.dvd_of_mod_eq_zero hmem.2))

theorem registered_entry (c : Conn Token) {pid everyN id : Nat} {tag : Option (List UInt8)}
    {now : Nat} (hreg : (step c (.registerProgressHook pid everyN tag now)).2 = .handle id) :
    ⟨id,.new pid everyN tag c.nextAddr now⟩ ∈
      (step c (.registerProgressHook pid everyN tag now)).1.dispatch.ticks.entries ∧
    (step c (.registerProgressHook pid everyN tag now)).1.counters c.nextAddr = 0 := by
  by_cases hn : everyN = 0
  · simp [step,registerProgressHook,hn] at hreg
  · simp only [step,registerProgressHook,hn,if_false,Response.handle.injEq] at hreg ⊢
    subst hreg
    simp

theorem messages_registered (signalled : Token → Bool) (pre rest : List (Request Token))
    {pid everyN id : Nat} {tag : Option (List UInt8)} {now : Nat}
    (hreg : (step (run step (.opened signalled) pre).1
      (.registerProgressHook pid everyN tag now)).2 = .handle id)
    (hrest : .unregisterProgressHook id ∉ rest)
    (hfew : rest.countP Request.isCallback < 2^64) :
    let c := (run step (.opened signalled) pre).1
    let responses := (run step (step c (.registerProgressHook pid everyN tag now)).1 rest).2
    messagesFor (.new pid everyN tag c.nextAddr now) responses =
      (multiplesBelow everyN (responses.countP Response.passed)).map asI64 := by
  intro c responses
  have hdistinct : c.Distinct :=
    run_inv_total step (I := Conn.Distinct) distinct_step pre (distinct_opened signalled)
  obtain ⟨hentry,hzero⟩ := registered_entry c hreg
  have hle := passed_le_callbacks rest (step c (.registerProgressHook pid everyN tag now)).1
  have hzero' : (step c (.registerProgressHook pid everyN tag now)).1.counters
      (TickSubscriber.new pid everyN tag c.nextAddr now).count = 0 := hzero
  have hrun := messages_run rest _ (distinct_step c _ hdistinct) hentry hrest
    (by simp only [hzero']; omega)
  simp only [hzero',← List.range_eq_range'] at hrun
  exact hrun

/-- A subscriber is sent the counts `0, n, 2n, …` below the number of callbacks that
passed, except that a count from `2^63` on arrives negative. -/
theorem tick_counts_iff (signalled : Token → Bool) (pre rest : List (Request Token))
    {pid everyN id : Nat} {tag : Option (List UInt8)} {now : Nat}
    (hreg : (step (run step (.opened signalled) pre).1
      (.registerProgressHook pid everyN tag now)).2 = .handle id)
    (hrest : .unregisterProgressHook id ∉ rest)
    (hfew : (pre ++ rest).countP Request.isCallback < 2^64) :
    let c := (run step (.opened signalled) pre).1
    let responses := (run step (step c (.registerProgressHook pid everyN tag now)).1 rest).2
    messagesFor (.new pid everyN tag c.nextAddr now) responses =
        (multiplesBelow everyN (responses.countP Response.passed)).map Int.ofNat ↔
      ∀ k < responses.countP Response.passed, everyN ∣ k → k < 2^63 := by
  intro c responses
  have hfew' : rest.countP Request.isCallback < 2^64 := by
    rw [List.countP_append] at hfew
    omega
  have hmessages := messages_registered signalled pre rest hreg hrest hfew'
  simp only at hmessages
  rw [hmessages]
  exact multiples_asI64_iff _ _

def mixedRequests : List (Request Unit) :=
  [.callback fun _ => 5,.registerProgressHook 9 1 none 6,.callback fun _ => 7,.registerCancel (),
    .cancel (),.callback fun _ => 8,.unregisterCancel 1,.unregisterProgressHook 2,
    .callback fun _ => 9,.callback fun _ => 9]

theorem tick_counts_iff_mixed :
    let c := (run step (.opened fun _ => false) []).1
    let responses :=
      (run step (step c (.registerProgressHook 4 3 none 2)).1 mixedRequests).2
    messagesFor (.new 4 3 none 0 2) responses = [0,3] ∧
      (messagesFor (.new 4 3 none c.nextAddr 2) responses =
          (multiplesBelow 3 (responses.countP Response.passed)).map Int.ofNat ↔
        ∀ k < responses.countP Response.passed, 3 ∣ k → k < 2^63) := by
  have hreg : (step (run step (.opened fun _ : Unit => false) []).1
      (.registerProgressHook 4 3 none 2)).2 = .handle 1 := rfl
  refine ⟨by decide,?_⟩
  exact tick_counts_iff (fun _ => false) [] mixedRequests hreg (by simp [mixedRequests]) (by decide)

theorem passed_callbacks (now : TickSubscriber → Nat) (n : Nat) (c : Conn Token)
    (h : c.dispatch.cancels.entries = []) :
    (run step c (List.replicate n (.callback now))).2.countP Response.passed = n := by
  induction n generalizing c with
  | zero => rfl
  | succ n ih =>
    have hpass : cancelPass c.signalled c.dispatch.cancels = false := by
      rw [cancelPass_eq,h]
      rfl
    obtain ⟨hdispatch,_⟩ := callback_kept now c
    have hrest := ih (step c (.callback now)).1 (by simpa [step,hdispatch] using h)
    rw [List.replicate_succ,run_cons,List.countP_cons,hrest]
    simp [step,progressDispatchCallback,hpass,Response.passed]

end Steps

def callbacksAlone (n : Nat) : List Response :=
  (run step (step (.opened fun _ : Unit => false) (.registerProgressHook 4 1 none 2)).1
    (List.replicate n (.callback fun _ => 3))).2

theorem callbacksAlone_passed (n : Nat) : (callbacksAlone n).countP Response.passed = n :=
  passed_callbacks _ n _ rfl

theorem callbacksAlone_messages {n : Nat} (hn : n < 2^64) :
    messagesFor (.new 4 1 none 0 2) (callbacksAlone n) = (multiplesBelow 1 n).map asI64 := by
  have hreg : (step (run step (.opened fun _ : Unit => false) []).1
      (.registerProgressHook 4 1 none 2)).2 = .handle 1 := rfl
  have hfew : (List.replicate n (.callback fun _ => 3 : Request Unit)).countP
      Request.isCallback < 2^64 := by
    simpa [List.countP_replicate,Request.isCallback] using hn
  have hmessages := messages_registered _ [] _ hreg (by simp) hfew
  have hpassed := callbacksAlone_passed n
  simp only [callbacksAlone] at hpassed
  simp only [run_nil,hpassed] at hmessages
  exact hmessages

/-- A subscriber to every callback, after `2^63 + 1` of them. -/
theorem tick_count_turns_negative :
    (callbacksAlone (2^63+1)).countP Response.passed = 2^63 + 1 ∧
      messagesFor (.new 4 1 none 0 2) (callbacksAlone (2^63+1)) ≠
        (multiplesBelow 1 (2^63+1)).map Int.ofNat := by
  refine ⟨callbacksAlone_passed _,?_⟩
  rw [callbacksAlone_messages (by omega)]
  intro hsame
  have hbound := (multiples_asI64_iff 1 (2^63+1)).mp hsame (2^63) (by omega) (one_dvd _)
  omega

end Xqlite.Progress

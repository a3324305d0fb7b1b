import Xqlite.Bridge
set_option autoImplicit false

namespace Xqlite.Telemetry

variable {Token : Type}

inductive Act where
  | register (pid : Nat) (opts : Term) (hook : HookName)
  | registerLog (pid : Nat)
  | unregister (h : HookKind × Nat)
  | start
  | stop (pid : Nat)

def act (env : Env Token) (w : World Token) : Act → World Token
  | .register pid opts hook => (registerPerConnHook env pid opts w hook).1
  | .registerLog pid => (registerLogHook env pid w).1
  | .unregister h => unregisterHook env w h
  | .start => (startLink w).1
  | .stop pid => stopForwarder pid w

theorem Room.adds {w w' : World Token} {n : Nat} {k : HookKind} {sub : Subscriber}
    (h : Room w (n+1)) (hadds : Adds k sub w w') : Room w' n where
  ids k' s hs := by
    have hk := h.space k
    have hnext := hadds.next_eq (by omega)
    by_cases hkk : k' = k
    · subst hkk
      rw [hadds.subs_self] at hs
      rw [hnext]
      rcases List.mem_append.mp hs with hs | hs
      · exact Nat.lt_succ_of_lt (h.ids k' s hs)
      · rw [List.mem_singleton.mp hs]
        exact Nat.lt_succ_self _
    · rw [hadds.subs_other k' hkk] at hs
      rw [hadds.next_other k' hkk]
      exact h.ids k' s hs
  space k' := by
    have hk := h.space k
    have hk' := h.space k'
    by_cases hkk : k' = k
    · subst hkk
      rw [hadds.next_eq (by omega)]
      omega
    · rw [hadds.next_other k' hkk]
      omega
  pids p hp := by
    rw [hadds.forwarders] at hp
    rw [hadds.nextPid]
    exact h.pids p hp

theorem unregisterHook_of_not_removable {env : Env Token} {w : World Token} {k : HookKind}
    (h : ¬ Removable env w.connOpen k) (handle : Nat) : unregisterHook env w (k,handle) = w := by
  cases k with
  | plain p =>
    cases p with
    | log =>
      have hlock : env.lockError.isSome = true := Option.isSome_iff_ne_none.mpr h
      simp [unregisterHook,hlock]
    | _ => simp [unregisterHook,show w.connOpen = false by simpa [Removable] using h]
  | progress => simp [unregisterHook,show w.connOpen = false by simpa [Removable] using h]
  | busy =>
    cases hopen : w.connOpen with
    | false => simp [unregisterHook,hopen]
    | true =>
      have hrc : env.busyRc.code ≠ Ffi.sqliteOk := fun hrc => h ⟨hopen,hrc⟩
      simp [unregisterHook,hopen,Busy.unregisterObserver,Busy.swapIn_eq,hrc]

/-- The busy slot forgets its counter with its last observer; the others keep theirs. -/
theorem nextHandle_unregisterHook {env : Env Token} {w : World Token} {k : HookKind}
    (h : Removable env w.connOpen k) (handle : Nat) (k' : HookKind) :
    nextHandle (unregisterHook env w (k,handle)) k' = nextHandle w k' ∨
      (subs (unregisterHook env w (k,handle)) k' = [] ∧
        nextHandle (unregisterHook env w (k,handle)) k' = 0) := by
  cases k with
  | plain p =>
    left
    cases k' with
    | progress => cases p <;> simp only [unregisterHook] <;> split <;> rfl
    | busy => cases p <;> simp only [unregisterHook] <;> split <;> rfl
    | plain q =>
      by_cases hq : q = p
      · subst hq
        cases q <;> simp only [unregisterHook] <;> split <;> simp [nextHandle]
      · cases p <;> simp only [unregisterHook] <;> split <;> simp [nextHandle,hq]
  | progress =>
    left
    have hopen : w.connOpen = true := h
    cases k' <;> simp [unregisterHook,hopen,nextHandle]
  | busy =>
    obtain ⟨hopen,hrc⟩ := h
    let next := withoutObserver handle (Busy.snapshot (env.now w) w.busy)
    have hremoved : unregisterHook env w (.busy,handle) = { w with busy := Busy.settle next } :=
      unregisterHook_busy env hopen hrc handle
    rw [hremoved]
    cases k' with
    | plain q => exact .inl rfl
    | progress => exact .inl rfl
    | busy =>
      by_cases hempty : next.isEmpty = true
      · have hsettle : Busy.settle next = ⟨none,.none⟩ := by rw [Busy.settle,if_pos hempty]
        right
        rw [hsettle]
        exact ⟨rfl,rfl⟩
      · have hsettle : Busy.settle next = ⟨some next,.callback⟩ := by
          rw [Busy.settle,if_neg hempty]
        left
        rw [hsettle]
        exact snapshot_nextHandle (env.now w) w.busy

theorem unregisterHook_nextPid (env : Env Token) (w : World Token) (h : HookKind × Nat) :
    (unregisterHook env w h).nextPid = w.nextPid := by
  obtain ⟨k,handle⟩ := h
  cases k with
  | plain p => cases p <;> simp only [unregisterHook] <;> split <;> rfl
  | progress =>
    simp only [unregisterHook]
    split <;> rfl
  | busy =>
    simp only [unregisterHook]
    split
    · rfl
    · split <;> rfl

theorem room_unregisterHook {w : World Token} {n : Nat} (h : Room w n) (env : Env Token)
    (x : HookKind × Nat) : Room (unregisterHook env w x) n := by
  obtain ⟨k,handle⟩ := x
  by_cases hk : Removable env w.connOpen k
  · refine ⟨?_,?_,?_⟩
    · intro k' s hs
      rcases nextHandle_unregisterHook hk handle k' with hnext | ⟨hnil,-⟩
      · rw [subs_unregisterHook env hk] at hs
        rw [hnext]
        exact h.ids k' s (List.mem_of_mem_filter hs)
      · rw [hnil] at hs
        cases hs
    · intro k'
      have hspace := h.space k'
      rcases nextHandle_unregisterHook hk handle k' with hnext | ⟨-,hnext⟩
      · rw [hnext]
        exact hspace
      · rw [hnext]
        omega
    · rw [(unregisterHook_frame env w _).2,unregisterHook_nextPid]
      exact h.pids
  · rw [unregisterHook_of_not_removable hk]
    exact h

theorem room_startLink {w : World Token} {n : Nat} (h : Room w n) : Room (startLink w).1 n where
  ids k := by
    rw [subs_startLink,nextHandle_startLink]
    exact h.ids k
  space k := by
    rw [nextHandle_startLink]
    exact h.space k
  pids p hp := by
    rcases List.mem_append.mp hp with hp | hp
    · exact Nat.lt_succ_of_lt (h.pids p hp)
    · rw [List.mem_singleton.mp hp]
      exact Nat.lt_succ_self _

theorem room_stopForwarder {w : World Token} {n : Nat} (h : Room w n) (pid : Nat) :
    Room (stopForwarder pid w) n where
  ids k := by
    rw [subs_stopForwarder,nextHandle_stopForwarder]
    exact h.ids k
  space k := by
    rw [nextHandle_stopForwarder]
    exact h.space k
  pids p hp := h.pids p (List.mem_of_mem_filter hp)

theorem room_act {w : World Token} {n : Nat} (h : Room w (n+1)) (env : Env Token) (a : Act) :
    Room (act env w a) n := by
  have hless : Room w n := h.mono (Nat.le_succ n)
  cases a with
  | register pid opts hook =>
    have hends := registerPerConnHook_ends env pid opts w hook
    show Room (registerPerConnHook env pid opts w hook).1 n
    generalize registerPerConnHook env pid opts w hook = result at hends ⊢
    generalize fate env w.connOpen opts hook = f at hends
    cases hends with
    | registers k sub w' hkind htarget hremovable hadds => exact h.adds hadds
    | refused e => exact hless
    | raises => exact hless
  | registerLog pid =>
    show Room (registerLogHook env pid w).1 n
    by_cases hlog : env.lockError = none ∧ (w.masterInstalled = true ∨ env.configError = none)
    · obtain ⟨w',hregister,hadds⟩ := registerLogHook_ok pid hlog.1 hlog.2
      rw [hregister]
      exact h.adds hadds
    · obtain ⟨e,he⟩ := registerLogHook_error pid hlog
      rw [he]
      exact hless
  | unregister x => exact room_unregisterHook hless env x
  | start => exact room_startLink hless
  | stop pid => exact room_stopForwarder hless pid

theorem room_run (env : Env Token) (acts : List Act) {w : World Token} {n : Nat}
    (h : Room w (n + acts.length)) : Room (acts.foldl (act env) w) n := by
  induction acts generalizing w with
  | nil => exact h
  | cons a acts ih => exact ih (room_act h env a)

def World.opened (signalled : Token → Bool) : World Token :=
  ⟨true,fun _ => .new,.opened signalled,⟨none,.none⟩,false,[],0⟩

theorem room_opened (signalled : Token → Bool) {n : Nat} (hn : n + 1 < 2^64) :
    Room (World.opened signalled) n where
  ids k s hs := by cases k <;> cases hs
  space k := by
    cases k with
    | plain p =>
      show 1 + n < 2^64
      omega
    | progress =>
      show 1 + n < 2^64
      omega
    | busy =>
      show 0 + n < 2^64
      omega
  pids p hp := nomatch hp

theorem room_reached (env : Env Token) (signalled : Token → Bool) (acts : List Act) {n : Nat}
    (hn : n + acts.length + 1 < 2^64) :
    Room (acts.foldl (act env) (World.opened signalled)) n :=
  room_run env acts (room_opened signalled hn)

end Xqlite.Telemetry

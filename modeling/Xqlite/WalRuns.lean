import Xqlite.WalSlot
set_option autoImplicit false

namespace Xqlite.Wal
open Runs Pragma

variable {Pid : Type}

def SetResult.succeeded : SetResult → Bool
  | .noRow | .row _ => true
  | _ => false

/-- The thresholds taken by SQLite during a `set_pragma`. -/
def setTaken (name : String) (value : Term) (a : Answer) : List Int :=
  match validateName name, formatTermForPragma value with
  | .ok (), .ok _ => a.taken
  | _, _ => []

def takenBy : Call Pid → List Int
  | .setPragma name value a => setTaken name value a
  | .put key value dbName a =>
    match key.resolve with
    | none => []
    | some name =>
      if validPragmaValue (schema.lookup name) value then
        match dbName with
        | none => setTaken name value a
        | some _ => if formatsPragmaValue value then a.taken else []
      else []
  | _ => []

/-- SQLite on one prepared `PRAGMA name = literal`: only the autocheckpoint pragma,
in any case, takes a threshold, and when it succeeds it takes one and reports it,
or 0 where it is not positive. -/
structure SetFaithful (name : String) (a : Answer) : Prop where
  named : a.taken ≠ [] → spells name = true
  reported : spells name = true → a.set.succeeded = true →
    ∃ n : Int, -2^31 ≤ n ∧ n < 2^31 ∧ a.taken = [n] ∧ a.set = .row (.integer (max n 0))

def Faithful : Call Pid → Prop
  | .setPragma name _ a => SetFaithful name a
  | .put key _ none a => ∀ name, key.resolve = some name → SetFaithful name a
  | _ => True

/-- Calls that set the autocheckpoint pragma spell it in lower case, give no
database name, and succeed. -/
def KeepsSlot : Call Pid → Prop
  | .setPragma name value a =>
      setTaken name value a ≠ [] → name = walAutocheckpoint ∧ a.set.succeeded = true
  | .put key value none a => takenBy (.put key value none a : Call Pid) ≠ [] →
      key.resolve = some walAutocheckpoint ∧ a.set.succeeded = true
  | .put key value (some dbName) a => takenBy (.put key value (some dbName) a : Call Pid) = []
  | _ => True

/-- The threshold in force after SQLite took the ones in the log. -/
def lastThreshold (log : List Int) : Int :=
  match log.getLast? with
  | none => defaultWalAutocheckpointPages
  | some n => max n 0

structure Kept (log : List Int) (c : Conn Pid) : Prop where
  slot : c.slot = .xqlite
  pages : c.autocheckpointPages = lastThreshold log

theorem kept_opened : Kept [] (Conn.opened : Conn Pid) := ⟨rfl,rfl⟩

theorem clampI32_of_mem {n : Int} (hlow : -2^31 ≤ n) (hhigh : n < 2^31) :
    clampI32 (max n 0) = max n 0 := by
  unfold clampI32
  omega

theorem storePages_int {c : Conn Pid} {n : Int} (hlow : -2^31 ≤ n) (hhigh : n < 2^31) :
    c.storePages (.int (max n 0)) = { c with autocheckpointPages := max n 0 } := by
  have hrange : -2^63 ≤ max n 0 ∧ max n 0 < 2^63 := by omega
  simp only [Conn.storePages,Term.decodeI64,hrange,and_self,if_true,clampI32_of_mem hlow hhigh]

theorem lastThreshold_append_singleton (log : List Int) (n : Int) :
    lastThreshold (log ++ [n]) = max n 0 := by
  simp [lastThreshold]

theorem setPragma_of_taken_nil {c : Conn Pid} {name : String} {value : Term} {a : Answer}
    (ht : a.taken = []) (hname : a.set.succeeded = true → name ≠ walAutocheckpoint) :
    (setPragma c name value a).1 = c := by
  have hsame : c.evicted a.taken = c := by rw [ht]; rfl
  unfold setPragma
  split
  · rfl
  · rfl
  · rw [hsame]
    cases hset : a.set with
    | noRow | row v =>
      have hne := hname (by rw [hset]; rfl)
      simp [repair,hne]
    | _ => rfl

theorem Kept.setPragma {log : List Int} {c : Conn Pid} (h : Kept log c) {name : String}
    {value : Term} {a : Answer} (hf : SetFaithful name a)
    (hk : setTaken name value a ≠ [] → name = walAutocheckpoint ∧ a.set.succeeded = true) :
    Kept (log ++ setTaken name value a) (setPragma c name value a).1 := by
  cases hv : validateName name with
  | error e =>
    simp only [setTaken,Wal.setPragma,hv,List.append_nil]
    exact h
  | ok u =>
    cases hl : formatTermForPragma value with
    | error e =>
      simp only [setTaken,Wal.setPragma,hv,hl,List.append_nil]
      exact h
    | ok literal =>
      have htaken : setTaken name value a = a.taken := by simp only [setTaken,hv,hl]
      rw [htaken] at hk ⊢
      by_cases ht : a.taken = []
      · have hname : a.set.succeeded = true → name ≠ walAutocheckpoint := by
          intro hs heq
          obtain ⟨n,-,-,hn,-⟩ := hf.reported (by rw [heq]; exact spells_walAutocheckpoint) hs
          rw [ht] at hn
          cases hn
        rw [setPragma_of_taken_nil ht hname,ht,List.append_nil]
        exact h
      · obtain ⟨heq,hs⟩ := hk ht
        obtain ⟨n,hlow,hhigh,hn,hset⟩ := hf.reported (hf.named ht) hs
        subst heq
        have hresult : (Wal.setPragma c walAutocheckpoint value a).1 =
            { c with slot := .xqlite, autocheckpointPages := max n 0 } := by
          simp only [Wal.setPragma,hv,hl,hset,repair,if_true,encodeVal,
            storePages_int hlow hhigh,installCallback,Conn.evicted]
        rw [hresult,hn]
        exact ⟨rfl,(lastThreshold_append_singleton log n).symm⟩

theorem Kept.step {log : List Int} {c : Conn Pid} (h : Kept log c) {call : Call Pid}
    (hf : Faithful call) (hk : KeepsSlot call) :
    Kept (log ++ takenBy call) (Wal.step c call).1 := by
  cases call with
  | setPragma name value a => exact h.setPragma hf hk
  | put key value dbName a =>
    cases hkey : key.resolve with
    | none =>
      cases key <;> simpa [Wal.step,put,takenBy,hkey] using h
    | some name =>
      have hput : Wal.step c (.put key value dbName a) = doPut c name value dbName a := by
        cases key <;> simp [Wal.step,put,hkey]
      rw [hput]
      cases hvalid : validPragmaValue (schema.lookup name) value with
      | false => simpa [doPut,takenBy,hkey,hvalid] using h
      | true =>
        cases dbName with
        | none =>
          have htaken : takenBy (.put key value none a : Call Pid) = setTaken name value a := by
            simp [takenBy,hkey,hvalid]
          have hset : doPut c name value none a = Wal.setPragma c name value a := by
            simp [doPut,hvalid]
          rw [htaken,hset]
          refine h.setPragma (hf name hkey) ?_
          intro ht
          obtain ⟨hname,hs⟩ := hk (by rw [htaken]; exact ht)
          rw [hkey,Option.some.injEq] at hname
          exact ⟨hname,hs⟩
        | some dbName =>
          have hnil : takenBy (.put key value (some dbName) a : Call Pid) = [] := hk
          rw [hnil,List.append_nil]
          cases hformat : formatsPragmaValue value with
          | false => simpa [doPut,hvalid,hformat] using h
          | true =>
            have ht : a.taken = [] := by simpa [takenBy,hkey,hvalid,hformat] using hnil
            have hsame : c.evicted a.taken = c := by rw [ht]; rfl
            cases hb : a.batch <;> simpa [doPut,hvalid,hformat,hb,hsame] using h
  | registerWalHook pid => simpa [takenBy] using ⟨h.slot,h.pages⟩
  | unregisterWalHook id => simpa [takenBy] using ⟨h.slot,h.pages⟩
  | getPragma name a => simpa [takenBy,Wal.step] using h
  | commit dbName pages => simpa [takenBy,Wal.step] using h

@[simp] theorem repair_entries (c : Conn Pid) (name : String) (result : Term) :
    (repair c name result).entries = c.entries := by
  unfold repair Conn.storePages installCallback
  split
  · split <;> rfl
  · rfl

@[simp] theorem setPragma_entries (c : Conn Pid) (name : String) (value : Term) (a : Answer) :
    (setPragma c name value a).1.entries = c.entries := by
  unfold setPragma
  split
  · rfl
  · rfl
  · split <;> simp [Conn.evicted]

@[simp] theorem put_entries (c : Conn Pid) (key : Key) (value : Term) (dbName : Option String)
    (a : Answer) : (put c key value dbName a).1.entries = c.entries := by
  unfold put
  split
  · unfold doPut
    split
    · split
      · exact setPragma_entries _ _ _ _
      · split
        · split <;> rfl
        · rfl
    · rfl
  · rfl
  · rfl

theorem mem_entries_step {c : Conn Pid} {e : Nat × Pid} {call : Call Pid} (h : e ∈ c.entries)
    (hcall : call ≠ .unregisterWalHook e.1) : e ∈ (step c call).1.entries := by
  cases call with
  | registerWalHook pid => exact List.mem_append_left _ h
  | unregisterWalHook id =>
    have hne : e.1 ≠ id := by
      intro heq
      exact hcall (by rw [heq])
    simpa [step,unregisterWalHook,hne] using h
  | setPragma name value a => simpa [step] using h
  | put key value dbName a => simpa [step] using h
  | getPragma name a => exact h
  | commit dbName pages => exact h

theorem mem_entries_run {c : Conn Pid} {e : Nat × Pid} {calls : List (Call Pid)}
    (h : e ∈ c.entries) (hcalls : .unregisterWalHook e.1 ∉ calls) :
    e ∈ (run step c calls).1.entries := by
  induction calls generalizing c with
  | nil => exact h
  | cons call calls ih =>
    simp only [List.mem_cons,not_or] at hcalls
    exact ih (mem_entries_step h (fun heq => hcalls.1 heq.symm)) hcalls.2

/-- After every run of calls that keep the slot: xqlite's callback is in it, each
commit tells every subscriber that registered and did not unregister, and the
threshold that is reported is the one the callback uses and the one last taken. -/
theorem wal_callback_keeps_slot (calls : List (Call Pid))
    (h : AllSteps step (fun _ call => Faithful call ∧ KeepsSlot call) Conn.opened calls) :
    let c := (run step Conn.opened calls).1
    let threshold := lastThreshold (history step (fun _ call => takenBy call) Conn.opened calls)
    c.slot = .xqlite ∧
    (∀ dbName pages, commit c dbName pages =
      .committed (c.entries.map (fun e => (e.2,dbName,pages)))
        (0 < threshold && threshold ≤ pages)) ∧
    (∀ a, getPragma c walAutocheckpoint a = .ok (.int threshold)) ∧
    (∀ before pid after id, calls = before ++ .registerWalHook pid :: after →
      (registerWalHook (run step Conn.opened before).1 pid).2 = .handle id →
      .unregisterWalHook id ∉ after → (id,pid) ∈ c.entries) := by
  have hkept : Kept ([] ++ history step (fun _ call => takenBy call) Conn.opened calls)
      (run step Conn.opened calls).1 :=
    history_inv step (fun _ _ _ hs hc => hs.step hc.1 hc.2) kept_opened h
  rw [List.nil_append] at hkept
  refine ⟨hkept.slot,?_,?_,?_⟩
  · intro dbName pages
    rw [commit,hkept.slot,hkept.pages]
  · intro a
    rw [getPragma,if_pos rfl,hkept.pages]
  · intro before pid after id hcalls hid hafter
    rw [hcalls,run_append,run_cons]
    refine mem_entries_run ?_ hafter
    cases hid
    exact List.mem_append_right _ (List.mem_singleton.mpr rfl)

def taking (pages : Int) : Answer := ⟨[pages],.row (.integer pages),none,.row (.integer pages)⟩

theorem taking_faithful {name : String} (hname : spells name = true) :
    SetFaithful name (taking 100) :=
  ⟨fun _ => hname,fun _ _ => ⟨100,by decide,by decide,rfl,rfl⟩⟩

theorem wal_callback_keeps_slot_lower_case :
    AllSteps step (fun _ call => Faithful call ∧ KeepsSlot call) (Conn.opened : Conn Nat)
        [.registerWalHook 7,.setPragma "wal_autocheckpoint" (.int 100) (taking 100)] ∧
      commit (run step (Conn.opened : Conn Nat)
        [.registerWalHook 7,.setPragma "wal_autocheckpoint" (.int 100) (taking 100)]).1 "main" 120 =
        .committed [(7,"main",120)] true := by
  have hall : AllSteps step (fun _ call => Faithful call ∧ KeepsSlot call) (Conn.opened : Conn Nat)
      [.registerWalHook 7,.setPragma "wal_autocheckpoint" (.int 100) (taking 100)] :=
    ⟨⟨trivial,trivial⟩,⟨taking_faithful (by decide),fun _ => ⟨rfl,rfl⟩⟩,trivial⟩
  exact ⟨hall,(wal_callback_keeps_slot _ hall).2.1 "main" 120⟩

/-- Another spelling of the pragma, or its form with a database name, leaves SQLite's
hook in the slot: the subscriber is told nothing and 1000 is still reported. -/
theorem wal_callback_evicted :
    SetFaithful "WAL_AUTOCHECKPOINT" (taking 100) ∧
    (run step (Conn.opened : Conn Nat)
      [.registerWalHook 7,.setPragma "WAL_AUTOCHECKPOINT" (.int 100) (taking 100)]).1 =
        ⟨.sqlite 100,1000,[(1,7)],2⟩ ∧
    commit (⟨.sqlite 100,1000,[(1,7)],2⟩ : Conn Nat) "main" 120 = .committed [] true ∧
    getPragma (⟨.sqlite 100,1000,[(1,7)],2⟩ : Conn Nat) walAutocheckpoint (taking 100) =
      .ok (.int 1000) ∧
    (run step (Conn.opened : Conn Nat)
      [.put (.atom "wal_autocheckpoint") (.int 100) (some "main") (taking 100)]).1.slot =
        .sqlite 100 :=
  ⟨taking_faithful (by decide),rfl,rfl,rfl,rfl⟩

end Xqlite.Wal

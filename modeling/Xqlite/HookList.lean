import Xqlite.Lib.Runs
import Xqlite.Terms
set_option autoImplicit false

/-! The copy-on-write subscriber list behind every fan-out hook. The list is a pointer
to a vector, null when it is empty, beside a counter of its own; each write builds a
new vector and swaps it in. -/

namespace Xqlite.Hook
open Runs

structure HookEntry (T : Type) where
  id : Nat
  state : T
  deriving DecidableEq, Repr

/-- `head` is `none` for the null pointer. Cloning a state keeps it. -/
structure HookList (T : Type) where
  head : Option (List (HookEntry T))
  nextId : Nat
  deriving DecidableEq, Repr

variable {T : Type}

def HookList.new : HookList T := ⟨none,1⟩

/-- `fetch_add` on an `AtomicU64` wraps. -/
def register (l : HookList T) (state : T) : HookList T × Nat :=
  let entry : HookEntry T := ⟨l.nextId,state⟩
  let newVec :=
    match l.head with
    | none => [entry]
    | some existing => existing ++ [entry]
  (⟨some newVec,(l.nextId + 1) % 2^64⟩,l.nextId)

def unregister (l : HookList T) (id : Nat) : HookList T × Bool :=
  match l.head with
  | none => (l,false)
  | some existing =>
    let filtered := existing.filter fun e => e.id ≠ id
    if filtered.length = existing.length then (l,false)
    else (⟨if filtered.isEmpty then none else some filtered,l.nextId⟩,true)

def forEachSnapshot {σ : Type} (l : HookList T) (f : σ → HookEntry T → σ) (init : σ) : σ :=
  match l.head with
  | none => init
  | some snapshot => snapshot.foldl f init

def isEmpty (l : HookList T) : Bool := l.head.isNone

inductive Call (T : Type) where
  | register (state : T)
  | unregister (id : Nat)
  deriving DecidableEq, Repr

inductive Reply where
  | handle (id : Nat)
  | removed (found : Bool)
  deriving DecidableEq, Repr

def step (l : HookList T) : Call T → HookList T × Reply
  | .register state => ((register l state).1,.handle (register l state).2)
  | .unregister id => ((unregister l id).1,.removed (unregister l id).2)

def HookList.entries (l : HookList T) : List (HookEntry T) := l.head.getD []

@[simp] theorem entries_new : (HookList.new : HookList T).entries = [] := rfl

@[simp] theorem register_entries (l : HookList T) (state : T) :
    (register l state).1.entries = l.entries ++ [⟨l.nextId,state⟩] := by
  cases h : l.head <;> simp [register,HookList.entries,h]

@[simp] theorem register_id (l : HookList T) (state : T) :
    (register l state).2 = l.nextId := rfl

@[simp] theorem register_nextId (l : HookList T) (state : T) :
    (register l state).1.nextId = (l.nextId + 1) % 2^64 := rfl

@[simp] theorem unregister_nextId (l : HookList T) (id : Nat) :
    (unregister l id).1.nextId = l.nextId := by
  unfold unregister
  cases l.head with
  | none => rfl
  | some existing =>
    by_cases hlen : (existing.filter fun e => e.id ≠ id).length = existing.length
    · simp only [hlen,if_true]
    · simp only [hlen,if_false]

@[simp] theorem unregister_entries (l : HookList T) (id : Nat) :
    (unregister l id).1.entries = l.entries.filter fun e => e.id ≠ id := by
  unfold unregister
  cases h : l.head with
  | none => simp [HookList.entries,h]
  | some existing =>
    have hent : l.entries = existing := by simp [HookList.entries,h]
    by_cases hlen : (existing.filter fun e => e.id ≠ id).length = existing.length
    · have hsame := List.filter_sublist.eq_of_length hlen
      rw [hent,hsame]
      simp only [hlen,if_true]
      exact hent
    · rw [hent]
      simp only [hlen,if_false]
      cases hf : existing.filter (fun e => e.id ≠ id) with
      | nil => simp [HookList.entries]
      | cons e rest => simp [HookList.entries]

theorem unregister_found (l : HookList T) (id : Nat) :
    (unregister l id).2 = true ↔ ∃ e ∈ l.entries, e.id = id := by
  unfold unregister
  cases h : l.head with
  | none => simp [HookList.entries,h]
  | some existing =>
    have hent : l.entries = existing := by simp [HookList.entries,h]
    rw [hent]
    by_cases hlen : (existing.filter fun e => e.id ≠ id).length = existing.length
    · have hall := List.length_filter_eq_length_iff.mp hlen
      simp only [hlen,if_true,Bool.false_eq_true,false_iff]
      rintro ⟨e,he,rfl⟩
      simpa using hall e he
    · simp only [hlen,if_false,true_iff]
      by_contra hno
      refine hlen (List.length_filter_eq_length_iff.mpr ?_)
      intro e he
      exact decide_eq_true (fun heq => hno ⟨e,he,heq⟩)

theorem forEachSnapshot_eq {σ : Type} (l : HookList T) (f : σ → HookEntry T → σ) (init : σ) :
    forEachSnapshot l f init = l.entries.foldl f init := by
  cases h : l.head <;> simp [forEachSnapshot,HookList.entries,h]

/-- The null pointer stands for the empty list, and no vector behind it is empty. -/
def HookList.Canonical (l : HookList T) : Prop := l.head ≠ some []

theorem isEmpty_iff {l : HookList T} (h : l.Canonical) : isEmpty l = true ↔ l.entries = [] := by
  cases hh : l.head with
  | none => simp [isEmpty,HookList.entries,hh]
  | some v =>
    have hv : v ≠ [] := fun hv => h (by rw [hh,hv])
    simp [isEmpty,HookList.entries,hh,hv]

theorem canonical_step {l : HookList T} (h : l.Canonical) (call : Call T) :
    (step l call).1.Canonical := by
  cases call with
  | register state => cases hh : l.head <;> simp [step,register,HookList.Canonical,hh]
  | unregister id =>
    simp only [step,unregister]
    cases hh : l.head with
    | none => exact h
    | some existing =>
      by_cases hlen : (existing.filter fun e => e.id ≠ id).length = existing.length
      · simp only [hlen,if_true]
        exact h
      · simp only [hlen,if_false]
        cases hf : existing.filter (fun e => e.id ≠ id) <;> simp [HookList.Canonical]

def Call.removes (id : Nat) : Call T → Bool
  | .unregister id' => id' = id
  | .register _ => false

def Call.registers : Call T → Bool
  | .register _ => true
  | .unregister _ => false

def registrations (calls : List (Call T)) : Nat := calls.countP Call.registers

def Reply.handle? : Reply → Option Nat
  | .handle id => some id
  | .removed _ => none

def issued (l : HookList T) (calls : List (Call T)) : List Nat :=
  (run step l calls).2.filterMap Reply.handle?

def live : HookList T → List (Call T) → List (HookEntry T)
  | _, [] => []
  | l, .register state :: calls =>
    if calls.any (Call.removes l.nextId) then live (register l state).1 calls
    else ⟨l.nextId,state⟩ :: live (register l state).1 calls
  | l, .unregister id :: calls => live (unregister l id).1 calls

@[simp] theorem registrations_register (state : T) (calls : List (Call T)) :
    registrations (.register state :: calls) = registrations calls + 1 :=
  List.countP_cons_of_pos rfl

@[simp] theorem registrations_unregister (id : Nat) (calls : List (Call T)) :
    registrations (.unregister id :: calls) = registrations calls :=
  List.countP_cons_of_neg (by simp [Call.registers])

@[simp] theorem issued_register (l : HookList T) (state : T) (calls : List (Call T)) :
    issued l (.register state :: calls) = l.nextId :: issued (register l state).1 calls := rfl

@[simp] theorem issued_unregister (l : HookList T) (id : Nat) (calls : List (Call T)) :
    issued l (.unregister id :: calls) = issued (unregister l id).1 calls := rfl

/-- A run keeps the entries it does not unregister and appends what it registers. -/
theorem run_entries (l : HookList T) (calls : List (Call T)) :
    (run step l calls).1.entries =
      l.entries.filter (fun e => !calls.any (Call.removes e.id)) ++ live l calls := by
  induction calls generalizing l with
  | nil => simp [live]
  | cons call calls ih =>
    cases call with
    | register state =>
      by_cases hrem : calls.any (Call.removes l.nextId) = true
      · simp [step,ih,live,hrem,Call.removes]
      · simp [step,ih,live,hrem,Call.removes]
    | unregister id =>
      have hfilter : (l.entries.filter fun e => e.id ≠ id).filter
            (fun e => !calls.any (Call.removes e.id)) =
          l.entries.filter (fun e => !((Call.unregister id : Call T) :: calls).any
            (Call.removes e.id)) := by
        rw [List.filter_filter]
        refine List.filter_congr ?_
        intro e _
        by_cases he : id = e.id
        · simp [Call.removes,he]
        · simp [Call.removes,he,Ne.symm he]
      rw [run_cons,ih,← hfilter]
      simp only [step,unregister_entries,live]

theorem live_issued (l : HookList T) (calls : List (Call T)) :
    ((live l calls).map HookEntry.id).Sublist (issued l calls) := by
  induction calls generalizing l with
  | nil => exact List.Sublist.slnil
  | cons call calls ih =>
    cases call with
    | register state =>
      rw [issued_register]
      by_cases hrem : calls.any (Call.removes l.nextId) = true
      · simpa [live,hrem] using (ih (register l state).1).cons l.nextId
      · simpa [live,hrem] using (ih (register l state).1).cons_cons l.nextId
    | unregister id => exact ih (unregister l id).1

theorem issued_eq_range (l : HookList T) (calls : List (Call T))
    (h : l.nextId + registrations calls ≤ 2^64) :
    issued l calls = List.range' l.nextId (registrations calls) := by
  induction calls generalizing l with
  | nil => rfl
  | cons call calls ih =>
    cases call with
    | register state =>
      rw [registrations_register] at h ⊢
      rw [issued_register,List.range'_succ]
      by_cases hlast : registrations calls = 0
      · have hrest := ih (register l state).1 (by
          rw [register_nextId,hlast]
          have := Nat.mod_lt (l.nextId + 1) (show 2^64 > 0 by decide)
          omega)
        rw [hrest,hlast]
        rfl
      · have hnext : (l.nextId + 1) % 2^64 = l.nextId + 1 := Nat.mod_eq_of_lt (by omega)
        have hrest := ih (register l state).1 (by rw [register_nextId,hnext]; omega)
        rw [hrest,register_nextId,hnext]
    | unregister id =>
      rw [registrations_unregister] at h ⊢
      rw [issued_unregister,ih (unregister l id).1 (by rw [unregister_nextId]; exact h),unregister_nextId]

theorem canonical_run (calls : List (Call T)) :
    (run step HookList.new calls).1.Canonical := by
  have hnew : (HookList.new : HookList T).Canonical := by simp [HookList.Canonical,HookList.new]
  exact run_inv_total step (I := HookList.Canonical) (fun _ call h => canonical_step h call) calls hnew

theorem run_new_entries (calls : List (Call T)) :
    (run step HookList.new calls).1.entries = live HookList.new calls := by
  rw [run_entries,entries_new]
  rfl

/-- After any run the list is the ordered map of the subscribers registered and not
unregistered: it is walked in order of registration, its handles are among those it
issued, which count up, and removal takes out one entry. -/
theorem hook_list_refines_map (calls : List (Call T)) (h : registrations calls < 2^64) :
    let l := (run step HookList.new calls).1
    (∀ (σ : Type) (f : σ → HookEntry T → σ) (init : σ),
      forEachSnapshot l f init = (live HookList.new calls).foldl f init) ∧
    ((live HookList.new calls).map HookEntry.id).Nodup ∧
    (∀ e ∈ live HookList.new calls, e.id ∈ issued HookList.new calls) ∧
    (issued HookList.new calls).Pairwise (· < ·) ∧
    (∀ id, ((unregister l id).2 = true ↔ ∃ e ∈ live HookList.new calls, e.id = id) ∧
      (unregister l id).1.entries = (live HookList.new calls).filter (fun e => e.id ≠ id)) ∧
    (isEmpty l = true ↔ live HookList.new calls = []) := by
  have hrange : issued HookList.new calls = List.range' 1 (registrations calls) :=
    issued_eq_range HookList.new calls (by simp only [HookList.new]; omega)
  have hsorted : (issued HookList.new calls).Pairwise (· < ·) := by
    rw [hrange]
    exact List.pairwise_lt_range'
  have hsub := live_issued HookList.new calls
  refine ⟨?_,?_,?_,hsorted,?_,?_⟩
  · intro σ f init
    rw [forEachSnapshot_eq,run_new_entries]
  · exact hsub.nodup (hsorted.imp (fun hlt => Nat.ne_of_lt hlt))
  · intro e he
    exact hsub.subset (List.mem_map_of_mem he)
  · intro id
    rw [unregister_found,unregister_entries,run_new_entries]
    exact ⟨Iff.rfl,rfl⟩
  · rw [isEmpty_iff (canonical_run calls),run_new_entries]

/-- The first of two subscribers leaves. -/
theorem hook_list_refines_map_two :
    registrations [Call.register "a",.register "b",.unregister 1] < 2^64 ∧
      (unregister (run step HookList.new [Call.register "a",.register "b",.unregister 1]).1 2).2 =
        true := by
  have hcount : registrations [Call.register "a",.register "b",.unregister 1] < 2^64 := by decide
  exact ⟨hcount,((hook_list_refines_map _ hcount).2.2.2.2.1 2).1.mpr ⟨⟨2,"b"⟩,by decide,rfl⟩⟩

end Xqlite.Hook

import Xqlite.Lib.Mutex
import Xqlite.Sessions
set_option autoImplicit false

namespace Xqlite.Session
open Runs Lifecycle Mutex

variable {Tid Handle Ptr : Type}

def Out.call? : Out Tid Handle Ptr → Option (Event Tid Ptr Call)
  | .called e => some e
  | .returned _ _ _ => none

def calls (log : List (Out Tid Handle Ptr)) : List (Event Tid Ptr Call) := log.filterMap Out.call?

@[simp] theorem calls_append (log more : List (Out Tid Handle Ptr)) :
    calls (log ++ more) = calls log ++ calls more :=
  List.filterMap_append

@[simp] theorem calls_called (e : Event Tid Ptr Call) :
    calls [(.called e : Out Tid Handle Ptr)] = [e] := rfl

@[simp] theorem calls_returned (t : Tid) (op : Op Handle) (r : Outcome) :
    calls [(.returned t op r : Out Tid Handle Ptr)] = [] := rfl

def Gone (sh : Shared Tid Handle Ptr) (h : Handle) : Prop := sh.connOpen = false ∨ sh.cell h = none

def Out.Closes (h : Handle) : Out Tid Handle Ptr → Prop
  | .returned _ (.close h') _ => h' = h
  | .returned _ .closeConnection .ok => True
  | _ => False

/-- No call on the session, and no operation on it that got as far as that. -/
def Out.Refuses (ptrs : Handle → Option Ptr) (h : Handle) : Out Tid Handle Ptr → Prop
  | .called e => ptrs h ≠ some e.resource
  | .returned _ (.withSession h' _) r => h' = h → r.refused = true
  | _ => True

def Distinct (ptrs : Handle → Option Ptr) : Prop :=
  ∀ h h' p, ptrs h = some p → ptrs h' = some p → h = h'

/-- What an operation's outcome says of the state in which it releases its locks. -/
def Settled (sh : Shared Tid Handle Ptr) : Op Handle → Outcome → Prop
  | .withSession h _, r => r.refused = true ∨ ¬Gone sh h
  | .close h, _ => sh.cell h = none
  | .closeConnection, .ok => sh.connOpen = false
  | _, _ => True

theorem Settled.congr {sh sh' : Shared Tid Handle Ptr} {op : Op Handle} {r : Outcome}
    (h : Settled sh op r) (hopen : sh'.connOpen = sh.connOpen) (hcell : sh'.cell = sh.cell) :
    Settled sh' op r := by
  cases op with
  | closeConnection =>
    cases r with
    | ok => exact hopen.trans h
    | _ => trivial
  | withConn => trivial
  | _ => simpa only [Settled,Gone,hopen,hcell] using h

def Unlocked (sh : Shared Tid Handle Ptr) : Prop := sh.lock = fun _ => none

structure Good (ptrs : Handle → Option Ptr) (log : List (Out Tid Handle Ptr))
    (sh : Shared Tid Handle Ptr) : Prop where
  sound : Sound Call.destroys (calls log)
  opened : ∀ e ∈ calls log, e.fn.connOpen = true
  cells : ∀ h p, sh.cell h = some p → ptrs h = some p ∧ p ∉ destroyed Call.destroys (calls log)
  closed : ∀ out ∈ log, ∀ h, out.Closes h → Gone sh h
  ordered : log.Pairwise fun out later => ∀ h, out.Closes h → later.Refuses ptrs h

theorem Good.mono {ptrs : Handle → Option Ptr} {log : List (Out Tid Handle Ptr)}
    {sh sh' : Shared Tid Handle Ptr} (h : Good ptrs log sh)
    (hcell : ∀ k p, sh'.cell k = some p → sh.cell k = some p)
    (hopen : sh'.connOpen = true → sh.connOpen = true) : Good ptrs log sh' := by
  refine ⟨h.sound,h.opened,fun k p hp => h.cells k p (hcell k p hp),?_,h.ordered⟩
  intro out hout k hk
  rcases h.closed out hout k hk with hshut | hnone
  · left
    rw [Bool.eq_false_iff] at hshut ⊢
    exact fun ho => hshut (hopen ho)
  · right
    cases hk' : sh'.cell k with
    | none => rfl
    | some p =>
      have hp := hcell k p hk'
      rw [hnone] at hp
      cases hp

theorem Good.returned {ptrs : Handle → Option Ptr} {log : List (Out Tid Handle Ptr)}
    {sh : Shared Tid Handle Ptr} (h : Good ptrs log sh) (t : Tid) {op : Op Handle} {r : Outcome}
    (hsettled : Settled sh op r) : Good ptrs (log ++ [.returned t op r]) sh := by
  have hcalls : calls (log ++ [.returned t op r]) = calls log := by simp
  refine ⟨by rw [hcalls]; exact h.sound,by rw [hcalls]; exact h.opened,
    by rw [hcalls]; exact h.cells,?_,?_⟩
  · intro out hout k hk
    rcases List.mem_append.mp hout with hold | hnew
    · exact h.closed out hold k hk
    · rw [List.mem_singleton.mp hnew] at hk
      cases op with
      | close k' =>
        obtain rfl : k' = k := hk
        exact Or.inr hsettled
      | closeConnection =>
        cases r with
        | ok => exact Or.inl hsettled
        | _ => cases hk
      | _ => cases hk
  · rw [List.pairwise_append]
    refine ⟨h.ordered,List.pairwise_singleton _ _,?_⟩
    intro out hout last hlast k hk
    rw [List.mem_singleton.mp hlast]
    cases op with
    | withSession k' mutable =>
      intro heq
      subst heq
      exact hsettled.resolve_right (fun hnot => hnot (h.closed out hout k' hk))
    | _ => trivial

theorem Good.called {ptrs : Handle → Option Ptr} {log : List (Out Tid Handle Ptr)}
    {sh : Shared Tid Handle Ptr} (h : Good ptrs log sh) {e : Event Tid Ptr Call}
    (hheld : e.holder = some e.agent) (hopen : e.fn.connOpen = true)
    (hlive : e.resource ∉ destroyed Call.destroys (calls log))
    (hclosed : ∀ out ∈ log, ∀ k, out.Closes k → ptrs k ≠ some e.resource)
    (hcell : e.fn.destroys = true → ∀ k, sh.cell k ≠ some e.resource) :
    Good ptrs (log ++ [.called e]) sh := by
  refine ⟨?_,?_,?_,?_,?_⟩
  · rw [calls_append,calls_called]
    exact h.sound.snoc _ hheld hlive
  · intro e' he'
    rw [calls_append,calls_called,List.mem_append,List.mem_singleton] at he'
    rcases he' with hold | rfl
    · exact h.opened e' hold
    · exact hopen
  · intro k p hp
    obtain ⟨hptr,hp'⟩ := h.cells k p hp
    refine ⟨hptr,?_⟩
    rw [calls_append,calls_called,destroyed_append,List.mem_append]
    rintro (hold | hnew)
    · exact hp' hold
    · obtain ⟨e',he',hd,heq⟩ := (mem_destroyed Call.destroys).mp hnew
      rw [List.mem_singleton.mp he'] at hd heq
      exact hcell hd k (by rw [hp,heq])
  · intro out hout k hk
    rcases List.mem_append.mp hout with hold | hnew
    · exact h.closed out hold k hk
    · rw [List.mem_singleton.mp hnew] at hk
      cases hk
  · rw [List.pairwise_append]
    refine ⟨h.ordered,List.pairwise_singleton _ _,?_⟩
    intro out hout last hlast k hk
    rw [List.mem_singleton.mp hlast]
    exact hclosed out hout k hk

@[simp] theorem goto_pc_self [DecidableEq Tid] (s : State Tid Handle Ptr) (t : Tid)
    (pc : Pc Handle Ptr) : (s.goto t pc).pc t = pc := by
  simp [State.goto]

theorem goto_pc_other [DecidableEq Tid] (s : State Tid Handle Ptr) {t u : Tid}
    (pc : Pc Handle Ptr) (h : u ≠ t) : (s.goto t pc).pc u = s.pc u := by
  simp [State.goto,h]

theorem locked_holds (sh : Shared Tid Handle Ptr) (op : Op Handle) :
    (locked sh op).holds = true := by
  cases op with
  | close h => rfl
  | _ =>
    simp only [locked]
    split_ifs <;> rfl

theorem Distinct.kept {ptrs : Handle → Option Ptr} (hptrs : Distinct ptrs)
    {log : List (Out Tid Handle Ptr)} {h : Handle} {p : Ptr} (hp : ptrs h = some p)
    (hnot : ∀ out ∈ log, ¬out.Closes h) :
    ∀ out ∈ log, ∀ k, out.Closes k → ptrs k ≠ some p := by
  intro out hout k hk heq
  rw [hptrs k h p heq hp] at hk
  exact hnot out hout hk

theorem Good.relocked {ptrs : Handle → Option Ptr} {log : List (Out Tid Handle Ptr)}
    {sh : Shared Tid Handle Ptr} (hgood : Good ptrs log sh) (lock : Handle → Option Tid)
    (poisoned : Handle → Bool) : Good ptrs log { sh with lock, poisoned } :=
  hgood.mono (fun _ _ hp => hp) (fun ho => ho)

section Threads

variable [DecidableEq Handle]

def LockedBy (t : Tid) (h : Handle) (sh : Shared Tid Handle Ptr) : Prop :=
  sh.lock = Function.update (fun _ => none) h (some t)

/-- What the thread at `pc`, between lock and unlock of the connection, knows. -/
def Pc.Owns (ptrs : Handle → Option Ptr) (log : List (Out Tid Handle Ptr)) (t : Tid)
    (sh : Shared Tid Handle Ptr) : Pc Handle Ptr → Prop
  | .idle | .waiting _ => True
  | .useSession _ _ => Unlocked sh ∧ sh.connOpen = true
  | .body h _ p => LockedBy t h sh ∧ sh.connOpen = true ∧ sh.cell h = some p
  | .closeSession _ _ | .takeConn | .connBody => Unlocked sh
  | .deleting h p => LockedBy t h sh ∧ sh.connOpen = true ∧ sh.cell h = none ∧
      ptrs h = some p ∧ p ∉ destroyed Call.destroys (calls log) ∧ ∀ out ∈ log, ¬out.Closes h
  | .releaseSession h op r => LockedBy t h sh ∧ Settled sh op r
  | .releaseConn op r => Unlocked sh ∧ Settled sh op r

structure Inv (ptrs : Handle → Option Ptr) (log : List (Out Tid Handle Ptr))
    (s : State Tid Handle Ptr) : Prop where
  exclusive : ∀ t, (s.pc t).holds = true ↔ s.mutex = some t
  owns : ∀ t, (s.pc t).Owns ptrs log t s.shared
  free : s.mutex = none → Unlocked s.shared
  good : Good ptrs log s.shared

theorem inv_initial (ptrs : Handle → Option Ptr) :
    Inv ptrs ([] : List (Out Tid Handle Ptr)) (.initial ptrs) where
  exclusive t := by simp [State.initial,Pc.holds]
  owns _ := trivial
  free _ := rfl
  good := ⟨.nil _,by simp [calls],fun h p hp => ⟨hp,by simp [calls,destroyed]⟩,by simp,.nil⟩

theorem owns_of_not_holds {pc : Pc Handle Ptr} (h : pc.holds = false)
    (ptrs : Handle → Option Ptr) (log : List (Out Tid Handle Ptr)) (t : Tid)
    (sh : Shared Tid Handle Ptr) : pc.Owns ptrs log t sh := by
  cases pc with
  | idle | waiting op => trivial
  | _ => simp [Pc.holds] at h

section Preserve

variable {ptrs : Handle → Option Ptr} {log : List (Out Tid Handle Ptr)}
  {s : State Tid Handle Ptr} {t : Tid}

theorem Inv.mutual (h : Inv ptrs log s) : Exclusive Pc.holds s.mutex s.pc := h.exclusive

theorem Inv.update {log' : List (Out Tid Handle Ptr)} {s' : State Tid Handle Ptr}
    (hpc : ∀ u, u ≠ t → s'.pc u = s.pc u)
    (hothers : ∀ u, u ≠ t → (s.pc u).holds = false)
    (hexclusive : Exclusive Pc.holds s'.mutex s'.pc)
    (howns : (s'.pc t).Owns ptrs log' t s'.shared)
    (hfree : s'.mutex = none → Unlocked s'.shared) (hgood : Good ptrs log' s'.shared) :
    Inv ptrs log' s' := by
  refine ⟨hexclusive,?_,hfree,hgood⟩
  intro u
  by_cases hu : u = t
  · rw [hu]
    exact howns
  · rw [hpc u hu]
    exact owns_of_not_holds (hothers u hu) ptrs log' u s'.shared

theorem Inv.start [DecidableEq Tid] (h : Inv ptrs log s) (op : Op Handle)
    (hidle : s.pc t = .idle) : Inv ptrs log (s.goto t (.waiting op)) := by
  have hholds : (Pc.waiting op : Pc Handle Ptr).holds = (s.pc t).holds := by rw [hidle]; rfl
  refine ⟨h.mutual.move hholds,?_,h.free,h.good⟩
  intro u
  by_cases hu : u = t
  · subst hu
    rw [goto_pc_self]
    trivial
  · rw [goto_pc_other s _ hu]
    exact h.owns u

end Preserve

theorem locked_owns {sh : Shared Tid Handle Ptr} (hfree : Unlocked sh) (op : Op Handle)
    (ptrs : Handle → Option Ptr) (log : List (Out Tid Handle Ptr)) (t : Tid) :
    (locked sh op).Owns ptrs log t sh := by
  cases op with
  | withSession h mutable =>
    simp only [locked]
    split_ifs with hpoisoned hopen
    · exact ⟨hfree,Or.inl rfl⟩
    · exact ⟨hfree,hopen⟩
    · exact ⟨hfree,Or.inl rfl⟩
  | close h => exact hfree
  | closeConnection =>
    simp only [locked]
    split_ifs with hpoisoned
    · exact ⟨hfree,trivial⟩
    · exact hfree
  | withConn =>
    simp only [locked]
    split_ifs with hpoisoned hopen
    · exact ⟨hfree,trivial⟩
    · exact hfree
    · exact ⟨hfree,trivial⟩

/-- What a step between lock and unlock leaves to the thread that made it. -/
structure Leaves (ptrs : Handle → Option Ptr) (log : List (Out Tid Handle Ptr)) (t : Tid)
    (r : Shared Tid Handle Ptr × Pc Handle Ptr × Option (Ffi × Ptr)) (connOpen : Bool) : Prop where
  holds : r.2.1.holds = true
  good : Good ptrs (log ++ (r.2.2.map fun call =>
    Out.called ⟨t,call.2,⟨call.1,connOpen⟩,some t⟩).toList) r.1
  owns : r.2.1.Owns ptrs (log ++ (r.2.2.map fun call =>
    Out.called ⟨t,call.2,⟨call.1,connOpen⟩,some t⟩).toList) t r.1

theorem Leaves.quiet {ptrs : Handle → Option Ptr} {log : List (Out Tid Handle Ptr)} {t : Tid}
    {sh : Shared Tid Handle Ptr} {pc : Pc Handle Ptr} {connOpen : Bool}
    (hholds : pc.holds = true) (hgood : Good ptrs log sh) (howns : pc.Owns ptrs log t sh) :
    Leaves ptrs log t (sh,pc,none) connOpen :=
  ⟨hholds,by simpa using hgood,by simpa using howns⟩

theorem LockedBy.lock {sh : Shared Tid Handle Ptr} (h : Unlocked sh) (t : Tid) (k : Handle) :
    Function.update sh.lock k (some t) = Function.update (fun _ => none) k (some t) := by
  rw [h]

theorem LockedBy.release {sh : Shared Tid Handle Ptr} {t : Tid} {k : Handle}
    (h : LockedBy t k sh) : Function.update sh.lock k none = fun _ => none := by
  rw [h,Function.update_idem]
  exact Function.update_eq_self k _

section Places
variable {ptrs : Handle → Option Ptr} {log : List (Out Tid Handle Ptr)}
  {sh : Shared Tid Handle Ptr} {t : Tid} {h : Handle}

theorem useSession_leaves {mutable : Bool} (hgood : Good ptrs log sh)
    (howns : (Pc.useSession h mutable : Pc Handle Ptr).Owns ptrs log t sh) :
    Leaves ptrs log t (advance sh t (.useSession h mutable) .next) sh.connOpen := by
  obtain ⟨hfree,hopen⟩ := howns
  have hlock : sh.lock h = none := congrFun hfree h
  have hlocked := LockedBy.lock hfree t h
  simp only [advance,hlock,Option.isSome_none]
  cases hpoisoned : sh.poisoned h with
  | true => exact .quiet rfl (hgood.relocked _ _) ⟨hlocked,Or.inl rfl⟩
  | false =>
    cases hcell : sh.cell h with
    | none => exact .quiet rfl (hgood.relocked _ _) ⟨hlocked,Or.inl rfl⟩
    | some p => exact .quiet rfl (hgood.relocked _ _) ⟨hlocked,hopen,hcell⟩

theorem body_leaves (hptrs : Distinct ptrs) {mutable : Bool} {p : Ptr}
    (hgood : Good ptrs log sh) (howns : (Pc.body h mutable p).Owns ptrs log t sh)
    (choice : Choice Handle) :
    Leaves ptrs log t (advance sh t (.body h mutable p) choice) sh.connOpen := by
  have hstay : Leaves ptrs log t (sh,.body h mutable p,none) sh.connOpen :=
    .quiet rfl hgood howns
  obtain ⟨hlocked,hopen,hcell⟩ := howns
  have hlive : ¬Gone sh h := by
    rintro (hshut | hnone)
    · rw [hopen] at hshut
      cases hshut
    · rw [hcell] at hnone
      cases hnone
  cases choice with
  | call fn =>
    by_cases hfn : fn = .delete
    · simp only [advance,hfn,if_true]
      exact hstay
    · simp only [advance,hfn,if_false]
      obtain ⟨hptr,hp⟩ := hgood.cells h p hcell
      have hnot : ∀ out ∈ log, ¬out.Closes h := by
        intro out hout hk
        exact hlive (hgood.closed out hout h hk)
      refine ⟨rfl,?_,⟨hlocked,hopen,hcell⟩⟩
      refine hgood.called rfl hopen hp (hptrs.kept hptr hnot) ?_
      intro hd
      exact absurd (by simpa [Call.destroys] using hd) hfn
  | finish r => exact .quiet rfl hgood ⟨hlocked,Or.inr hlive⟩
  | _ => exact hstay

theorem closeSession_leaves {sound : Bool} (hgood : Good ptrs log sh)
    (howns : (Pc.closeSession h sound : Pc Handle Ptr).Owns ptrs log t sh) :
    Leaves ptrs log t (advance sh t (.closeSession h sound) .next) sh.connOpen := by
  have hfree : Unlocked sh := howns
  have hlock : sh.lock h = none := congrFun hfree h
  have hlocked := LockedBy.lock hfree t h
  have htaken : Good ptrs log { sh with lock := Function.update sh.lock h (some t),
                                        cell := Function.update sh.cell h none } := by
    refine hgood.mono ?_ (fun ho => ho)
    intro k p hp
    by_cases hk : k = h
    · simp [hk] at hp
    · simpa [hk] using hp
  have hnone : Function.update sh.cell h none h = none := Function.update_self h none sh.cell
  simp only [advance,hlock,Option.isSome_none]
  cases hcell : sh.cell h with
  | none => exact .quiet rfl htaken ⟨hlocked,hnone⟩
  | some p =>
    by_cases hopen : (sound && sh.connOpen) = true
    · simp only [hopen,if_true]
      obtain ⟨hptr,hp⟩ := hgood.cells h p hcell
      have hconn : sh.connOpen = true := (Bool.and_eq_true_iff.mp hopen).2
      refine .quiet rfl htaken ⟨hlocked,hconn,hnone,hptr,hp,?_⟩
      intro out hout hk
      rcases hgood.closed out hout h hk with hshut | hgone
      · rw [hconn] at hshut
        cases hshut
      · rw [hcell] at hgone
        cases hgone
    · simp only [hopen]
      exact .quiet rfl htaken ⟨hlocked,hnone⟩

theorem deleting_leaves (hptrs : Distinct ptrs) {p : Ptr} (hgood : Good ptrs log sh)
    (howns : (Pc.deleting h p).Owns ptrs log t sh) :
    Leaves ptrs log t (advance sh t (.deleting h p) .next) sh.connOpen := by
  obtain ⟨hlocked,hopen,hnone,hptr,hp,hnot⟩ := howns
  refine ⟨rfl,?_,⟨hlocked,hnone⟩⟩
  refine hgood.called rfl hopen hp (hptrs.kept hptr hnot) ?_
  intro _ k hk
  rw [hptrs k h p (hgood.cells k p hk).1 hptr,hnone] at hk
  cases hk

end Places

theorem advance_leaves {ptrs : Handle → Option Ptr} (hptrs : Distinct ptrs)
    {log : List (Out Tid Handle Ptr)} {sh : Shared Tid Handle Ptr} {t : Tid}
    {pc : Pc Handle Ptr} (hholds : pc.holds = true) (hgood : Good ptrs log sh)
    (howns : pc.Owns ptrs log t sh) (choice : Choice Handle) :
    Leaves ptrs log t (advance sh t pc choice) sh.connOpen := by
  have hstay : Leaves ptrs log t (sh,pc,none) sh.connOpen := .quiet hholds hgood howns
  cases pc with
  | idle | waiting op => cases hholds
  | useSession h mutable =>
    cases choice with
    | next => exact useSession_leaves hgood howns
    | _ => exact hstay
  | body h mutable p => exact body_leaves hptrs hgood howns choice
  | closeSession h sound =>
    cases choice with
    | next => exact closeSession_leaves hgood howns
    | _ => exact hstay
  | deleting h p =>
    cases choice with
    | next => exact deleting_leaves hptrs hgood howns
    | _ => exact hstay
  | takeConn =>
    cases choice with
    | next => exact .quiet rfl (hgood.mono (fun _ _ hp => hp) (fun ho => by cases ho)) ⟨howns,rfl⟩
    | _ => exact hstay
  | connBody =>
    cases choice with
    | finish r => exact .quiet rfl hgood ⟨howns,trivial⟩
    | _ => exact hstay
  | releaseSession h op r =>
    cases choice with
    | next => exact .quiet rfl (hgood.relocked _ _) ⟨howns.1.release,howns.2.congr rfl rfl⟩
    | _ => exact hstay
  | releaseConn op r => cases choice <;> exact hstay

theorem Inv.session_free {ptrs : Handle → Option Ptr} {log : List (Out Tid Handle Ptr)}
    {s : State Tid Handle Ptr} (h : Inv ptrs log s) {t : Tid} {k : Handle}
    (hwants : (s.pc t).wants = some k) : s.shared.lock k = none := by
  have howns := h.owns t
  cases hpc : s.pc t with
  | useSession k' mutable =>
    rw [hpc] at howns
    exact congrFun howns.1 k
  | closeSession k' sound =>
    rw [hpc] at howns
    exact congrFun howns k
  | _ => simp [hpc,Pc.wants] at hwants

variable [DecidableEq Tid]

theorem step_within {s : State Tid Handle Ptr} {t : Tid} (hholds : (s.pc t).holds = true)
    {choice : Choice Handle} (hrelease : ∀ op r, s.pc t = .releaseConn op r → choice ≠ .next) :
    step s (t,choice) =
      (State.goto { s with shared := (advance s.shared t (s.pc t) choice).1 } t
          (advance s.shared t (s.pc t) choice).2.1,
        (advance s.shared t (s.pc t) choice).2.2.map fun call =>
          .called ⟨t,call.2,⟨call.1,s.shared.connOpen⟩,s.mutex⟩) := by
  cases hpc : s.pc t with
  | idle | waiting op =>
    rw [hpc] at hholds
    cases hholds
  | releaseConn op r =>
    have hne := hrelease op r hpc
    cases choice with
    | next => exact absurd rfl hne
    | _ => simp only [step,hpc]
  | _ => simp only [step,hpc]

section Phases

variable {ptrs : Handle → Option Ptr} {log : List (Out Tid Handle Ptr)} {s : State Tid Handle Ptr}
  {t : Tid}

theorem Inv.acquire (h : Inv ptrs log s) (op : Op Handle) (hpc : s.pc t = .waiting op)
    (hm : s.mutex = none) :
    Inv ptrs (log ++ (Session.step s (t,.next)).2.toList) (Session.step s (t,.next)).1 := by
  simp only [Session.step,hpc,hm,Option.isSome_none,Bool.false_eq_true,if_false,
    Option.toList_none,List.append_nil]
  refine .update (s := s) (t := t) (fun u hu => goto_pc_other _ _ hu)
    (fun u _ => h.mutual.unheld hm u) (h.mutual.lock hm (locked_holds s.shared op)) ?_
    (fun hnone => by cases hnone) h.good
  rw [goto_pc_self]
  exact locked_owns (h.free hm) op ptrs log t

theorem Inv.within (hptrs : Distinct ptrs) (h : Inv ptrs log s) (hholds : (s.pc t).holds = true)
    {choice : Choice Handle} (hrelease : ∀ op r, s.pc t = .releaseConn op r → choice ≠ .next) :
    Inv ptrs (log ++ (Session.step s (t,choice)).2.toList) (Session.step s (t,choice)).1 := by
  have hmutex := (h.exclusive t).mp hholds
  have hleaves := advance_leaves hptrs hholds h.good (h.owns t) choice
  have hexclusive := h.mutual.move (hleaves.holds.trans hholds.symm)
  rw [hmutex] at hexclusive
  rw [step_within hholds hrelease,hmutex]
  refine .update (s := s) (t := t) (fun u hu => goto_pc_other _ _ hu)
    (fun u hu => h.mutual.other hmutex hu) hexclusive ?_ (fun hnone => by cases hnone)
    hleaves.good
  rw [goto_pc_self]
  exact hleaves.owns

theorem Inv.release (h : Inv ptrs log s) {op : Op Handle} {r : Outcome}
    (hpc : s.pc t = .releaseConn op r) :
    Inv ptrs (log ++ (Session.step s (t,.next)).2.toList) (Session.step s (t,.next)).1 := by
  have hholds : (s.pc t).holds = true := by rw [hpc]; rfl
  have hmutex := (h.exclusive t).mp hholds
  have howns := h.owns t
  rw [hpc] at howns
  obtain ⟨hfree,hsettled⟩ := howns
  simp only [Session.step,hpc,Option.toList_some]
  refine .update (s := s) (t := t) (fun u hu => goto_pc_other _ _ hu)
    (fun u hu => h.mutual.other hmutex hu) (h.mutual.unlock hholds rfl) ?_ (fun _ => hfree)
    ((h.good.returned t hsettled).mono (fun _ _ hp => hp) (fun ho => ho))
  rw [goto_pc_self]
  trivial

end Phases

theorem Inv.step {ptrs : Handle → Option Ptr} (hptrs : Distinct ptrs)
    {log : List (Out Tid Handle Ptr)} {s : State Tid Handle Ptr} (h : Inv ptrs log s)
    (i : Tid × Choice Handle) :
    Inv ptrs (log ++ (Session.step s i).2.toList) (Session.step s i).1 := by
  obtain ⟨t,choice⟩ := i
  have hstay : Inv ptrs (log ++ []) s := by rwa [List.append_nil]
  cases hholds : (s.pc t).holds with
  | false =>
    cases hpc : s.pc t with
    | idle =>
      cases choice with
      | start op =>
        simp only [Session.step,hpc,Option.toList_none,List.append_nil]
        exact h.start op hpc
      | _ => simpa only [Session.step,hpc,Option.toList_none] using hstay
    | waiting op =>
      cases choice with
      | next =>
        cases hm : s.mutex with
        | some u => simpa only [Session.step,hpc,hm,Option.isSome_some,if_true,Option.toList_none]
            using hstay
        | none => exact h.acquire op hpc hm
      | _ => simpa only [Session.step,hpc,Option.toList_none] using hstay
    | _ =>
      rw [hpc] at hholds
      cases hholds
  | true =>
    by_cases hrelease : ∀ op r, s.pc t = .releaseConn op r → choice ≠ .next
    · exact h.within hptrs hholds hrelease
    · push Not at hrelease
      obtain ⟨op,r,hpc,rfl⟩ := hrelease
      exact h.release hpc

def shown (ptrs : Handle → Option Ptr) (is : List (Tid × Choice Handle)) :
    List (Out Tid Handle Ptr) :=
  history step (fun s i => (step s i).2.toList) (.initial ptrs) is

theorem Inv.reached {ptrs : Handle → Option Ptr} (hptrs : Distinct ptrs)
    (is : List (Tid × Choice Handle)) :
    Inv ptrs (shown ptrs is) (run Session.step (.initial ptrs) is).1 :=
  history_inv Session.step (P := fun _ _ => True) (fun _ _ i h _ => h.step hptrs i)
    (inv_initial ptrs) (allSteps_of_forall _ (fun _ _ => trivial) _ _)

/-- In every interleaving each session is deleted at most once and not used afterwards,
every call on it is made by the holder of the connection's mutex while the connection is
open, no operation gets to a session after a close of it or of the connection returned,
and no two threads wait for each other's mutex. -/
theorem session_teardown_safe [DecidableEq Ptr] {ptrs : Handle → Option Ptr}
    (hptrs : Distinct ptrs) (is : List (Tid × Choice Handle)) :
    let s : State Tid Handle Ptr := (run step (.initial ptrs) is).1
    let log := shown ptrs is
    (∀ p, (destroyed Call.destroys (calls log)).count p ≤ 1) ∧
    (∀ before e after, calls log = before ++ e :: after → e.fn.destroys = true →
      ∀ later ∈ after, later.resource ≠ e.resource) ∧
    (∀ e ∈ calls log, e.holder = some e.agent ∧ e.fn.connOpen = true) ∧
    (∀ before out after h, log = before ++ out :: after → out.Closes h →
      ∀ later ∈ after, later.Refuses ptrs h) ∧
    ∀ t u h, ¬(s.mutex = some t ∧ (s.pc t).wants = some h ∧ s.shared.lock h = some u ∧
      ∃ op, s.pc u = .waiting op) := by
  intro s log
  have hinv : Inv ptrs log s := .reached hptrs is
  refine ⟨?_,?_,?_,?_,?_⟩
  · intro p
    exact List.nodup_iff_count_le_one.mp (hinv.good.sound.nodup_destroyed _) p
  · intro before e after hlog hfn later hlater
    have hordered := hinv.good.sound.ordered
    rw [hlog,List.pairwise_append,List.pairwise_cons] at hordered
    exact hordered.2.1.1 later hlater hfn
  · intro e he
    exact ⟨hinv.good.sound.held e he,hinv.good.opened e he⟩
  · intro before out after h hlog hcloses later hlater
    have hordered := hinv.good.ordered
    rw [hlog,List.pairwise_append,List.pairwise_cons] at hordered
    exact hordered.2.1.1 later hlater h hcloses
  · rintro t u h ⟨-,hwants,hlock,-⟩
    rw [hinv.session_free hwants] at hlock
    cases hlock

def contended : List (Fin 3 × Choice Unit) :=
  [(0,.start (.withSession () true)),(1,.start (.close ())),(0,.next),(1,.next),(0,.next),
    (2,.start (.close ())),(0,.call .changeset),(0,.finish .ok),(2,.next),(0,.next),(0,.next),
    (1,.next),(2,.next),(1,.next),(1,.next),(1,.next),(1,.next),(2,.next),(2,.next),(2,.next),
    (2,.next)]

theorem session_teardown_safe_contended :
    (calls (shown (fun _ : Unit => some true) contended)).map (fun e => (e.agent,e.fn.fn)) =
        [(0,.changeset),(1,.delete)] ∧
      (destroyed Call.destroys
        (calls (shown (fun _ : Unit => some true) contended))).count true ≤ 1 :=
  ⟨by decide,(session_teardown_safe (fun _ _ _ _ _ => rfl) contended).1 true⟩

end Threads

end Xqlite.Session

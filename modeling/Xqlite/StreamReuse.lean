import Xqlite.StreamResource
set_option autoImplicit false

/-! Several enumerations of one stream value. The statement is opened once, when the
stream is built, so all enumerations fetch from one handle; each of them closes it at
its end. Their calls may come in any order. -/

namespace Xqlite.Stream
open Runs

inductive Status where
  | running
  | completed
  | raised (reason : FetchError)
  | stopped

def Status.ended : Status → Bool
  | .running => false
  | _ => true

/-- One enumeration. `begun` says that it has called `next_fun` or `after_fun`. -/
structure Enumerator where
  acc : Acc
  elements : List Element
  begun : Bool
  status : Status

/-- The handle is a reference: what one enumeration does to it the others see. -/
structure Shared where
  handle : XqliteStream
  enums : Nat → Enumerator

/-- `Stream.resource(fn -> acc end, …)`: every enumeration starts from one accumulator. -/
def Shared.start (acc : Acc) : Shared := ⟨acc.handle,fun _ => ⟨acc,[],false,.running⟩⟩

inductive Demand where
  | pull (i : Nat)
  | stop (i : Nat)
  deriving DecidableEq, Repr

def Demand.by : Demand → Nat
  | .pull i | .stop i => i

def Shared.set (s : Shared) (i : Nat) (e : Enumerator) : Shared :=
  ⟨e.acc.handle,Function.update s.enums i e⟩

theorem set_self (s : Shared) (i : Nat) (e : Enumerator) : (s.set i e).enums i = e := by
  simp [Shared.set]

theorem set_other (s : Shared) {i j : Nat} (e : Enumerator) (h : j ≠ i) :
    (s.set i e).enums j = s.enums j := by
  simp [Shared.set,h]

def Enumerator.own (e : Enumerator) (handle : XqliteStream) : Acc := { e.acc with handle }

/-- Both ends call the after function: a halt, and an exception from the next function. -/
def Enumerator.after (e : Enumerator) : Next → Enumerator
  | .emit elements acc => ⟨acc,e.elements ++ elements,true,.running⟩
  | .halt acc => ⟨afterFun acc,e.elements,true,.completed⟩
  | .raise reason acc => ⟨afterFun acc,e.elements,true,.raised reason⟩

def pull (s : Shared) (i : Nat) : Enumerator :=
  (s.enums i).after (nextFun ((s.enums i).own s.handle))

def stop (s : Shared) (i : Nat) : Enumerator :=
  ⟨afterFun ((s.enums i).own s.handle),(s.enums i).elements,true,.stopped⟩

theorem pull_begun (s : Shared) (i : Nat) : (pull s i).begun = true := by
  cases hn : nextFun ((s.enums i).own s.handle) <;> simp [pull,hn,Enumerator.after]

def demand (s : Shared) (d : Demand) : Shared × Unit :=
  match (s.enums d.by).status with
  | .running =>
    match d with
    | .pull i => (s.set i (pull s i),())
    | .stop i => (s.set i (stop s i),())
  | _ => (s,())

def Sole (s : Shared) (d : Demand) : Prop := ∀ j, j ≠ d.by → (s.enums j).begun = false

/-- The handle has `rest` still to deliver: out of a live statement, or nothing because
there is none. -/
def Left (s : XqliteStream) (rest : List (List Term)) (last : Ending) : Prop :=
  (∃ script, Serving script s rest last) ∨
    (s.atomicRawStmt = none ∧ rest = [] ∧ last = .ok ())

inductive Fetched (rest : List (List Term)) (last : Ending) : XqliteStream × FetchReply → Prop where
  | rows (batch more : List (List Term)) (s : XqliteStream) (hrest : rest = batch ++ more)
      (hleft : Left s more last) : Fetched rest last (s,.rows batch)
  | done (s : XqliteStream) (hrest : rest = []) (hlast : last = .ok ()) :
      Fetched rest last (s,.done)
  | error (s : XqliteStream) (e : XqliteError) (hlast : last = .error e) :
      Fetched rest last (s,.error (.xqlite e))

theorem left_fetch {s : XqliteStream} {rest : List (List Term)} {last : Ending}
    (h : Left s rest last) {arg : Term} {b : Nat} (hb : batchSize arg = some b) :
    Fetched rest last (streamFetch s arg) := by
  have hpos := batchSize_pos hb
  rw [streamFetch_valid hb]
  rcases h with ⟨script,hs⟩ | ⟨hnone,hrest,hlast⟩
  · by_cases hfit : b ≤ rest.length
    · obtain ⟨s',hfetch,hs'⟩ := fetchBatch_within hs hpos hfit
      rw [hfetch]
      exact .rows _ _ s' (List.take_append_drop b rest).symm (.inl ⟨script,hs'⟩)
    · obtain ⟨s',hfetch,hspent⟩ := fetchBatch_beyond hs (by omega : rest.length < b)
      rw [hfetch]
      cases last with
      | error e => exact .error s' e rfl
      | ok u =>
        by_cases hnil : rest = []
        · rw [lastReply,if_pos hnil]
          exact .done s' hnil rfl
        · rw [lastReply,if_neg hnil]
          exact .rows rest [] s' (List.append_nil rest).symm (.inr ⟨hspent.gone,rfl,rfl⟩)
  · have hdone : fetchBatch s b = (s,.done) := by simp [fetchBatch,hnone]
    rw [hdone]
    exact .done s hrest hlast

/-- The elements for `rows`, with the stream's columns and extensions. -/
def Acc.yields (acc : Acc) (rows : List (List Term)) : List Element :=
  shapeRows (mapRowsToMaps rows acc.columns acc.typeExtensions) acc.onError

/-- Nothing but the handle and the row counter changes in an accumulator. -/
structure Alike (acc acc' : Acc) : Prop where
  columns : acc'.columns = acc.columns
  batchSize : acc'.batchSize = acc.batchSize
  typeExtensions : acc'.typeExtensions = acc.typeExtensions
  onError : acc'.onError = acc.onError
  errored : acc'.errored = acc.errored

theorem Alike.yields {acc acc' : Acc} (h : Alike acc acc') (rows : List (List Term)) :
    acc'.yields rows = acc.yields rows := by
  simp only [Acc.yields,h.columns,h.typeExtensions,h.onError]

theorem yields_append (acc : Acc) (rows more : List (List Term)) :
    acc.yields (rows ++ more) = acc.yields rows ++ acc.yields more := by
  rw [Acc.yields,mapRowsToMaps_append,shapeRows_append]
  rfl

/-- What an enumeration with the handle to itself has shown so far. -/
def Mine (acc : Acc) (rows : List (List Term)) (last : Ending) (handle : XqliteStream)
    (e : Enumerator) : Prop :=
  match e.status with
  | .running => ∃ seen rest, rows = seen ++ rest ∧ e.elements = acc.yields seen ∧
      Left handle rest last
  | .completed => e.elements = acc.yields rows ∧ last = .ok ()
  | _ => True

section Raise

variable {acc : Acc} {rows : List (List Term)} {last : Ending}

theorem Alike.fetched {acc acc' : Acc} (h : Alike acc acc') (handle : XqliteStream)
    (rows : List (List Term)) : Alike acc (acc'.fetched handle rows) :=
  ⟨h.columns,h.batchSize,h.typeExtensions,h.onError,h.errored⟩

theorem Alike.over {acc acc' : Acc} (h : Alike acc acc') (handle : XqliteStream) :
    Alike acc { acc' with handle } :=
  ⟨h.columns,h.batchSize,h.typeExtensions,h.onError,h.errored⟩

theorem pull_raise (hmode : acc.onError = .raise) (hfresh : acc.errored = false) {s : Shared}
    {i : Nat} (halike : Alike acc (s.enums i).acc) :
    pull s i = (s.enums i).after
      (match streamFetch s.handle acc.batchSize with
      | (handle,.rows rows) =>
          .emit (acc.yields rows) (((s.enums i).own s.handle).fetched handle rows)
      | (handle,.done) => .halt { (s.enums i).own s.handle with handle }
      | (handle,.error reason) => .raise reason { (s.enums i).own s.handle with handle }) := by
  have hown : Alike acc ((s.enums i).own s.handle) := halike.over s.handle
  have hfetch : streamFetch ((s.enums i).own s.handle).handle
      ((s.enums i).own s.handle).batchSize = streamFetch s.handle acc.batchSize := by
    rw [hown.batchSize]
    rfl
  rw [pull,nextFun_fetch (hown.errored.trans hfresh),hfetch]
  generalize streamFetch s.handle acc.batchSize = fetched
  obtain ⟨handle,reply⟩ := fetched
  cases reply with
  | rows rows => simp only [Acc.yields,hown.columns,hown.typeExtensions,hown.onError]
  | done => rfl
  | error reason => simp only [handleFetchError,hown.onError,hmode]

theorem pull_mine (hmode : acc.onError = .raise) (hfresh : acc.errored = false) {s : Shared}
    {i : Nat} (halike : Alike acc (s.enums i).acc) (hrun : (s.enums i).status = .running)
    (h : Mine acc rows last s.handle (s.enums i)) :
    Mine acc rows last (pull s i).acc.handle (pull s i) := by
  unfold Mine at h
  rw [hrun] at h
  obtain ⟨seen,rest,hrows,helements,hleft⟩ := h
  rw [pull_raise hmode hfresh halike]
  cases hb : batchSize acc.batchSize with
  | none =>
    rw [streamFetch_invalid hb]
    trivial
  | some b =>
    have hfetched := left_fetch hleft hb
    generalize streamFetch s.handle acc.batchSize = fetched at hfetched
    cases hfetched with
    | rows batch more handle hrest hmore =>
      refine ⟨seen ++ batch,more,?_,?_,hmore⟩
      · rw [hrows,hrest,List.append_assoc]
      · rw [yields_append,← helements]
        rfl
    | done handle hrest hlast =>
      refine ⟨?_,hlast⟩
      rw [hrows,hrest,List.append_nil]
      exact helements
    | error handle e hlast => trivial

theorem pull_alike (hmode : acc.onError = .raise) (hfresh : acc.errored = false) {s : Shared}
    {i : Nat} (halike : Alike acc (s.enums i).acc) : Alike acc (pull s i).acc := by
  have hown : Alike acc ((s.enums i).own s.handle) := halike.over s.handle
  rw [pull_raise hmode hfresh halike]
  generalize streamFetch s.handle acc.batchSize = fetched
  obtain ⟨handle,reply⟩ := fetched
  cases reply with
  | rows rows => exact hown.fetched handle rows
  | done => exact (hown.over handle).over _
  | error reason => exact (hown.over handle).over _

/-- The state of a run in which only one enumeration at a time has begun. -/
structure Exclusive (acc : Acc) (rows : List (List Term)) (last : Ending) (s : Shared) : Prop where
  alike : ∀ i, Alike acc (s.enums i).acc
  untouched : ∀ i, (s.enums i).begun = false →
    (s.enums i).status = .running ∧ (s.enums i).elements = []
  fresh : (∀ i, (s.enums i).begun = false) → Left s.handle rows last
  mine : ∀ i, (s.enums i).begun = true → Mine acc rows last s.handle (s.enums i) ∧
    ∀ j, j ≠ i → (s.enums j).begun = false

theorem exclusive_start (h : Left acc.handle rows last) :
    Exclusive acc rows last (.start acc) :=
  ⟨fun _ => ⟨rfl,rfl,rfl,rfl,rfl⟩,fun _ _ => ⟨rfl,rfl⟩,fun _ => h,fun _ hb => by cases hb⟩

theorem Exclusive.mine_of_sole {s : Shared} (h : Exclusive acc rows last s) {d : Demand}
    (hsole : Sole s d) : Mine acc rows last s.handle (s.enums d.by) := by
  cases hb : (s.enums d.by).begun with
  | true => exact (h.mine d.by hb).1
  | false =>
    obtain ⟨hrun,hnone⟩ := h.untouched d.by hb
    have hall : ∀ i, (s.enums i).begun = false := by
      intro i
      by_cases hi : i = d.by
      · rw [hi]
        exact hb
      · exact hsole i hi
    unfold Mine
    rw [hrun]
    refine ⟨[],rows,rfl,?_,h.fresh hall⟩
    rw [hnone]
    simp [Acc.yields]

theorem Exclusive.set {s : Shared} (h : Exclusive acc rows last s) {d : Demand}
    (hsole : Sole s d) {e : Enumerator} (halike : Alike acc e.acc) (hbegun : e.begun = true)
    (hmine : Mine acc rows last e.acc.handle e) : Exclusive acc rows last (s.set d.by e) := by
  have hself := set_self s d.by e
  have hother := fun i => set_other s (i := d.by) (j := i) e
  refine ⟨?_,?_,?_,?_⟩
  · intro i
    by_cases hi : i = d.by
    · rw [hi,hself]
      exact halike
    · rw [hother i hi]
      exact h.alike i
  · intro i hb
    by_cases hi : i = d.by
    · rw [hi,hself,hbegun] at hb
      cases hb
    · rw [hother i hi] at hb ⊢
      exact h.untouched i hb
  · intro hall
    have hb := hall d.by
    rw [hself,hbegun] at hb
    cases hb
  · intro i hb
    by_cases hi : i = d.by
    · subst hi
      rw [hself]
      refine ⟨hmine,?_⟩
      intro j hj
      rw [hother j hj]
      exact hsole j hj
    · rw [hother i hi,hsole i hi] at hb
      cases hb

theorem exclusive_step (hmode : acc.onError = .raise) (hfresh : acc.errored = false) (s : Shared)
    (d : Demand) (h : Exclusive acc rows last s) (hsole : Sole s d) :
    Exclusive acc rows last (demand s d).1 := by
  have hmine := h.mine_of_sole hsole
  unfold demand
  cases hrun : (s.enums d.by).status with
  | running =>
    cases d with
    | pull i =>
      have halike := h.alike i
      exact h.set hsole (pull_alike hmode hfresh halike) (pull_begun s i)
        (pull_mine hmode hfresh halike hrun hmine)
    | stop i => exact h.set hsole (((h.alike i).over s.handle).over _) rfl trivial
  | _ => exact h

/-- A completed enumeration has shown all rows of a query that has a result. -/
def Honest (acc : Acc) (rows : List (List Term)) (last : Ending) (e : Enumerator) : Prop :=
  e.status = .completed → last = .ok () ∧ e.elements = acc.yields rows

theorem Exclusive.honest {s : Shared} (h : Exclusive acc rows last s) (i : Nat) :
    Honest acc rows last (s.enums i) := by
  intro hdone
  cases hb : (s.enums i).begun with
  | false =>
    have hrun := (h.untouched i hb).1
    rw [hdone] at hrun
    cases hrun
  | true =>
    have hmine := (h.mine i hb).1
    unfold Mine at hmine
    rw [hdone] at hmine
    exact ⟨hmine.2,hmine.1⟩

/-- What holds in every run: an enumeration that ended has closed the handle for all. -/
structure ClosedByFirst (acc : Acc) (s : Shared) : Prop where
  alike : ∀ i, Alike acc (s.enums i).acc
  closed : ∀ i, (s.enums i).status.ended = true → s.handle.atomicRawStmt = none
  untouched : ∀ i, (s.enums i).begun = false →
    (s.enums i).status = .running ∧ (s.enums i).elements = []

theorem fetch_closed {s : XqliteStream} (h : s.atomicRawStmt = none) (arg : Term) :
    (streamFetch s arg).1 = s := by
  cases hb : batchSize arg with
  | none => rw [streamFetch_invalid hb]
  | some b =>
    rw [streamFetch_valid hb]
    simp [fetchBatch,h]

theorem pull_closes (hmode : acc.onError = .raise) (hfresh : acc.errored = false) {s : Shared}
    {i : Nat} (halike : Alike acc (s.enums i).acc)
    (h : s.handle.atomicRawStmt = none ∨ (pull s i).status.ended = true) :
    (pull s i).acc.handle.atomicRawStmt = none := by
  have hsame : s.handle.atomicRawStmt = none →
      (streamFetch s.handle acc.batchSize).1.atomicRawStmt = none := by
    intro hnone
    rw [fetch_closed hnone]
    exact hnone
  rw [pull_raise hmode hfresh halike] at h ⊢
  generalize streamFetch s.handle acc.batchSize = fetched at h hsame
  obtain ⟨handle,reply⟩ := fetched
  cases reply with
  | rows rows => exact hsame (h.resolve_right (by simp [Enumerator.after,Status.ended]))
  | done => rfl
  | error reason => rfl

theorem ClosedByFirst.set {s : Shared} (h : ClosedByFirst acc s) {i : Nat} {e : Enumerator}
    (halike : Alike acc e.acc) (hbegun : e.begun = true)
    (hclosed : s.handle.atomicRawStmt = none ∨ e.status.ended = true →
      e.acc.handle.atomicRawStmt = none) : ClosedByFirst acc (s.set i e) := by
  have hself := set_self s i e
  have hother := fun j => set_other s (i := i) (j := j) e
  refine ⟨?_,?_,?_⟩
  · intro j
    by_cases hj : j = i
    · rw [hj,hself]
      exact halike
    · rw [hother j hj]
      exact h.alike j
  · intro j hend
    by_cases hj : j = i
    · rw [hj,hself] at hend
      exact hclosed (.inr hend)
    · rw [hother j hj] at hend
      exact hclosed (.inl (h.closed j hend))
  · intro j hb
    by_cases hj : j = i
    · rw [hj,hself,hbegun] at hb
      cases hb
    · rw [hother j hj] at hb ⊢
      exact h.untouched j hb

theorem closedByFirst_step (hmode : acc.onError = .raise) (hfresh : acc.errored = false)
    (s : Shared) (d : Demand) (h : ClosedByFirst acc s) : ClosedByFirst acc (demand s d).1 := by
  unfold demand
  cases hrun : (s.enums d.by).status with
  | running =>
    cases d with
    | pull i =>
      exact h.set (pull_alike hmode hfresh (h.alike i)) (pull_begun s i)
        (pull_closes hmode hfresh (h.alike i))
    | stop i => exact h.set (((h.alike i).over s.handle).over _) rfl (fun _ => rfl)
  | _ => exact h

/-- With no row to show, nobody can miss one. -/
structure Empty (acc : Acc) (s : Shared) : Prop where
  alike : ∀ i, Alike acc (s.enums i).acc
  left : Left s.handle [] (.ok ())
  elements : ∀ i, (s.enums i).elements = []

theorem Empty.set {s : Shared} (h : Empty acc s) {i : Nat} {e : Enumerator}
    (halike : Alike acc e.acc) (hleft : Left e.acc.handle [] (.ok ())) (hnone : e.elements = []) :
    Empty acc (s.set i e) := by
  refine ⟨?_,hleft,?_⟩
  · intro j
    by_cases hj : j = i
    · rw [hj,set_self]
      exact halike
    · rw [set_other s e hj]
      exact h.alike j
  · intro j
    by_cases hj : j = i
    · rw [hj,set_self]
      exact hnone
    · rw [set_other s e hj]
      exact h.elements j

theorem left_after (acc : Acc) : Left (afterFun acc).handle [] (.ok ()) := .inr ⟨rfl,rfl,rfl⟩

theorem pull_empty (hmode : acc.onError = .raise) (hfresh : acc.errored = false) {s : Shared}
    (h : Empty acc s) (i : Nat) :
    Left (pull s i).acc.handle [] (.ok ()) ∧ (pull s i).elements = [] := by
  rw [pull_raise hmode hfresh (h.alike i)]
  cases hb : batchSize acc.batchSize with
  | none =>
    rw [streamFetch_invalid hb]
    exact ⟨left_after _,h.elements i⟩
  | some b =>
    have hfetched := left_fetch h.left hb
    generalize streamFetch s.handle acc.batchSize = fetched at hfetched
    cases hfetched with
    | rows batch more handle hrest hmore =>
      obtain ⟨rfl,rfl⟩ := List.append_eq_nil_iff.mp hrest.symm
      exact ⟨hmore,by simp [Enumerator.after,h.elements i,Acc.yields]⟩
    | done handle hrest hlast => exact ⟨left_after _,h.elements i⟩
    | error handle e hlast => cases hlast

theorem empty_step (hmode : acc.onError = .raise) (hfresh : acc.errored = false)
    (s : Shared) (d : Demand) (h : Empty acc s) : Empty acc (demand s d).1 := by
  unfold demand
  cases hrun : (s.enums d.by).status with
  | running =>
    cases d with
    | stop i => exact h.set (((h.alike i).over s.handle).over _) (left_after _) (h.elements i)
    | pull i =>
      obtain ⟨hleft,hnone⟩ := pull_empty hmode hfresh h i
      exact h.set (pull_alike hmode hfresh (h.alike i)) hleft hnone
  | _ => exact h

theorem yields_eq_nil {rows : List (List Term)} : acc.yields rows = [] ↔ rows = [] := by
  have hlen : (acc.yields rows).length = rows.length := by
    rw [← mapRowsToMaps_length rows acc.columns acc.typeExtensions]
    cases hmode : acc.onError <;> simp [Acc.yields,shapeRows,hmode]
  rw [← List.length_eq_zero_iff,hlen,List.length_eq_zero_iff]

/-- An enumeration that begins after another has ended completes at once with nothing. -/
theorem pull_after_end (hmode : acc.onError = .raise) (hfresh : acc.errored = false) {s : Shared}
    (h : ClosedByFirst acc s) {i j b : Nat} (hb : batchSize acc.batchSize = some b)
    (hend : (s.enums j).status.ended = true) (hnew : (s.enums i).begun = false) :
    (pull s i).status = .completed ∧ (pull s i).elements = [] := by
  have hfetch : streamFetch s.handle acc.batchSize = (s.handle,.done) := by
    rw [streamFetch_valid hb]
    simp [fetchBatch,h.closed j hend]
  rw [pull_raise hmode hfresh (h.alike i),hfetch]
  exact ⟨rfl,(h.untouched i hnew).2⟩

end Raise

/-- What `stream_open` answers for a query with the given result: a handle to a prepared
statement, or a handle to none when the SQL text is blank. -/
def Opens (handle : XqliteStream) (rows : List (List Term)) (last : Ending) : Prop :=
  (∃ columns script, handle = .opened columns script ∧ Executes script rows last) ∨
    (handle = ⟨none,true,[],[]⟩ ∧ rows = [] ∧ last = .ok ())

theorem Opens.left {handle : XqliteStream} {rows : List (List Term)} {last : Ending}
    (h : Opens handle rows last) : Left handle rows last := by
  rcases h with ⟨columns,script,rfl,hexec⟩ | ⟨rfl,hrows,hlast⟩
  · exact .inl ⟨script,opened_serving hexec columns⟩
  · exact .inr ⟨rfl,hrows,hlast⟩

def raiseOpts (exts : List TypeExtension) (batch : Term) : Opts :=
  { batchSize := batch, typeExtensions := exts, onError := .atom "raise" }

/-- A completed enumeration has shown the whole result as long as no other enumeration
of the stream value has begun, or the result is empty. An enumeration that begins after
another one ended completes with nothing. -/
theorem stream_reenumeration {handle : XqliteStream} {rows : List (List Term)} {last : Ending}
    (hopens : Opens handle rows last) (exts : List TypeExtension) (batch : Term) {acc : Acc}
    (hstart : startFun (.ok handle) (raiseOpts exts batch) = .ok acc) (demands : List Demand) :
    let s := (run demand (.start acc) demands).1
    (AllSteps demand Sole (.start acc) demands ∨ (rows = [] ∧ last = .ok ()) →
      ∀ i, Honest acc rows last (s.enums i)) ∧
    ∀ i j b, batchSize batch = some b → (s.enums j).status.ended = true →
      (s.enums i).begun = false →
      ((demand s (.pull i)).1.enums i).elements = [] ∧
        (Honest acc rows last ((demand s (.pull i)).1.enums i) ↔ rows = [] ∧ last = .ok ()) := by
  intro s
  obtain rfl : buildAcc handle handle.columnNames (raiseOpts exts batch) .raise = acc :=
    Except.ok.inj hstart
  have hleft := hopens.left
  refine ⟨?_,?_⟩
  · intro hcond i
    rcases hcond with hall | ⟨rfl,rfl⟩
    · exact (run_inv demand (exclusive_step rfl rfl) (exclusive_start hleft) hall).honest i
    · have hempty := run_inv_total demand (empty_step rfl rfl) demands
        (⟨fun _ => ⟨rfl,rfl,rfl,rfl,rfl⟩,hleft,fun _ => rfl⟩ :
          Empty (buildAcc handle handle.columnNames (raiseOpts exts batch) .raise) (.start _))
      intro _
      refine ⟨rfl,(hempty.elements i).trans ?_⟩
      simp [Acc.yields]
  · intro i j b hb hend hnew
    have hclosed : ClosedByFirst _ s := run_inv_total demand (closedByFirst_step rfl rfl) demands
      ⟨fun _ => ⟨rfl,rfl,rfl,rfl,rfl⟩,(fun _ he => by cases he),fun _ _ => ⟨rfl,rfl⟩⟩
    obtain ⟨hdone,hnone⟩ := pull_after_end rfl rfl hclosed hb hend hnew
    have hstep : (demand s (.pull i)).1.enums i = pull s i := by
      simp [demand,Demand.by,(hclosed.untouched i hnew).1,set_self]
    rw [hstep]
    refine ⟨hnone,?_⟩
    constructor
    · intro hhonest
      obtain ⟨hlast,hall⟩ := hhonest hdone
      rw [hnone] at hall
      exact ⟨yields_eq_nil.mp hall.symm,hlast⟩
    · rintro ⟨hrows,hlast⟩ _
      exact ⟨hlast,hnone.trans (yields_eq_nil.mpr hrows).symm⟩

def oneRow : XqliteStream := .opened ["a"] [.row ["a"] [.integer 1],.done]

theorem oneRow_opens : Opens oneRow [[.int 1]] (.ok ()) := .inl ⟨["a"],_,rfl,rfl⟩

theorem stream_reenumeration_once :
    let acc := buildAcc oneRow ["a"] (raiseOpts [] (.int 1)) .raise
    let s := (run demand (.start acc) [.pull 0,.pull 0]).1
    (s.enums 0).status = .completed ∧ (s.enums 0).elements = acc.yields [[.int 1]] := by
  intro acc s
  have hsole : AllSteps demand Sole (.start acc) [.pull 0,.pull 0] := by
    refine ⟨fun j _ => rfl,fun j hj => ?_,trivial⟩
    have hj' : j ≠ 0 := hj
    simp [demand,Shared.start,Demand.by,Shared.set,hj']
  have hhonest := (stream_reenumeration oneRow_opens [] (.int 1) rfl [.pull 0,.pull 0]).1
    (.inl hsole) 0
  exact ⟨rfl,(hhonest rfl).2⟩

/-- Enumerated again, the stream is empty and looks complete. -/
theorem stream_reenumeration_empty :
    let acc := buildAcc oneRow ["a"] (raiseOpts [] (.int 1)) .raise
    let s := (run demand (.start acc) [.pull 0,.pull 0,.pull 1]).1
    Opens oneRow [[.int 1]] (.ok ()) ∧ startFun (.ok oneRow) (raiseOpts [] (.int 1)) = .ok acc ∧
      (s.enums 1).status = .completed ∧ (s.enums 1).elements = [] :=
  ⟨oneRow_opens,rfl,rfl,rfl⟩

end Xqlite.Stream

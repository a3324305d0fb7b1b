import Mathlib.Algebra.Order.Ring.Int
import Mathlib.Data.List.Basic
set_option autoImplicit false

/-! `backup_with_progress`: the loop around SQLite's online backup, while other connections
write to the source, lock it, or the caller's tokens are signalled. SQLite's backup is a
parameter. -/

namespace Xqlite.Backup

variable {β Page ε : Type*}

/-- `backup.step`, where its busy and locked results are no errors. -/
inductive StepResult where
  | done
  | more
  | busy
  | locked
  deriving DecidableEq, Repr

/-- An open backup with everything around it: `step` takes the page count, `progress` is what
remains and the page count of the source. -/
structure Sqlite (β Page ε : Type*) where
  step : Int → β → β × Except ε StepResult
  progress : β → Int × Int
  source : β → List Page
  dest : β → List Page

/-- The destination is written by the step that answers `done` and by no other, and what goes
before it is rolled back if that step never comes. -/
structure Sqlite.Commits (Q : Sqlite β Page ε) : Prop where
  done : ∀ {n : Int} {b : β}, (Q.step n b).2 = .ok .done →
    Q.dest (Q.step n b).1 = Q.source (Q.step n b).1 ∧ (Q.progress (Q.step n b).1).1 = 0
  kept : ∀ {n : Int} {b : β}, (Q.step n b).2 ≠ .ok .done → Q.dest (Q.step n b).1 = Q.dest b

/-- A step that meets no lock copies its pages: `left` counts those that are still to copy. -/
structure Sqlite.Advances (Q : Sqlite β Page ε) (ready : β → Prop) (left : β → Nat) : Prop where
  last : ∀ {n : Int} {b : β}, ready b → left b ≤ n.toNat → (Q.step n b).2 = .ok .done
  more : ∀ {n : Int} {b : β}, ready b → n.toNat < left b →
    (Q.step n b).2 = .ok .more ∧ left (Q.step n b).1 + n.toNat ≤ left b
  within : ∀ b, left b ≤ (Q.source b).length

/-- One turn of the loop: the tokens, and what others have done before the step. -/
structure Turn (β : Type*) where
  tokens : List Bool
  world : β → β

/-- Nobody else writes to the destination. -/
def Turn.Spares (Q : Sqlite β Page ε) (t : Turn β) : Prop := ∀ b, Q.dest (t.world b) = Q.dest b

inductive Answer (ε : Type*) where
  /-- The loop goes on. -/
  | running
  /-- The count is no `i32`: the call raises. -/
  | argumentError
  | invalidPagesPerStep (pages : Int)
  | operationCancelled
  | failed (e : ε)
  | ok
  deriving DecidableEq

/-- A message is what remains and the page count. -/
structure Outcome (β ε : Type*) where
  copy : β
  sent : List (Int × Int)
  answer : Answer ε

section Loop
variable (Q : Sqlite β Page ε) (n : Int)

def backupLoop (b : β) (sent : List (Int × Int)) : List (Turn β) → Outcome β ε
  | [] => ⟨b,sent,.running⟩
  | turn :: turns =>
    if turn.tokens.any id then ⟨turn.world b,sent,.operationCancelled⟩
    else
      let b' := (Q.step n (turn.world b)).1
      match (Q.step n (turn.world b)).2 with
      | .error e => ⟨b',sent,.failed e⟩
      | .ok result =>
        let sent := sent ++ [Q.progress b']
        match result with
        | .done => ⟨b',sent,.ok⟩
        -- a busy source is asked again after 100 ms
        | .more | .busy | .locked => backupLoop b' sent turns

/-- `opening` is how the destination and the backup were opened. -/
def backupWithProgress (opening : Except ε Unit) (b : β) (turns : List (Turn β)) : Outcome β ε :=
  if n < -2^31 || n ≥ 2^31 then ⟨b,[],.argumentError⟩
  else if n < 1 then ⟨b,[],.invalidPagesPerStep n⟩
  else
    match opening with
    | .error e => ⟨b,[],.failed e⟩
    | .ok () => backupLoop Q n b [] turns

end Loop

section Turns
variable {Q : Sqlite β Page ε} {n : Int} {b : β} {sent : List (Int × Int)} {turn : Turn β}
  {turns : List (Turn β)}

theorem loop_cons_cases (h : turn.tokens.any id = false) :
    (∃ e, (Q.step n (turn.world b)).2 = .error e ∧
      backupLoop Q n b sent (turn :: turns) = ⟨(Q.step n (turn.world b)).1,sent,.failed e⟩) ∨
    ((Q.step n (turn.world b)).2 = .ok .done ∧
      backupLoop Q n b sent (turn :: turns) = ⟨(Q.step n (turn.world b)).1,
        sent ++ [Q.progress (Q.step n (turn.world b)).1],.ok⟩) ∨
    ((Q.step n (turn.world b)).2 ≠ .ok .done ∧
      backupLoop Q n b sent (turn :: turns) = backupLoop Q n (Q.step n (turn.world b)).1
        (sent ++ [Q.progress (Q.step n (turn.world b)).1]) turns) := by
  rw [backupLoop,h]
  cases hstep : (Q.step n (turn.world b)).2 with
  | error e => exact .inl ⟨e,rfl,rfl⟩
  | ok result =>
    cases result with
    | done => exact .inr (.inl ⟨rfl,rfl⟩)
    | more => exact .inr (.inr ⟨by simp,rfl⟩)
    | busy => exact .inr (.inr ⟨by simp,rfl⟩)
    | locked => exact .inr (.inr ⟨by simp,rfl⟩)

theorem loop_cancelled (h : turn.tokens.any id = true) :
    backupLoop Q n b sent (turn :: turns) = ⟨turn.world b,sent,.operationCancelled⟩ := by
  rw [backupLoop,if_pos h]

end Turns

structure Proper (Q : Sqlite β Page ε) (dest : List Page) (o : Outcome β ε) : Prop where
  copied : o.answer = .ok →
    Q.dest o.copy = Q.source o.copy ∧ (o.sent.getLast?).map Prod.fst = some 0
  kept : o.answer ≠ .ok → Q.dest o.copy = dest

theorem loop_proper {Q : Sqlite β Page ε} (hQ : Q.Commits) {n : Int} {b : β}
    {sent : List (Int × Int)} {turns : List (Turn β)} (hturns : ∀ t ∈ turns, t.Spares Q) :
    Proper Q (Q.dest b) (backupLoop Q n b sent turns) := by
  induction turns generalizing b sent with
  | nil => exact ⟨nofun,fun _ => rfl⟩
  | cons turn turns ih =>
    have hworld : Q.dest (turn.world b) = Q.dest b := hturns turn List.mem_cons_self b
    have hrest : ∀ t ∈ turns, t.Spares Q := fun t ht => hturns t (List.mem_cons_of_mem turn ht)
    cases htokens : turn.tokens.any id with
    | true =>
      rw [loop_cancelled htokens]
      exact ⟨nofun,fun _ => hworld⟩
    | false =>
      obtain ⟨e,hstep,hloop⟩ | ⟨hstep,hloop⟩ | ⟨hstep,hloop⟩ :=
        loop_cons_cases (Q := Q) (n := n) (b := b) htokens
      · rw [hloop]
        refine ⟨nofun,fun _ => ?_⟩
        exact (hQ.kept (by simp [hstep])).trans hworld
      · rw [hloop]
        obtain ⟨hdest,hzero⟩ := hQ.done hstep
        exact ⟨fun _ => ⟨hdest,by simp [hzero]⟩,fun hne => absurd rfl hne⟩
      · rw [hloop,← hworld,← hQ.kept hstep]
        exact ih hrest

/-- Whatever happens to the source and the tokens: a backup that succeeds has made the
destination what the source is at that moment and said last that nothing remains; any other
leaves the destination as it was. -/
theorem backup_all_or_nothing (Q : Sqlite β Page ε) (hQ : Q.Commits) (pagesPerStep : Int)
    (opening : Except ε Unit) (b : β) (turns : List (Turn β)) (hturns : ∀ t ∈ turns, t.Spares Q) :
    Proper Q (Q.dest b) (backupWithProgress Q pagesPerStep opening b turns) := by
  unfold backupWithProgress
  split
  · exact ⟨nofun,fun _ => rfl⟩
  split
  · exact ⟨nofun,fun _ => rfl⟩
  · cases opening with
    | error e => exact ⟨nofun,fun _ => rfl⟩
    | ok _ => exact loop_proper hQ hturns

/-- Nothing comes in between: no token is signalled, and others neither lock the source nor
set the copy back. -/
structure Turn.Quiet (ready : β → Prop) (left : β → Nat) (t : Turn β) : Prop where
  unsignalled : t.tokens.any id = false
  ready : ∀ b, ready (t.world b)
  left : ∀ b, left (t.world b) ≤ left b

section Finish
variable {Q : Sqlite β Page ε} {ready : β → Prop} {left : β → Nat} {n : Int} {b : β}
  {sent : List (Int × Int)}

theorem loop_quiet (hQ : Q.Advances ready left) {quiet : List (Turn β)}
    (hquiet : ∀ t ∈ quiet, t.Quiet ready left) (hne : quiet ≠ [])
    (henough : left b ≤ n.toNat * quiet.length) : (backupLoop Q n b sent quiet).answer = .ok := by
  induction quiet generalizing b sent with
  | nil => exact absurd rfl hne
  | cons t quiet ih =>
    obtain ⟨htokens,hready,hleft⟩ := hquiet t List.mem_cons_self
    have hb := hleft b
    rw [List.length_cons,Nat.mul_succ] at henough
    by_cases hlast : left (t.world b) ≤ n.toNat
    · have hstep := hQ.last (hready b) hlast
      simp only [backupLoop,htokens,Bool.false_eq_true,if_false,hstep]
    · obtain ⟨hstep,hfewer⟩ := hQ.more (hready b) (Nat.lt_of_not_le hlast)
      simp only [backupLoop,htokens,Bool.false_eq_true,if_false,hstep]
      refine ih (fun u hu => hquiet u (List.mem_cons_of_mem t hu)) ?_ (by omega)
      rintro rfl
      simp at henough
      omega

theorem loop_append {early : List (Turn β)} (hearly : (backupLoop Q n b sent early).answer = .running)
    (later : List (Turn β)) :
    backupLoop Q n b sent (early ++ later) =
      backupLoop Q n (backupLoop Q n b sent early).copy (backupLoop Q n b sent early).sent later := by
  induction early generalizing b sent with
  | nil => rfl
  | cons turn early ih =>
    cases htokens : turn.tokens.any id with
    | true =>
      rw [loop_cancelled htokens] at hearly
      cases hearly
    | false =>
      simp only [List.cons_append,backupLoop,htokens,Bool.false_eq_true,if_false] at hearly ⊢
      cases hstep : (Q.step n (turn.world b)).2 with
      | error e => simp [hstep] at hearly
      | ok result =>
        simp only [hstep] at hearly ⊢
        cases result with
        | done => cases hearly
        | more => exact ih hearly
        | busy => exact ih hearly
        | locked => exact ih hearly

end Finish

/-- Wherever a backup has got to, and however often it was set back or kept waiting, it
succeeds once it is left alone for as many steps as the source has portions. -/
theorem backup_finishes (Q : Sqlite β Page ε) {ready : β → Prop} {left : β → Nat}
    (hQ : Q.Advances ready left) {pagesPerStep : Int}
    (hpages : 1 ≤ pagesPerStep ∧ pagesPerStep < 2^31) (b : β) {early quiet : List (Turn β)}
    (hearly : (backupWithProgress Q pagesPerStep (.ok ()) b early).answer = .running)
    (hquiet : ∀ t ∈ quiet, t.Quiet ready left) (hne : quiet ≠ [])
    (henough :
      (Q.source (backupWithProgress Q pagesPerStep (.ok ()) b early).copy).length ≤
        pagesPerStep.toNat * quiet.length) :
    (backupWithProgress Q pagesPerStep (.ok ()) b (early ++ quiet)).answer = .ok := by
  have hloop : ∀ turns : List (Turn β),
      backupWithProgress Q pagesPerStep (.ok ()) b turns = backupLoop Q pagesPerStep b [] turns := by
    intro turns
    have hrange : ¬ ((pagesPerStep < -2^31 || pagesPerStep ≥ 2^31) = true) := by
      simp only [Bool.or_eq_true,decide_eq_true_eq]
      omega
    rw [backupWithProgress,if_neg hrange,if_neg (by omega)]
  rw [hloop] at hearly henough ⊢
  rw [loop_append hearly]
  exact loop_quiet hQ hquiet hne (Nat.le_trans (hQ.within _) henough)

section Example

inductive Chance where
  | ready
  | busy
  deriving DecidableEq

/-- Copying starts again from the first page when the source is written to. -/
structure Copy where
  source : List Nat
  dest : List Nat
  copied : Nat
  progress : Int × Int
  chance : Chance
  deriving DecidableEq

def copyStep (n : Int) (b : Copy) : Copy × Except String StepResult :=
  match b.chance with
  | .busy => (b,.ok .busy)
  | .ready =>
    let copied := b.copied + n.toNat
    let total := b.source.length
    if total ≤ copied then
      ({ b with dest := b.source, copied := total, progress := (0,total) },.ok .done)
    else ({ b with copied, progress := (total - copied,total) },.ok .more)

def copySqlite : Sqlite Copy Nat String := ⟨copyStep,Copy.progress,Copy.source,Copy.dest⟩

theorem copySqlite_commits : copySqlite.Commits where
  done := by
    intro n b hdone
    simp only [copySqlite,copyStep] at hdone ⊢
    cases hb : b.chance with
    | busy => simp [hb] at hdone
    | ready =>
      simp only [hb] at hdone ⊢
      split at hdone
      · next hall => simp only [if_pos hall,and_self]
      · simp at hdone
  kept := by
    intro n b hne
    simp only [copySqlite,copyStep] at hne ⊢
    cases hb : b.chance with
    | busy => rfl
    | ready =>
      simp only [hb] at hne ⊢
      split at hne
      · exact absurd rfl hne
      · next hall => simp only [if_neg hall]

theorem copySqlite_advances :
    copySqlite.Advances (fun b => b.chance = .ready) (fun b => b.source.length - b.copied) where
  last := by
    intro n b hready hlast
    simp only [copySqlite,copyStep,hready]
    rw [if_pos (by omega)]
  more := by
    intro n b hready hmore
    simp only [copySqlite,copyStep,hready]
    rw [if_neg (by omega)]
    exact ⟨rfl,by simp only; omega⟩
  within := fun b => Nat.sub_le _ _

def begun : Copy := ⟨[1,2,3],[9],0,(0,0),.ready⟩

def disturbed : List (Turn Copy) :=
  [⟨[false],id⟩,⟨[false],fun b => { b with source := [4,5,6], copied := 0, chance := .busy }⟩]

def freed : Turn Copy := ⟨[false],fun b => { b with chance := .ready }⟩

theorem backup_all_or_nothing_disturbed :
    (backupWithProgress copySqlite 2 (.ok ()) begun disturbed).copy.dest = [9] ∧
      (backupWithProgress copySqlite 2 (.ok ()) begun (disturbed ++ [freed,freed])).copy.dest =
        [4,5,6] := by
  have hspares : ∀ t ∈ disturbed ++ [freed,freed], t.Spares copySqlite := by
    intro t ht
    simp only [disturbed,List.cons_append,List.nil_append,List.mem_cons,List.not_mem_nil,
      or_false] at ht
    rcases ht with rfl | rfl | rfl | rfl <;> exact fun _ => rfl
  have hsome := backup_all_or_nothing copySqlite copySqlite_commits 2 (.ok ()) begun disturbed
    (fun t ht => hspares t (List.mem_append_left _ ht))
  have hall := backup_all_or_nothing copySqlite copySqlite_commits 2 (.ok ()) begun
    (disturbed ++ [freed,freed]) hspares
  exact ⟨hsome.kept (by decide),(hall.copied (by decide)).1⟩

theorem backup_finishes_disturbed :
    (backupWithProgress copySqlite 2 (.ok ()) begun (disturbed ++ [freed,freed])).answer = .ok := by
  refine backup_finishes copySqlite copySqlite_advances (by decide) begun rfl ?_ (by simp) (by decide)
  intro t ht
  simp only [List.mem_cons,List.not_mem_nil,or_false,or_self] at ht
  rw [ht]
  exact ⟨rfl,fun _ => rfl,fun _ => Nat.le_refl _⟩

end Example

end Xqlite.Backup

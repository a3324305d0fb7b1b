import Xqlite.Lib.Nested
import Xqlite.Quoting
set_option autoImplicit false

/-! `transaction.rs`: each call is one SQL text, which SQLite reads and carries out. What it
does with a connection's transaction and savepoints is a parameter that keeps to the rules of
such stores. -/

namespace Xqlite.Savepoints
open SqlText Runs Quoting
open Nested (Session Rules Within)

variable {σ δ ε : Type*}

inductive TransactionMode where
  | deferred
  | immediate
  | exclusive
  deriving DecidableEq, Repr

def TransactionMode.fromAtom (atom : String) : Option TransactionMode :=
  if atom = "deferred" then some .deferred
  else if atom = "immediate" then some .immediate
  else if atom = "exclusive" then some .exclusive
  else none

def TransactionMode.asSql : TransactionMode → String
  | .deferred => "BEGIN DEFERRED;"
  | .immediate => "BEGIN IMMEDIATE;"
  | .exclusive => "BEGIN EXCLUSIVE;"

section Reading
variable (reserved : Bytes → Bool)

def skipMode (s : Bytes) : Bytes :=
  (expectWord "DEFERRED" s <|> expectWord "IMMEDIATE" s <|> expectWord "EXCLUSIVE" s).getD s

inductive Boundary where
  | begin
  | commit
  | rollback
  deriving DecidableEq, Repr

def readBoundary (s : Bytes) : Option (Boundary × Bytes) :=
  match nextToken s with
  | some (.word text,s) =>
    if isWord "BEGIN" text then some (.begin,skipWord "TRANSACTION" (skipMode s))
    else if isWord "COMMIT" text || isWord "END" text then some (.commit,skipWord "TRANSACTION" s)
    else if isWord "ROLLBACK" text then some (.rollback,skipWord "TRANSACTION" s)
    else none
  | _ => none

def parseBoundary (s : Bytes) : Option Boundary := do
  let (boundary,s) ← readBoundary (visible s)
  let s ← expect .semicolon s
  if skipBlank .code s = [] then some boundary else none

def Boundary.command : Boundary → Nested.Command Bytes
  | .begin => .begin
  | .commit => .commit
  | .rollback => .rollback

def sqlite3Prepare (sql : String) : Option (Nested.Command Bytes) :=
  match parseCommand reserved (utf8 sql) with
  | some (.savepoint name) => some (.savepoint name)
  | some (.rollbackTo name) => some (.rollbackTo name)
  | some (.release name) => some (.release name)
  | some (.pragma _ _) => none
  | none => (parseBoundary (utf8 sql)).map Boundary.command

end Reading

/-- SQLite compares savepoint names without regard to ASCII case. -/
def fold (b : UInt8) : UInt8 := if 65 ≤ b && b ≤ 90 then b + 32 else b

def sameName (a b : Bytes) : Bool := a.map fold == b.map fold

/-- `conn.execute` on a text without parameters, and the session that the connection is in. -/
structure Sqlite (σ δ ε : Type*) where
  execute : σ → String → σ × Except ε Unit
  view : σ → Session δ Bytes

/-- SQLite on a database that no other connection writes to. -/
def Sqlite.Keeps (Q : Sqlite σ δ ε) (reserved : Bytes → Bool) : Prop :=
  Rules sameName (sqlite3Prepare reserved) Q.execute Q.view

inductive Failure (ε : Type*) where
  | invalidTransactionMode
  | sqlite (e : ε)
  deriving DecidableEq

section Calls
variable (Q : Sqlite σ δ ε) (s : σ)

def begin (mode : String) : σ × Except (Failure ε) Unit :=
  match TransactionMode.fromAtom mode with
  | none => (s,.error .invalidTransactionMode)
  | some mode => ((Q.execute s mode.asSql).1,(Q.execute s mode.asSql).2.mapError .sqlite)

def commit : σ × Except ε Unit := Q.execute s "COMMIT;"

def rollback : σ × Except ε Unit := Q.execute s "ROLLBACK;"

def savepoint (name : String) : σ × Except ε Unit := Q.execute s (Quoting.savepoint name)

def rollbackToSavepoint (name : String) : σ × Except ε Unit :=
  Q.execute s (Quoting.rollbackToSavepoint name)

def releaseSavepoint (name : String) : σ × Except ε Unit :=
  Q.execute s (Quoting.releaseSavepoint name)

end Calls

section Texts
variable {reserved : Bytes → Bool}

theorem parseCommand_word {s w rest : Bytes}
    (h : nextToken (visible s) = some (.word w,rest)) (hsave : isWord "SAVEPOINT" w = false)
    (hrelease : isWord "RELEASE" w = false) (hpragma : isWord "PRAGMA" w = false)
    (hback : isWord "ROLLBACK" w = true → expectWord "TO" rest = none) :
    parseCommand reserved s = none := by
  have hread : readCommand reserved (visible s) = none := by
    simp only [readCommand,h,hsave,hrelease,hpragma,Bool.false_eq_true,if_false]
    split
    · next hword =>
      rw [hback hword]
      rfl
    · rfl
  rw [parseCommand,hread]
  rfl

theorem prepare_boundary {sql : String} (boundary : Boundary)
    (hnone : parseCommand reserved (utf8 sql) = none)
    (hsome : parseBoundary (utf8 sql) = some boundary) :
    sqlite3Prepare reserved sql = some boundary.command := by
  simp only [sqlite3Prepare,hnone,hsome,Option.map_some]

theorem prepare_begin (mode : TransactionMode) :
    sqlite3Prepare reserved mode.asSql = some .begin := by
  have hword : nextToken (visible (utf8 mode.asSql)) =
      some (.word (utf8 "BEGIN"),(utf8 mode.asSql).drop 5) := by cases mode <;> decide
  refine prepare_boundary .begin ?_ (by cases mode <;> decide)
  exact parseCommand_word hword (by decide) (by decide) (by decide)
    (fun h => absurd h (by decide))

theorem prepare_commit : sqlite3Prepare reserved "COMMIT;" = some .commit := by
  have hword : nextToken (visible (utf8 "COMMIT;")) = some (.word (utf8 "COMMIT"),[semicolon]) := by
    decide
  refine prepare_boundary .commit ?_ (by decide)
  exact parseCommand_word hword (by decide) (by decide) (by decide)
    (fun h => absurd h (by decide))

theorem prepare_rollback : sqlite3Prepare reserved "ROLLBACK;" = some .rollback := by
  have hword : nextToken (visible (utf8 "ROLLBACK;")) =
      some (.word (utf8 "ROLLBACK"),[semicolon]) := by decide
  refine prepare_boundary .rollback ?_ (by decide)
  exact parseCommand_word hword (by decide) (by decide) (by decide) (fun _ => by decide)

theorem prepare_name {head : String} {command : Bytes → SqlText.Command}
    {command' : Bytes → Nested.Command Bytes}
    (hframes : Frames reserved (utf8 head) (utf8 ";") command some)
    (hsqlite : ∀ name sql, parseCommand reserved (utf8 sql) = some (command name) →
      sqlite3Prepare reserved sql = some (command' name)) {name : String}
    (hname : '\x00' ∉ name.toList) :
    sqlite3Prepare reserved (head ++ quoteIdentifier name ++ ";") =
      some (command' (utf8 name)) := by
  have hread := parseCommand_quoteIdentifier hframes name
  rw [if_neg hname] at hread
  exact hsqlite _ _ hread

variable {name : String}

theorem prepare_savepoint (hname : '\x00' ∉ name.toList) :
    sqlite3Prepare reserved (Quoting.savepoint name) = some (.savepoint (utf8 name)) := by
  refine prepare_name savepoint_frames ?_ hname
  intro name sql h
  delta sqlite3Prepare
  rw [h]

theorem prepare_releaseSavepoint (hname : '\x00' ∉ name.toList) :
    sqlite3Prepare reserved (Quoting.releaseSavepoint name) = some (.release (utf8 name)) := by
  refine prepare_name releaseSavepoint_frames ?_ hname
  intro name sql h
  delta sqlite3Prepare
  rw [h]

theorem prepare_rollbackToSavepoint (hname : '\x00' ∉ name.toList) :
    sqlite3Prepare reserved (Quoting.rollbackToSavepoint name) =
      some (.rollbackTo (utf8 name)) := by
  refine prepare_name rollbackToSavepoint_frames ?_ hname
  intro name sql h
  delta sqlite3Prepare
  rw [h]

end Texts

section Bracket
variable {reserved : Bytes → Bool} {Q : Sqlite σ δ ε}

theorem sameName_self (name : Bytes) : sameName name name = true := beq_self_eq_true _

theorem begin_ok {s : σ} {mode : String} (h : (begin Q s mode).2 = .ok ()) :
    ∃ m : TransactionMode, (begin Q s mode).1 = (Q.execute s m.asSql).1 ∧
      (Q.execute s m.asSql).2 = .ok () := by
  unfold begin at h ⊢
  cases hmode : TransactionMode.fromAtom mode with
  | none =>
    rw [hmode] at h
    cases h
  | some m =>
    rw [hmode] at h
    refine ⟨m,rfl,?_⟩
    cases hout : (Q.execute s m.asSql).2 with
    | ok u => rfl
    | error e =>
      simp only [hout,Except.mapError] at h
      cases h

/-- Between `begin` and the end of the transaction, in each of its modes: a rollback gives
the session before it, a commit the same with the new contents. -/
theorem transaction_bracket (hQ : Q.Keeps reserved) {s : σ} {mode : String}
    (hbegin : (begin Q s mode).2 = .ok ()) {body : List String}
    (hbody : AllSteps Q.execute (fun s sql => (Q.view (Q.execute s sql).1).inTransaction = true)
      (begin Q s mode).1 body) {inner : σ}
    (hinner : inner = (run Q.execute (begin Q s mode).1 body).1) :
    ((rollback Q inner).2 = .ok () → Q.view (rollback Q inner).1 = Q.view s) ∧
      ((commit Q inner).2 = .ok () →
        Q.view (commit Q inner).1 = (Q.view s).withDb (Q.view inner).db) := by
  obtain ⟨m,hstate,hok⟩ := begin_ok hbegin
  obtain ⟨hauto,hview⟩ := hQ.begins (prepare_begin m) hok
  have hopened : Q.view (begin Q s mode).1 =
      .inside (Q.view s).db (Q.view s).db [] false nofun := by rw [hstate,hview]
  obtain ⟨-,hsaved,-⟩ := hQ.run_open (by rw [hopened]; rfl) hbody
  rw [← hinner,hopened] at hsaved
  refine ⟨?_,?_⟩
  · intro hrollback
    have hback := hQ.rollsBack prepare_rollback hrollback
    rw [hsaved] at hback
    exact hback.trans hauto.symm
  · intro hcommit
    have hkept := hQ.commits prepare_commit hcommit
    rw [hauto]
    exact hkept

/-- However the calls between a savepoint and its end use the connection, as long as they
leave the savepoint and those below it in place and it is the latest of its name at the end:
going back to it and releasing it gives the session before it, with every outer savepoint and
the transaction's own start, and releasing it alone the same session with the new contents. -/
theorem savepoint_bracket (reserved : Bytes → Bool) (Q : Sqlite σ δ ε) (hQ : Q.Keeps reserved)
    (s : σ) (name : String) (hname : '\x00' ∉ name.toList)
    (hset : (savepoint Q s name).2 = .ok ()) (body : List String)
    (hbody : AllSteps Q.execute (fun s' sql =>
      ((utf8 name,(Q.view s).db) :: (Q.view s).marks) <:+ (Q.view (Q.execute s' sql).1).marks)
      (savepoint Q s name).1 body) {inner : σ}
    (hinner : inner = (run Q.execute (savepoint Q s name).1 body).1)
    (hlatest : Nested.find sameName (utf8 name) (Q.view inner).marks =
      (utf8 name,(Q.view s).db) :: (Q.view s).marks) :
    ((rollbackToSavepoint Q inner name).2 = .ok () →
      (releaseSavepoint Q (rollbackToSavepoint Q inner name).1 name).2 = .ok () →
      Q.view (releaseSavepoint Q (rollbackToSavepoint Q inner name).1 name).1 = Q.view s) ∧
      ((releaseSavepoint Q inner name).2 = .ok () →
        Q.view (releaseSavepoint Q inner name).1 = (Q.view s).withDb (Q.view inner).db) := by
  have hmarked : Q.view (savepoint Q s name).1 = (Q.view s).marked (utf8 name) :=
    hQ.savepoint (prepare_savepoint hname) hset
  have hopen := allSteps_mono Q.execute (fun s' sql h =>
    Session.inTransaction_of_suffix (List.cons_ne_nil _ _) h) hbody
  obtain ⟨-,hsaved,houter⟩ := hQ.run_open (by rw [hmarked]; rfl) hopen
  rw [← hinner,hmarked] at hsaved houter
  have hin : Within sameName (utf8 name) (Q.view s) (Q.view inner) := ⟨hlatest,hsaved,houter⟩
  refine ⟨?_,hQ.release_within hin (prepare_releaseSavepoint hname)⟩
  intro hback hrelease
  have hreset : Q.view (rollbackToSavepoint Q inner name).1 = (Q.view s).marked (utf8 name) :=
    hQ.rollbackTo_within hin (prepare_rollbackToSavepoint hname) hback
  have hagain : Within sameName (utf8 name) (Q.view s)
      (Q.view (rollbackToSavepoint Q inner name).1) := by
    rw [hreset]
    exact Nested.within_marked (sameName_self _) _
  have hfreed := hQ.release_within hagain (prepare_releaseSavepoint hname) hrelease
  rw [hreset] at hfreed
  exact hfreed.trans (Session.withDb_db _)

end Bracket

section Example

/-- A store that does nothing but keep its stack; a text that it reads as no command adds one. -/
def stackExecute (c : Session Nat Bytes) (sql : String) :
    Session Nat Bytes × Except String Unit :=
  match sqlite3Prepare (fun _ => false) sql with
  | none => (c.withDb (c.db+1),.ok ())
  | some .begin =>
    match c with
    | .autocommit db => (.inside db db [] false nofun,.ok ())
    | .inside _ _ _ _ _ => (c,.error "cannot start a transaction within a transaction")
  | some .commit =>
    match c with
    | .autocommit _ => (c,.error "cannot commit - no transaction is active")
    | .inside db _ _ _ _ => (.autocommit db,.ok ())
  | some .rollback =>
    match c with
    | .autocommit _ => (c,.error "cannot rollback - no transaction is active")
    | .inside _ base _ _ _ => (.autocommit base,.ok ())
  | some (.savepoint name) => (c.marked name,.ok ())
  | some (.release name) =>
    match Nested.find sameName name c.marks with
    | [] => (c,.error "no such savepoint")
    | _ :: below => (Nested.endAt c.db c.saved below c.outer,.ok ())
  | some (.rollbackTo name) =>
    match Nested.find sameName name c.marks with
    | [] => (c,.error "no such savepoint")
    | m :: below =>
      (.inside m.2 c.saved (m :: below) c.outer (fun _ => List.cons_ne_nil m below),.ok ())

def stack : Sqlite (Session Nat Bytes) Nat String := ⟨stackExecute,id⟩

theorem saved_endAt {db base : Nat} {below : List (Bytes × Nat)} {outer : Bool}
    (h : (Nested.endAt db base below outer).inTransaction = true) :
    (Nested.endAt db base below outer).saved = base ∧
      (Nested.endAt db base below outer).outer = outer := by
  cases outer with
  | false => exact ⟨rfl,rfl⟩
  | true =>
    cases below with
    | nil => cases h
    | cons m below => exact ⟨rfl,rfl⟩

theorem stack_steady {c : Session Nat Bytes} {sql : String} (hc : c.inTransaction = true)
    (h : (stackExecute c sql).1.inTransaction = true) :
    (stackExecute c sql).1.saved = c.saved ∧ (stackExecute c sql).1.outer = c.outer := by
  cases c with
  | autocommit db => cases hc
  | inside db base marks outer begun =>
    unfold stackExecute at h ⊢
    cases hread : sqlite3Prepare (fun _ => false) sql with
    | none => exact ⟨rfl,rfl⟩
    | some command =>
      rw [hread] at h
      cases command with
      | begin => exact ⟨rfl,rfl⟩
      | commit => cases h
      | rollback => cases h
      | savepoint name => exact ⟨rfl,rfl⟩
      | release name =>
        cases hfound : Nested.find sameName name marks with
        | nil => simp only [Session.marks,hfound,and_self]
        | cons m below =>
          simp only [Session.marks,hfound] at h ⊢
          exact saved_endAt h
      | rollbackTo name =>
        cases hfound : Nested.find sameName name marks with
        | nil => simp only [Session.marks,hfound,and_self]
        | cons m below => simp only [Session.marks,hfound,Session.saved,Session.outer,and_self]

theorem stack_keeps : stack.Keeps (fun _ => false) where
  begins := by
    intro c sql hread hok
    cases c with
    | autocommit db => exact ⟨rfl,by simp only [stack,stackExecute,hread,id,Session.db]⟩
    | inside db base marks outer begun => simp [stack,stackExecute,hread] at hok
  commits := by
    intro c sql hread hok
    cases c with
    | autocommit db => simp [stack,stackExecute,hread] at hok
    | inside db base marks outer begun => simp only [stack,stackExecute,hread,id,Session.db]
  rollsBack := by
    intro c sql hread hok
    cases c with
    | autocommit db => simp [stack,stackExecute,hread] at hok
    | inside db base marks outer begun => simp only [stack,stackExecute,hread,id,Session.saved]
  savepoint := by
    intro c sql name hread _
    simp only [stack,stackExecute,hread,id]
  rollbackTo := by
    intro c sql name m below hread hfound _
    simp only [stack,id] at hfound
    simp only [stack,stackExecute,hread,id,hfound]
  release := by
    intro c sql name m below hread hfound _
    simp only [stack,id] at hfound
    simp only [stack,stackExecute,hread,id,hfound]
  steady := stack_steady

def oneOpen : Session Nat Bytes := .inside 1 0 [(utf8 "outer",0)] true (fun _ => by simp)

/-- Inside the savepoint another of the same name is set, changed and released. -/
def someTexts : List String :=
  ["INSERT;",Quoting.savepoint "A","INSERT;",Quoting.releaseSavepoint "a"]

theorem savepoint_bracket_nested :
    (releaseSavepoint stack (run stackExecute (savepoint stack oneOpen "a").1 someTexts).1 "a").1 =
        oneOpen.withDb 3 ∧
      (releaseSavepoint stack (rollbackToSavepoint stack
        (run stackExecute (savepoint stack oneOpen "a").1 someTexts).1 "a").1 "a").1 = oneOpen := by
  have h := savepoint_bracket (fun _ => false) stack stack_keeps oneOpen "a" (by decide)
    (by decide) someTexts (by simp only [someTexts,AllSteps]; decide) rfl (by decide)
  exact ⟨h.2 (by decide),h.1 (by decide) (by decide)⟩

end Example

end Xqlite.Savepoints

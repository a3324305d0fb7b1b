import Xqlite.Lib.FirstError
import Xqlite.Lib.Runs
set_option autoImplicit false

/-! The deny-list authorizer of a connection. SQLite asks it about every action of a
statement while it compiles the statement. -/

namespace Xqlite.Authorizer
open Runs

section Kinds

inductive ActionKind where
  | createIndex | createTable | createTempIndex | createTempTable | createTempTrigger
  | createTempView | createTrigger | createView | delete | dropIndex | dropTable | dropTempIndex
  | dropTempTable | dropTempTrigger | dropTempView | dropTrigger | dropView | insert | pragma
  | read | select | transaction | update | attach | detach | alterTable | reindex | analyze
  | createVtable | dropVtable | function | savepoint | recursive | unknown
  deriving DecidableEq, Repr

inductive AuthAction where
  | createIndex (indexName tableName : String)
  | createTable (tableName : String)
  | createTempIndex (indexName tableName : String)
  | createTempTable (tableName : String)
  | createTempTrigger (triggerName tableName : String)
  | createTempView (viewName : String)
  | createTrigger (triggerName tableName : String)
  | createView (viewName : String)
  | delete (tableName : String)
  | dropIndex (indexName tableName : String)
  | dropTable (tableName : String)
  | dropTempIndex (indexName tableName : String)
  | dropTempTable (tableName : String)
  | dropTempTrigger (triggerName tableName : String)
  | dropTempView (viewName : String)
  | dropTrigger (triggerName tableName : String)
  | dropView (viewName : String)
  | insert (tableName : String)
  | pragma (pragmaName : String) (pragmaValue : Option String)
  | read (tableName columnName : String)
  | select
  | transaction (operation : String)
  | update (tableName columnName : String)
  | attach (filename : String)
  | detach (databaseName : String)
  | alterTable (databaseName tableName : String)
  | reindex (indexName : String)
  | analyze (tableName : String)
  | createVtable (tableName moduleName : String)
  | dropVtable (tableName moduleName : String)
  | function (functionName : String)
  | savepoint (operation savepointName : String)
  | recursive
  | unknown (code : Int) (arg1 arg2 : Option String)

def ActionKind.of : AuthAction → ActionKind
  | .createIndex _ _ => .createIndex
  | .createTable _ => .createTable
  | .createTempIndex _ _ => .createTempIndex
  | .createTempTable _ => .createTempTable
  | .createTempTrigger _ _ => .createTempTrigger
  | .createTempView _ => .createTempView
  | .createTrigger _ _ => .createTrigger
  | .createView _ => .createView
  | .delete _ => .delete
  | .dropIndex _ _ => .dropIndex
  | .dropTable _ => .dropTable
  | .dropTempIndex _ _ => .dropTempIndex
  | .dropTempTable _ => .dropTempTable
  | .dropTempTrigger _ _ => .dropTempTrigger
  | .dropTempView _ => .dropTempView
  | .dropTrigger _ _ => .dropTrigger
  | .dropView _ => .dropView
  | .insert _ => .insert
  | .pragma _ _ => .pragma
  | .read _ _ => .read
  | .select => .select
  | .transaction _ => .transaction
  | .update _ _ => .update
  | .attach _ => .attach
  | .detach _ => .detach
  | .alterTable _ _ => .alterTable
  | .reindex _ => .reindex
  | .analyze _ => .analyze
  | .createVtable _ _ => .createVtable
  | .dropVtable _ _ => .dropVtable
  | .function _ => .function
  | .savepoint _ _ => .savepoint
  | .recursive => .recursive
  | .unknown _ _ _ => .unknown

/-- The table of `from_atom`. -/
def table : List (String × ActionKind) :=
  [("create_index",.createIndex),("create_table",.createTable),
    ("create_temp_index",.createTempIndex),("create_temp_table",.createTempTable),
    ("create_temp_trigger",.createTempTrigger),("create_temp_view",.createTempView),
    ("create_trigger",.createTrigger),("create_view",.createView),("delete",.delete),
    ("drop_index",.dropIndex),("drop_table",.dropTable),("drop_temp_index",.dropTempIndex),
    ("drop_temp_table",.dropTempTable),("drop_temp_trigger",.dropTempTrigger),
    ("drop_temp_view",.dropTempView),("drop_trigger",.dropTrigger),("drop_view",.dropView),
    ("insert",.insert),("pragma",.pragma),("read",.read),("select",.select),
    ("transaction",.transaction),("update",.update),("attach",.attach),("detach",.detach),
    ("alter_table",.alterTable),("reindex",.reindex),("analyze",.analyze),
    ("create_vtable",.createVtable),("drop_vtable",.dropVtable),("function",.function),
    ("savepoint",.savepoint),("recursive",.recursive),("unknown",.unknown)]

end Kinds

section Source

inductive Failure where
  | invalidAuthorizerAction (action : String)
  | connectionClosed
  | sqliteFailure (code : Int)
  | authorizationDenied
  | noStatement
  deriving DecidableEq, Repr

def fromAtom (atom : String) : Except Failure ActionKind :=
  match table.findSome? fun (a,kind) => if a = atom then some kind else none with
  | some kind => .ok kind
  | none => .error (.invalidAuthorizerAction atom)

def parseDenied (actions : List String) : Except Failure (List ActionKind) :=
  FirstError.collect fromAtom actions

/-- A compiled statement: the actions of its program, and whether SQLite has to compile it
again before it starts the next time. -/
structure Stmt where
  actions : List AuthAction
  expired : Bool
  running : Bool

structure Conn where
  isOpen : Bool
  slot : Option (List ActionKind)
  stmts : List Stmt

def Conn.opened : Conn := ⟨true,none,[]⟩

/-- The closure that `set` installs. -/
def allows (slot : Option (List ActionKind)) (action : AuthAction) : Bool :=
  match slot with
  | some denied => !denied.contains (.of action)
  | none => true

/-- The calls on a connection. `rc` is a code with which SQLite refuses to take the callback;
`asked` are the actions of the program that a statement gets when it is compiled anew. -/
inductive Call where
  | setAuthorizer (deniedActions : List String) (rc : Option Int)
  | removeAuthorizer (rc : Option Int)
  | prepare (actions : List AuthAction)
  | step (i : Nat) (asked : List AuthAction) (more : Bool)
  | reset (i : Nat)
  | close

inductive Reply where
  | ok
  | row
  | done
  | failed (e : Failure)
  deriving DecidableEq, Repr

/-- `with_conn` around a call of `Connection::authorizer`. -/
def Conn.install (c : Conn) (rc : Option Int) (installed : Conn) : Conn × Reply :=
  if c.isOpen then
    match rc with
    | none => (installed,.ok)
    | some code => (c,.failed (.sqliteFailure code))
  else (c,.failed .connectionClosed)

/-- A new callback marks every statement of the connection for compilation. -/
def Conn.set (c : Conn) (denied : List ActionKind) : Conn :=
  { c with slot := some denied, stmts := c.stmts.map fun s => { s with expired := true } }

def Conn.clear (c : Conn) : Conn := { c with slot := none }

def Conn.advance (c : Conn) (i : Nat) (s : Stmt) (more : Bool) : Conn × Reply :=
  ({ c with stmts := c.stmts.set i { s with running := more } },if more then .row else .done)

def step (c : Conn) : Call → Conn × Reply
  | .setAuthorizer deniedActions rc =>
    match parseDenied deniedActions with
    | .error e => (c,.failed e)
    | .ok denied => c.install rc (c.set denied)
  | .removeAuthorizer rc => c.install rc c.clear
  | .prepare actions =>
    if !c.isOpen then (c,.failed .connectionClosed)
    else if actions.all (allows c.slot) then
      ({ c with stmts := c.stmts ++ [⟨actions,false,false⟩] },.ok)
    else (c,.failed .authorizationDenied)
  | .step i asked more =>
    match c.stmts[i]? with
    | none => (c,.failed .noStatement)
    | some s =>
      if !c.isOpen then (c,.failed .connectionClosed)
      -- a program that runs goes on to its end
      else if s.running || !s.expired then c.advance i s more
      else if asked.all (allows c.slot) then c.advance i ⟨asked,false,s.running⟩ more
      else (c,.failed .authorizationDenied)
  | .reset i =>
    match c.stmts[i]? with
    | none => (c,.failed .noStatement)
    | some s =>
      if !c.isOpen then (c,.failed .connectionClosed)
      else ({ c with stmts := c.stmts.set i { s with running := false } },.ok)
  | .close => ({ c with isOpen := false },.ok)

end Source

section Table

theorem table_atoms : (table.map Prod.fst).Nodup := by decide +kernel

theorem table_kinds (k : ActionKind) : ∃ atom, (atom,k) ∈ table := by
  have hmem : k ∈ table.map Prod.snd := by cases k <;> decide +kernel
  obtain ⟨entry,hentry,rfl⟩ := List.mem_map.mp hmem
  exact ⟨entry.1,hentry⟩

theorem findSome_iff {entries : List (String × ActionKind)}
    (h : (entries.map Prod.fst).Nodup) {atom : String} {kind : ActionKind} :
    entries.findSome? (fun (a,kind) => if a = atom then some kind else none) = some kind ↔
      (atom,kind) ∈ entries := by
  induction entries with
  | nil => simp
  | cons entry entries ih =>
    obtain ⟨a,k⟩ := entry
    rw [List.map_cons,List.nodup_cons] at h
    by_cases ha : a = atom
    · subst ha
      have hnot : (a,kind) ∉ entries := fun hmem => h.1 (List.mem_map.mpr ⟨_,hmem,rfl⟩)
      simp [hnot,eq_comm]
    · simp [ha,Ne.symm ha,ih h.2]

theorem fromAtom_ok_iff {atom : String} {kind : ActionKind} :
    fromAtom atom = .ok kind ↔ (atom,kind) ∈ table := by
  rw [← findSome_iff table_atoms,fromAtom]
  split
  · rename_i k hk
    rw [hk]
    simp
  · rename_i hnone
    rw [hnone]
    simp

theorem fromAtom_error {atom : String} {e : Failure} (h : fromAtom atom = .error e) :
    e = .invalidAuthorizerAction atom := by
  unfold fromAtom at h
  split at h
  · cases h
  · cases h
    rfl

theorem mem_parseDenied {actions : List String} {denied : List ActionKind}
    (h : parseDenied actions = .ok denied) (kind : ActionKind) :
    kind ∈ denied ↔ ∃ atom ∈ actions, (atom,kind) ∈ table := by
  have hforall := FirstError.collect_ok_iff.mp h
  clear h
  induction hforall with
  | nil => simp
  | @cons atom k atoms ks hatom _ ih =>
    rw [fromAtom_ok_iff] at hatom
    have hrest : kind ∈ ks ↔ ∃ atom ∈ atoms, (atom,kind) ∈ table := ih
    rw [List.mem_cons,hrest]
    constructor
    · intro h
      obtain rfl | ⟨atom',hmem,hentry⟩ := h
      · exact ⟨atom,List.mem_cons_self,hatom⟩
      · exact ⟨atom',List.mem_cons_of_mem _ hmem,hentry⟩
    · intro h
      obtain ⟨atom',hmem,hentry⟩ := h
      obtain rfl | hmem := List.mem_cons.mp hmem
      · rw [← fromAtom_ok_iff] at hatom hentry
        rw [hatom] at hentry
        exact .inl (Except.ok.inj hentry).symm
      · exact .inr ⟨atom',hmem,hentry⟩

end Table

section Force

/-- The list of the last `set_authorizer` that was answered with `:ok`, if no
`remove_authorizer` was since. -/
def inForce (history : List (Call × Reply)) : List String :=
  history.foldl (fun atoms x =>
    match x with
    | (.setAuthorizer deniedActions _,.ok) => deniedActions
    | (.removeAuthorizer _,.ok) => []
    | _ => atoms) []

def answered (c : Conn) (call : Call) : List (Call × Reply) := [(call,(step c call).2)]

def record (calls : List Call) : List (Call × Reply) := history step answered .opened calls

def reached (calls : List Call) : Conn := (run step .opened calls).1

def Denied (atoms : List String) (action : AuthAction) : Prop :=
  ∃ atom ∈ atoms, (atom,.of action) ∈ table

structure Guarded (history : List (Call × Reply)) (c : Conn) : Prop where
  slot : ∀ action, allows c.slot action = false ↔ Denied (inForce history) action
  stmts : ∀ s ∈ c.stmts, s.expired = false → ∀ a ∈ s.actions, allows c.slot a = true

variable {past : List (Call × Reply)} {c : Conn} {calls : List Call}

theorem inForce_snoc (past : List (Call × Reply)) (call : Call) (reply : Reply) :
    inForce (past ++ [(call,reply)]) =
      match (call,reply) with
      | (.setAuthorizer deniedActions _,.ok) => deniedActions
      | (.removeAuthorizer _,.ok) => []
      | _ => inForce past := by
  rw [inForce,List.foldl_append]
  rfl

theorem guarded_opened : Guarded [] .opened where
  slot action := by simp [allows,Conn.opened,Denied,inForce]
  stmts s hs := nomatch hs

theorem Guarded.failed (h : Guarded past c) (call : Call) (e : Failure) :
    Guarded (past ++ [(call,.failed e)]) c := by
  have hsame : inForce (past ++ [(call,.failed e)]) = inForce past := by
    rw [inForce_snoc]
    cases call <;> rfl
  exact ⟨by rw [hsame]; exact h.slot,h.stmts⟩

theorem Guarded.stays (h : Guarded past c) {call : Call} {reply : Reply} {stmts : List Stmt}
    {isOpen : Bool} (hforce : inForce (past ++ [(call,reply)]) = inForce past)
    (hstmts : ∀ s ∈ stmts, s.expired = false → ∀ a ∈ s.actions, allows c.slot a = true) :
    Guarded (past ++ [(call,reply)]) ⟨isOpen,c.slot,stmts⟩ :=
  ⟨by rw [hforce]; exact h.slot,hstmts⟩

theorem allows_set {denied : List ActionKind} {action : AuthAction} :
    allows (some denied) action = false ↔ .of action ∈ denied := by
  simp [allows]

theorem Guarded.setAuthorizer (h : Guarded past c) (deniedActions : List String)
    (rc : Option Int) :
    Guarded (past ++ answered c (.setAuthorizer deniedActions rc))
      (step c (.setAuthorizer deniedActions rc)).1 := by
  simp only [answered,step]
  cases hparse : parseDenied deniedActions with
  | error e => exact h.failed _ e
  | ok denied =>
    simp only [Conn.install]
    split_ifs
    · cases rc with
      | some code => exact h.failed _ _
      | none =>
        refine ⟨fun action => ?_,fun s hs hfresh => ?_⟩
        · rw [inForce_snoc]
          exact allows_set.trans (mem_parseDenied hparse _)
        · obtain ⟨s',-,rfl⟩ := List.mem_map.mp hs
          cases hfresh
    · exact h.failed _ _

theorem Guarded.removeAuthorizer (h : Guarded past c) (rc : Option Int) :
    Guarded (past ++ answered c (.removeAuthorizer rc)) (step c (.removeAuthorizer rc)).1 := by
  simp only [answered,step,Conn.install]
  split_ifs
  · cases rc with
    | some code => exact h.failed _ _
    | none =>
      refine ⟨fun action => ?_,fun s _ _ a _ => rfl⟩
      rw [inForce_snoc]
      simp [Conn.clear,allows,Denied]
  · exact h.failed _ _

theorem Guarded.prepare (h : Guarded past c) (actions : List AuthAction) :
    Guarded (past ++ answered c (.prepare actions)) (step c (.prepare actions)).1 := by
  simp only [answered,step]
  split_ifs with hopen hall
  · exact h.failed _ _
  · refine h.stays (inForce_snoc _ _ _) fun s hs hfresh => ?_
    obtain hs | hs := List.mem_append.mp hs
    · exact h.stmts s hs hfresh
    · rw [List.mem_singleton.mp hs]
      exact List.all_eq_true.mp hall
  · exact h.failed _ _

theorem Guarded.replaced (h : Guarded past c) {call : Call} {reply : Reply} {i : Nat} {s : Stmt}
    (hforce : inForce (past ++ [(call,reply)]) = inForce past)
    (hs : s.expired = false → ∀ a ∈ s.actions, allows c.slot a = true) :
    Guarded (past ++ [(call,reply)]) { c with stmts := c.stmts.set i s } := by
  refine h.stays hforce fun s' hs' => ?_
  obtain hs' | rfl := List.mem_or_eq_of_mem_set hs'
  · exact h.stmts s' hs'
  · exact hs

theorem Guarded.step (h : Guarded past c) (call : Call) :
    Guarded (past ++ answered c call) (step c call).1 := by
  cases call with
  | setAuthorizer deniedActions rc => exact h.setAuthorizer deniedActions rc
  | removeAuthorizer rc => exact h.removeAuthorizer rc
  | prepare actions => exact h.prepare actions
  | close => exact h.stays (inForce_snoc _ _ _) h.stmts
  | reset i =>
    simp only [answered,Authorizer.step]
    cases hi : c.stmts[i]? with
    | none => exact h.failed _ _
    | some s =>
      dsimp only
      split_ifs
      · exact h.failed _ _
      · exact h.replaced (inForce_snoc _ _ _) (h.stmts s (List.mem_of_getElem? hi))
  | step i asked more =>
    simp only [answered,Authorizer.step]
    cases hi : c.stmts[i]? with
    | none => exact h.failed _ _
    | some s =>
      have hold := h.stmts s (List.mem_of_getElem? hi)
      dsimp only
      split_ifs with hopen hgoes hall
      · exact h.failed _ _
      · exact h.replaced (inForce_snoc _ _ _) hold
      · exact h.replaced (inForce_snoc _ _ _) fun _ => List.all_eq_true.mp hall
      · exact h.failed _ _

theorem guarded (calls : List Call) : Guarded (record calls) (reached calls) :=
  history_inv step (P := fun _ _ => True) (fun _ _ call h _ => h.step call) guarded_opened
    (allSteps_of_forall step (fun _ _ => trivial) _ calls)

theorem Guarded.refuses_iff (h : Guarded past c) (actions : List AuthAction) :
    actions.all (allows c.slot) = false ↔ ∃ a ∈ actions, Denied (inForce past) a := by
  rw [List.all_eq_false]
  simp only [Bool.not_eq_true,h.slot]

theorem Guarded.denied_prepare (h : Guarded past c) (actions : List AuthAction) :
    (Authorizer.step c (.prepare actions)).2 = .failed .authorizationDenied ↔
      c.isOpen = true ∧ ∃ a ∈ actions, Denied (inForce past) a := by
  rw [← h.refuses_iff]
  cases hopen : c.isOpen <;> cases hall : actions.all (allows c.slot) <;>
    simp [Authorizer.step,hopen,hall]

theorem step_ready {i : Nat} {s : Stmt} (hi : c.stmts[i]? = some s) (hready : s.running = false)
    (hopen : c.isOpen = true) (asked : List AuthAction) (more : Bool) :
    Authorizer.step c (.step i asked more) =
      if s.expired then
        if asked.all (allows c.slot) then c.advance i ⟨asked,false,false⟩ more
        else (c,.failed .authorizationDenied)
      else c.advance i s more := by
  cases hexpired : s.expired <;> simp [Authorizer.step,hi,hopen,hready,hexpired]

theorem step_closed {i : Nat} {s : Stmt} (hi : c.stmts[i]? = some s) (hopen : c.isOpen = false)
    (asked : List AuthAction) (more : Bool) :
    Authorizer.step c (.step i asked more) = (c,.failed .connectionClosed) := by
  simp [Authorizer.step,hi,hopen]

theorem advance_reply (c : Conn) (i : Nat) (s : Stmt) (more : Bool) (e : Failure) :
    (c.advance i s more).2 ≠ .failed e := by
  cases more <;> exact nofun

theorem advance_stmt {i : Nat} {s s' t : Stmt} {more : Bool} (hi : c.stmts[i]? = some t)
    (hi' : (c.advance i s more).1.stmts[i]? = some s') : s'.actions = s.actions := by
  have hlt := (List.getElem?_eq_some_iff.mp hi).1
  have hset : (c.advance i s more).1.stmts[i]? = some { s with running := more } :=
    List.getElem?_set_self hlt
  rw [hset] at hi'
  cases hi'
  rfl

theorem Guarded.denied_step (h : Guarded past c) {i : Nat} {s : Stmt}
    (hi : c.stmts[i]? = some s) (hready : s.running = false) (asked : List AuthAction)
    (more : Bool) :
    (Authorizer.step c (.step i asked more)).2 = .failed .authorizationDenied ↔
      c.isOpen = true ∧ s.expired = true ∧ ∃ a ∈ asked, Denied (inForce past) a := by
  rw [← h.refuses_iff]
  cases hopen : c.isOpen with
  | false => simp [step_closed hi hopen]
  | true =>
    rw [step_ready hi hready hopen]
    cases hexpired : s.expired <;> cases hall : asked.all (allows c.slot) <;>
      simp [advance_reply]

theorem Guarded.begins_allowed (h : Guarded past c) {i : Nat} {s s' : Stmt}
    (hi : c.stmts[i]? = some s) (hready : s.running = false) {asked : List AuthAction}
    {more : Bool} (hbegins : ∀ e, (Authorizer.step c (.step i asked more)).2 ≠ .failed e)
    (hi' : (Authorizer.step c (.step i asked more)).1.stmts[i]? = some s') :
    ∀ a ∈ s'.actions, ¬Denied (inForce past) a := by
  have hopen : c.isOpen = true := by
    cases hopen : c.isOpen with
    | true => rfl
    | false => exact absurd (by rw [step_closed hi hopen]) (hbegins .connectionClosed)
  have hallowed : ∀ a ∈ s'.actions, allows c.slot a = true := by
    rw [step_ready hi hready hopen] at hbegins hi'
    split_ifs at hbegins hi' with hexpired hall
    · rw [advance_stmt hi hi']
      exact List.all_eq_true.mp hall
    · exact absurd rfl (hbegins .authorizationDenied)
    · rw [advance_stmt hi hi']
      exact h.stmts s (List.mem_of_getElem? hi) (eq_false_of_ne_true hexpired)
  intro a ha hdenied
  have hrefused := (h.slot a).mpr hdenied
  rw [hallowed a ha] at hrefused
  cases hrefused

theorem parseDenied_error {before after : List String} {atom : String}
    (hbefore : ∀ a ∈ before, ∃ k, (a,k) ∈ table) (hatom : ∀ k, (atom,k) ∉ table) :
    parseDenied (before ++ atom :: after) = .error (.invalidAuthorizerAction atom) := by
  refine FirstError.collect_error (fun a ha => ?_) ?_
  · obtain ⟨k,hk⟩ := hbefore a ha
    exact ⟨k,fromAtom_ok_iff.mpr hk⟩
  · cases hfrom : fromAtom atom with
    | ok k => exact absurd (fromAtom_ok_iff.mp hfrom) (hatom k)
    | error e => rw [fromAtom_error hfrom]

/-- In every run of a connection, what is denied is what the last list that was taken names:
a statement is refused when it is compiled exactly for an action of such a kind, and nothing
starts, not even a statement compiled earlier, whose program has one. Every action has an
atom that denies it; a list with an atom that names no kind is refused for the first such
atom and changes nothing. -/
theorem denied_action_never_starts (calls : List Call) :
    (∀ action, ∃ atom, Denied [atom] action) ∧
    (∀ actions, (step (reached calls) (.prepare actions)).2 = .failed .authorizationDenied ↔
      (reached calls).isOpen = true ∧ ∃ a ∈ actions, Denied (inForce (record calls)) a) ∧
    (∀ i asked more s, (reached calls).stmts[i]? = some s → s.running = false →
      ((step (reached calls) (.step i asked more)).2 = .failed .authorizationDenied ↔
        (reached calls).isOpen = true ∧ s.expired = true ∧
          ∃ a ∈ asked, Denied (inForce (record calls)) a) ∧
      ((∀ e, (step (reached calls) (.step i asked more)).2 ≠ .failed e) →
        ∀ s', (step (reached calls) (.step i asked more)).1.stmts[i]? = some s' →
          ∀ a ∈ s'.actions, ¬Denied (inForce (record calls)) a)) ∧
    ∀ before atom after rc, (∀ a ∈ before, ∃ k, (a,k) ∈ table) → (∀ k, (atom,k) ∉ table) →
      step (reached calls) (.setAuthorizer (before ++ atom :: after) rc) =
        (reached calls,.failed (.invalidAuthorizerAction atom)) := by
  have h := guarded calls
  refine ⟨fun action => ?_,h.denied_prepare,fun i asked more s hi hready => ?_,?_⟩
  · obtain ⟨atom,hatom⟩ := table_kinds (.of action)
    exact ⟨atom,atom,List.mem_singleton_self atom,hatom⟩
  · exact ⟨h.denied_step hi hready asked more,fun hbegins s' => h.begins_allowed hi hready hbegins⟩
  · intro before atom after rc hbefore hatom
    simp only [step,parseDenied_error hbefore hatom]

def tightened : List Call := [.prepare [.select],.setAuthorizer ["delete","select"] none]

/-- The statement was compiled before the list that denies it was set. -/
theorem denied_action_select :
    (step (reached tightened) (.step 0 [.select] true)).2 = .failed .authorizationDenied := by
  have hdenied : Denied (inForce (record tightened)) .select := ⟨"select",by decide,by decide⟩
  have hstep := (denied_action_never_starts tightened).2.2.1 0 [.select] true _ rfl rfl
  exact hstep.1.mpr ⟨rfl,rfl,.select,List.mem_singleton_self _,hdenied⟩

end Force

end Xqlite.Authorizer

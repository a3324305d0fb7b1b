import Mathlib.Data.List.Forall2
import Xqlite.Lib.Runs
import Xqlite.Lib.Writes
import Xqlite.Params
set_option autoImplicit false

namespace Xqlite.Statement
open Runs

/-- The name of each parameter, if it has one, and the value it is bound to. -/
@[ext] structure Stmt where
  names : List (Option String)
  values : List Value
  bound : values.length = names.length
  count : names.length ≤ cIntMax

theorem Stmt.bound_apply (s : Stmt) (writes : List (Nat × Value)) :
    (Writes.apply writes s.values).length = s.names.length := by
  rw [Writes.length_apply,s.bound]

def Stmt.write (s : Stmt) (writes : List (Nat × Value)) : Stmt :=
  { s with values := Writes.apply writes s.values, bound := s.bound_apply writes }

/-- `sqlite3_bind_parameter_index`: parameters count from 1, and 0 is no parameter. -/
def Stmt.parameterIndex (s : Stmt) (name : String) : Int :=
  match s.names.idxOf? (some name) with
  | some i => i+1
  | none => 0

/-- What SQLite answers to a bind. One that is refused for its value has already released
the value that was there, which leaves NULL. -/
structure BindReply where
  code : Int
  errmsg : Option String
  released : Bool

def sqlite3Bind (r : BindReply) (bindIdx : Int) (value : Value) (s : Stmt) : Stmt :=
  if r.code = Ffi.sqliteOk then s.write [((bindIdx - 1).toNat,value)]
  else if r.released then s.write [((bindIdx - 1).toNat,.null)]
  else s

def fitsCInt : Value → Bool
  | .text bytes | .blob bytes => bytes.length ≤ cIntMax
  | _ => true

/-- `bind_value_to_raw_stmt` with what it does to the statement. -/
def bindValue (r : BindReply) (bindIdx : Int) (value : Value) (s : Stmt) :
    Stmt × Except XqliteError Unit :=
  (if fitsCInt value then sqlite3Bind r bindIdx value s else s,
    bindValueToRawStmt bindIdx value (r.code,r.errmsg))

/-- `replies` are by the position of the value in the list. -/
def bindPositional (replies : Nat → BindReply) (i : Nat) :
    List Value → Stmt → Stmt × Except XqliteError Unit
  | [], s => (s,.ok ())
  | value :: rest, s =>
    match bindValue (replies i) (i+1) value s with
    | (s,.ok ()) => bindPositional replies (i+1) rest s
    | (s,.error e) => (s,.error e)

def bindNamed (replies : Nat → BindReply) (i : Nat) :
    List (String × Value) → Stmt → Stmt × Except XqliteError Unit
  | [], s => (s,.ok ())
  | (name,value) :: rest, s =>
    if name.toList.contains '\x00' then (s,.error (.invalidParameterName name))
    else if s.parameterIndex name = 0 then (s,.error (.invalidParameterName name))
    else
      match bindValue (replies i) (s.parameterIndex name) value s with
      | (s,.ok ()) => bindNamed replies (i+1) rest s
      | (s,.error e) => (s,.error e)

def ofExcept : Stmt × Except XqliteError Unit → Stmt × Outcome XqliteError Unit
  | (s,.ok ()) => (s,.ok ())
  | (s,.error e) => (s,.error e)

/-- What `stmt_bind` does with a live statement. An improper list crashes the decoder. -/
def bindLive (replies : Nat → BindReply) (params : Term) (s : Stmt) :
    Stmt × Outcome XqliteError Unit :=
  match params.getType with
  | .list =>
    if params.isEmptyList then (s,.ok ())
    else if isKeyword params then
      match decodeExecKeywordParams params with
      | .ok named => ofExcept (bindNamed replies 0 named s)
      | .error e => (s,.error e)
      | .crash => (s,.crash)
    else
      match decodePlainListParams params with
      | .ok positional =>
        if positional.length ≠ s.names.length then
          (s,.error (.invalidParameterCount positional.length s.names.length))
        else ofExcept (bindPositional replies 0 positional s)
      | .error e => (s,.error e)
      | .crash => (s,.crash)
  | _ => (s,.error (.expectedList "Parameters term was not a list: " params))

@[ext] structure Handle where
  connOpen : Bool
  stmt : Option Stmt

def Handle.values (h : Handle) : Option (List Value) := h.stmt.map Stmt.values

def stmtBind (replies : Nat → BindReply) (params : Term) (h : Handle) :
    Handle × Outcome XqliteError Unit :=
  if !h.connOpen then (h,.error .connectionClosed)
  else
    match h.stmt with
    | none => (h,.error .statementFinalized)
    | some s =>
      ({ h with stmt := some (bindLive replies params s).1 },(bindLive replies params s).2)

/-- One bind of a list: the parameter it is for, or why there is none, the value, and the
answer it would get. -/
structure Attempt where
  target : Except XqliteError Nat
  value : Value
  reply : BindReply

def Attempt.accepted (a : Attempt) : Bool :=
  a.target.isOk && fitsCInt a.value && a.reply.code == Ffi.sqliteOk

def Attempt.writes (a : Attempt) : List (Nat × Value) :=
  match a.target with
  | .ok i => [(i,a.value)]
  | .error _ => []

def Attempt.releases (a : Attempt) : List (Nat × Value) :=
  match a.target with
  | .ok i => if fitsCInt a.value && a.reply.released then [(i,.null)] else []
  | .error _ => []

def Stmt.target (s : Stmt) (name : String) : Except XqliteError Nat :=
  if name.toList.contains '\x00' then .error (.invalidParameterName name)
  else
    match s.names.idxOf? (some name) with
    | some i => .ok i
    | none => .error (.invalidParameterName name)

def namedAttempts (replies : Nat → BindReply) (s : Stmt) (i : Nat) :
    List (String × Value) → List Attempt
  | [] => []
  | (name,value) :: rest => ⟨s.target name,value,replies i⟩ :: namedAttempts replies s (i+1) rest

def positionalAttempts (replies : Nat → BindReply) (i : Nat) : List Value → List Attempt
  | [] => []
  | value :: rest => ⟨.ok i,value,replies i⟩ :: positionalAttempts replies (i+1) rest

/-- The binds a list of parameters stands for; none if the list is refused as a whole. -/
def attempts (replies : Nat → BindReply) (params : Term) (s : Stmt) : List Attempt :=
  if params.isEmptyList then []
  else if isKeyword params then
    match decodeExecKeywordParams params with
    | .ok named => namedAttempts replies s 0 named
    | _ => []
  else
    match decodePlainListParams params with
    | .ok positional =>
      if positional.length ≠ s.names.length then [] else positionalAttempts replies 0 positional
    | _ => []

/-- What happened up to the first refusal changes nothing: whatever was last written to a
parameter is what it held. -/
def KeepsOnRefusal (as : List Attempt) (values : List Value) : Prop :=
  ∀ before a after, as = before ++ a :: after → before.all Attempt.accepted = true →
    a.accepted = false → ∀ i v, i < values.length →
      Writes.last i (before.flatMap Attempt.writes ++ a.releases) = some v → values[i]? = some v

def bindAll : List Attempt → Stmt → Stmt × Except XqliteError Unit
  | [], s => (s,.ok ())
  | a :: rest, s =>
    match a.target with
    | .error e => (s,.error e)
    | .ok i =>
      match bindValue a.reply (i+1) a.value s with
      | (s,.ok ()) => bindAll rest s
      | (s,.error e) => (s,.error e)

section Loops
variable {replies : Nat → BindReply} {s : Stmt}

@[simp] theorem Stmt.write_nil (s : Stmt) : s.write [] = s := rfl

@[simp] theorem Stmt.write_names (s : Stmt) (writes : List (Nat × Value)) :
    (s.write writes).names = s.names := rfl

theorem Stmt.write_write (s : Stmt) (writes more : List (Nat × Value)) :
    (s.write writes).write more = s.write (writes ++ more) := by
  refine Stmt.ext rfl ?_
  exact (Writes.apply_append writes more s.values).symm

theorem parameterIndex_congr {s s' : Stmt} (h : s'.names = s.names) (name : String) :
    s'.parameterIndex name = s.parameterIndex name := by
  simp only [Stmt.parameterIndex,h]

theorem bindValue_names (r : BindReply) (bindIdx : Int) (value : Value) (s : Stmt) :
    (bindValue r bindIdx value s).1.names = s.names := by
  unfold bindValue sqlite3Bind
  by_cases hfits : fitsCInt value = true
  · by_cases hok : r.code = Ffi.sqliteOk
    · simp [hfits,hok]
    · cases hr : r.released <;> simp [hfits,hok]
  · simp [hfits]

theorem bindValueToRawStmt_ok {bindIdx : Int} {value : Value} {answer : Int × Option String}
    (hfits : fitsCInt value = true) (hok : answer.1 = Ffi.sqliteOk) :
    bindValueToRawStmt bindIdx value answer = .ok () := by
  cases value <;> simp_all [bindValueToRawStmt,fitsCInt]

theorem bindValueToRawStmt_error (bindIdx : Int) {value : Value} {answer : Int × Option String}
    (h : ¬ (fitsCInt value = true ∧ answer.1 = Ffi.sqliteOk)) :
    ∃ e, bindValueToRawStmt bindIdx value answer = .error e := by
  cases value with
  | text bytes =>
    by_cases hlen : bytes.length ≤ cIntMax
    · have hcode : answer.1 ≠ Ffi.sqliteOk := fun hok => h ⟨by simp [fitsCInt,hlen],hok⟩
      simp [bindValueToRawStmt,hlen,hcode]
    · simp [bindValueToRawStmt,hlen]
  | blob bytes =>
    by_cases hlen : bytes.length ≤ cIntMax
    · have hcode : answer.1 ≠ Ffi.sqliteOk := fun hok => h ⟨by simp [fitsCInt,hlen],hok⟩
      simp [bindValueToRawStmt,hlen,hcode]
    · simp [bindValueToRawStmt,hlen]
  | null =>
    have hcode : answer.1 ≠ Ffi.sqliteOk := fun hok => h ⟨rfl,hok⟩
    simp [bindValueToRawStmt,hcode]
  | integer n =>
    have hcode : answer.1 ≠ Ffi.sqliteOk := fun hok => h ⟨rfl,hok⟩
    simp [bindValueToRawStmt,hcode]
  | real bits =>
    have hcode : answer.1 ≠ Ffi.sqliteOk := fun hok => h ⟨rfl,hok⟩
    simp [bindValueToRawStmt,hcode]

theorem bindAll_accepted {a : Attempt} (h : a.accepted = true) (rest : List Attempt) (s : Stmt) :
    bindAll (a :: rest) s = bindAll rest (s.write a.writes) := by
  obtain ⟨target,value,reply⟩ := a
  simp only [Attempt.accepted,Bool.and_eq_true,beq_iff_eq] at h
  obtain ⟨⟨htarget,hfits⟩,hok⟩ := h
  cases target with
  | error e => cases htarget
  | ok i =>
    have hbind : bindValue reply (i+1) value s = (s.write [(i,value)],.ok ()) := by
      rw [bindValue,if_pos hfits,sqlite3Bind,if_pos hok,bindValueToRawStmt_ok hfits hok]
      simp
    simp only [bindAll,hbind,Attempt.writes]

theorem bindAll_refused {a : Attempt} (h : a.accepted = false) (rest : List Attempt) (s : Stmt) :
    ∃ e, bindAll (a :: rest) s = (s.write a.releases,.error e) := by
  obtain ⟨target,value,reply⟩ := a
  cases target with
  | error e => exact ⟨e,rfl⟩
  | ok i =>
    have hnot : ¬ (fitsCInt value = true ∧ reply.code = Ffi.sqliteOk) := by
      rintro ⟨hfits,hok⟩
      simp [Attempt.accepted,hfits,hok,Except.isOk,Except.toBool] at h
    obtain ⟨e,he⟩ : ∃ e, bindValueToRawStmt (i+1) value (reply.code,reply.errmsg) = .error e :=
      bindValueToRawStmt_error (i+1) hnot
    refine ⟨e,?_⟩
    have hbind : bindValue reply (i+1) value s =
        (s.write (Attempt.releases ⟨.ok i,value,reply⟩),.error e) := by
      rw [bindValue,he]
      by_cases hfits : fitsCInt value = true
      · have hok : reply.code ≠ Ffi.sqliteOk := fun hok => hnot ⟨hfits,hok⟩
        rw [if_pos hfits,sqlite3Bind,if_neg hok]
        cases hr : reply.released <;> simp [Attempt.releases,hfits,hr]
      · simp [Attempt.releases,hfits]
    simp only [bindAll,hbind]

theorem bindAll_append {before : List Attempt} (h : before.all Attempt.accepted = true)
    (rest : List Attempt) (s : Stmt) :
    bindAll (before ++ rest) s = bindAll rest (s.write (before.flatMap Attempt.writes)) := by
  induction before generalizing s with
  | nil => rfl
  | cons a before ih =>
    simp only [List.all_cons,Bool.and_eq_true] at h
    rw [List.cons_append,bindAll_accepted h.1,ih h.2,Stmt.write_write,List.flatMap_cons]

theorem first_refused {as : List Attempt} (h : as.all Attempt.accepted = false) :
    ∃ before a after, as = before ++ a :: after ∧ before.all Attempt.accepted = true ∧
      a.accepted = false := by
  induction as with
  | nil => cases h
  | cons a rest ih =>
    cases ha : a.accepted with
    | false => exact ⟨[],a,rest,rfl,rfl,ha⟩
    | true =>
      rw [List.all_cons,ha,Bool.true_and] at h
      obtain ⟨before,x,after,hsplit,hall,hx⟩ := ih h
      exact ⟨a :: before,x,after,by rw [hsplit]; rfl,by rw [List.all_cons,ha,hall]; rfl,hx⟩

/-- The loop stops at the first attempt that is refused, and keeps what it has written. -/
theorem bindAll_keeps_iff (as : List Attempt) (s : Stmt) :
    (∀ e, (bindAll as s).2 = .error e → (bindAll as s).1.values = s.values) ↔
      KeepsOnRefusal as s.values := by
  constructor
  · intro hkeeps before a after hsplit hall ha
    obtain ⟨e,he⟩ := bindAll_refused ha after (s.write (before.flatMap Attempt.writes))
    rw [Stmt.write_write] at he
    rw [hsplit,bindAll_append hall,he] at hkeeps
    exact Writes.apply_eq_self_iff.mp (hkeeps e rfl)
  · intro hkeeps e he
    cases hall : as.all Attempt.accepted with
    | true =>
      have hrun := bindAll_append hall [] s
      rw [List.append_nil] at hrun
      rw [hrun] at he
      cases he
    | false =>
      obtain ⟨before,a,after,hsplit,hbefore,ha⟩ := first_refused hall
      obtain ⟨e,he⟩ := bindAll_refused ha after (s.write (before.flatMap Attempt.writes))
      rw [hsplit,bindAll_append hbefore,he,Stmt.write_write]
      exact Writes.apply_eq_self_iff.mpr (hkeeps before a after hsplit hbefore ha)

theorem target_eq (s : Stmt) (name : String) :
    (name.toList.contains '\x00' = true ∨ s.parameterIndex name = 0) ∧
        s.target name = .error (.invalidParameterName name) ∨
      ∃ i : Nat, name.toList.contains '\x00' = false ∧ s.parameterIndex name = i+1 ∧
        s.target name = .ok i := by
  cases hnul : name.toList.contains '\x00' with
  | true => exact .inl ⟨.inl rfl,by rw [Stmt.target,if_pos hnul]⟩
  | false =>
    have hlookup : s.target name =
        match s.names.idxOf? (some name) with
        | some i => .ok i
        | none => .error (.invalidParameterName name) := by
      rw [Stmt.target,hnul,if_neg Bool.false_ne_true]
    cases hi : s.names.idxOf? (some name) with
    | none => exact .inl ⟨.inr (by simp [Stmt.parameterIndex,hi]),by rw [hlookup,hi]⟩
    | some i => exact .inr ⟨i,rfl,by simp [Stmt.parameterIndex,hi],by rw [hlookup,hi]⟩

theorem bindNamed_eq (i : Nat) (params : List (String × Value)) {s s' : Stmt}
    (hnames : s'.names = s.names) :
    bindNamed replies i params s' = bindAll (namedAttempts replies s i params) s' := by
  induction params generalizing i s' with
  | nil => rfl
  | cons p params ih =>
    obtain ⟨name,value⟩ := p
    have hindex := parameterIndex_congr hnames name
    rcases target_eq s name with ⟨hbad,htarget⟩ | ⟨j,hnul,hj,htarget⟩
    · simp only [bindNamed,namedAttempts,bindAll,htarget,hindex]
      rcases hbad with hbad | hbad
      · rw [if_pos hbad]
      · rw [if_pos hbad,ite_self]
    · have hne : ¬ ((j : Int)+1 = 0) := by omega
      simp only [bindNamed,namedAttempts,bindAll,htarget,hindex,hnul,hj,hne,if_false,
        Bool.false_eq_true]
      have hkept := bindValue_names (replies i) (j+1) value s'
      cases hbind : bindValue (replies i) (j+1) value s' with
      | mk s₁ out =>
        rw [hbind] at hkept
        cases out with
        | error e => rfl
        | ok u => exact ih (i+1) (hkept.trans hnames)

theorem bindPositional_eq (i : Nat) (params : List Value) (s : Stmt) :
    bindPositional replies i params s = bindAll (positionalAttempts replies i params) s := by
  induction params generalizing i s with
  | nil => rfl
  | cons value params ih =>
    simp only [bindPositional,positionalAttempts,bindAll]
    cases hbind : bindValue (replies i) (i+1) value s with
    | mk s₁ out =>
      cases out with
      | error e => rfl
      | ok u => exact ih (i+1) s₁

end Loops

theorem bindLive_cases (replies : Nat → BindReply) (params : Term) (s : Stmt) :
    attempts replies params s = [] ∧ (bindLive replies params s).1 = s ∨
      bindLive replies params s = ofExcept (bindAll (attempts replies params s) s) := by
  by_cases htype : params.getType = .list
  · simp only [bindLive,attempts,htype]
    by_cases hempty : params.isEmptyList = true
    · simp [hempty]
    · simp only [hempty,Bool.false_eq_true,if_false]
      cases hk : isKeyword params with
      | true =>
        cases hd : decodeExecKeywordParams params with
        | ok named => exact .inr (congrArg ofExcept (bindNamed_eq 0 named rfl))
        | error e => exact .inl ⟨rfl,rfl⟩
        | crash => exact .inl ⟨rfl,rfl⟩
      | false =>
        cases hd : decodePlainListParams params with
        | ok positional =>
          by_cases hlen : positional.length ≠ s.names.length
          · exact .inl (by simp [hlen])
          · exact .inr (by simp only [hlen,if_false,Bool.false_eq_true,bindPositional_eq])
        | error e => exact .inl ⟨rfl,rfl⟩
        | crash => exact .inl ⟨rfl,rfl⟩
  · have hitems : params.listItems = none := by
      cases params <;> simp_all [Term.getType,Term.listItems]
    have hnone : attempts replies params s = [] := by
      simp [attempts,isKeyword,decodePlainListParams,hitems]
    refine .inl ⟨hnone,?_⟩
    unfold bindLive
    split
    · rename_i hlist
      exact absurd hlist htype
    · rfl

/-- A call that fails leaves every parameter as it was exactly when nothing was written up
to the first parameter that is refused but what was there already. -/
theorem stmt_bind_error_keeps_iff (replies : Nat → BindReply) (params : Term) (h : Handle) :
    (∀ e, (stmtBind replies params h).2 = .error e →
        (stmtBind replies params h).1.values = h.values) ↔
      (h.connOpen = true → ∀ s, h.stmt = some s →
        KeepsOnRefusal (attempts replies params s) s.values) := by
  obtain ⟨connOpen,stmt⟩ := h
  cases connOpen with
  | false => simp [stmtBind]
  | true =>
    cases stmt with
    | none => simp [stmtBind]
    | some s =>
      have hlive : (∀ e, (bindLive replies params s).2 = .error e →
          (bindLive replies params s).1.values = s.values) ↔
            KeepsOnRefusal (attempts replies params s) s.values := by
        rcases bindLive_cases replies params s with ⟨hnone,hsame⟩ | hrun
        · rw [hnone,hsame,← bindAll_keeps_iff]
          simp [bindAll]
        · rw [hrun,← bindAll_keeps_iff]
          cases hout : bindAll (attempts replies params s) s with
          | mk s' out => cases out <;> simp [ofExcept]
      simpa [stmtBind,Handle.values] using hlive

/-- The first name is known and bound, the second is not: the call fails with the first
parameter changed. -/
theorem stmt_bind_half_bound :
    let h : Handle := ⟨true,some ⟨[some ":a",some ":b"],[.integer 1,.integer 2],rfl,by decide⟩⟩
    let params : Term := .list [.tuple [.atom "a",.int 7],.tuple [.atom "zzz",.int 8]]
    let after := stmtBind (fun _ => ⟨Ffi.sqliteOk,none,false⟩) params h
    after.2 = .error (.invalidParameterName ":zzz") ∧
      h.values = some [.integer 1,.integer 2] ∧ after.1.values = some [.integer 7,.integer 2] :=
  ⟨rfl,rfl,rfl⟩

section Positional
variable {replies : Nat → BindReply}

theorem bindAll_names (as : List Attempt) (s : Stmt) : (bindAll as s).1.names = s.names := by
  cases hall : as.all Attempt.accepted with
  | true =>
    have hrun := bindAll_append hall [] s
    rw [List.append_nil] at hrun
    rw [hrun]
    rfl
  | false =>
    obtain ⟨before,a,after,hsplit,hbefore,ha⟩ := first_refused hall
    obtain ⟨e,he⟩ := bindAll_refused ha after (s.write (before.flatMap Attempt.writes))
    rw [hsplit,bindAll_append hbefore,he]
    rfl

theorem bindLive_names (params : Term) (s : Stmt) :
    (bindLive replies params s).1.names = s.names := by
  rcases bindLive_cases replies params s with ⟨-,hsame⟩ | hrun
  · rw [hsame]
  · have hnames := bindAll_names (attempts replies params s) s
    rw [hrun]
    cases hout : bindAll (attempts replies params s) s with
    | mk s' out =>
      rw [hout] at hnames
      cases out <;> exact hnames

def Handle.Serves (h : Handle) (names : List (Option String)) : Prop :=
  h.connOpen = true ∧ ∃ s, h.stmt = some s ∧ s.names = names

theorem Handle.Serves.stmtBind {h : Handle} {names : List (Option String)} (hs : h.Serves names)
    (replies : Nat → BindReply) (params : Term) : (stmtBind replies params h).1.Serves names := by
  obtain ⟨connOpen,stmt⟩ := h
  obtain ⟨hopen,s,hstmt,hnames⟩ := hs
  cases hopen
  cases hstmt
  exact ⟨rfl,_,rfl,(bindLive_names params s).trans hnames⟩

theorem decodeItems_ok {α : Type} {decode : Term → Except XqliteError α} {terms : List Term}
    {values : List α} (h : List.Forall₂ (fun t v => decode t = .ok v) terms values) :
    decodeItems decode true terms = .ok values := by
  induction h with
  | nil => rfl
  | cons ht _ ih => simp only [decodeItems,ht,ih]

theorem isKeyword_of_convertible {t : Term} {v : Value} (h : elixirTermToRusqliteValue t = .ok v)
    (rest : List Term) : isKeyword (.list (t :: rest)) = false := by
  cases t with
  | tuple items => cases h
  | _ => rfl

theorem positional_accepted (hok : ∀ i, (replies i).code = Ffi.sqliteOk) {values : List Value}
    (hfits : ∀ v ∈ values, fitsCInt v = true) (i : Nat) :
    (positionalAttempts replies i values).all Attempt.accepted = true ∧
      (positionalAttempts replies i values).flatMap Attempt.writes = Writes.fill i values := by
  induction values generalizing i with
  | nil => exact ⟨rfl,rfl⟩
  | cons v values ih =>
    rw [List.forall_mem_cons] at hfits
    obtain ⟨hall,hwrites⟩ := ih hfits.2 (i+1)
    refine ⟨?_,?_⟩
    · rw [positionalAttempts,List.all_cons,hall,Bool.and_true]
      simp [Attempt.accepted,hfits.1,hok,Except.isOk,Except.toBool]
    · rw [positionalAttempts,List.flatMap_cons,hwrites]
      rfl

theorem bindPositional_all (hok : ∀ i, (replies i).code = Ffi.sqliteOk) {values : List Value}
    (hfits : ∀ v ∈ values, fitsCInt v = true) {s : Stmt} (hlen : values.length = s.names.length) :
    ∃ s', bindPositional replies 0 values s = (s',.ok ()) ∧ s'.values = values := by
  obtain ⟨hall,hwrites⟩ := positional_accepted hok hfits 0
  have hrun := bindAll_append hall [] s
  rw [List.append_nil,hwrites] at hrun
  refine ⟨s.write (Writes.fill 0 values),?_,?_⟩
  · rw [bindPositional_eq,hrun]
    rfl
  · have hcells : s.values.length = 0 + values.length := by rw [s.bound,hlen,Nat.zero_add]
    exact (Writes.apply_fill hcells).trans (by simp)

theorem bindLive_positional (replies : Nat → BindReply) {t : Term} {terms : List Term}
    {values : List Value}
    (hvalues : List.Forall₂ (fun t v => elixirTermToRusqliteValue t = .ok v) (t :: terms) values)
    (s : Stmt) :
    bindLive replies (.list (t :: terms)) s =
      if values.length ≠ s.names.length then
        (s,.error (.invalidParameterCount values.length s.names.length))
      else ofExcept (bindPositional replies 0 values s) := by
  have hplain : decodePlainListParams (.list (t :: terms)) = .ok values := decodeItems_ok hvalues
  have hkeyword : isKeyword (.list (t :: terms)) = false := by
    cases hvalues with
    | cons ht _ => exact isKeyword_of_convertible ht terms
  simp only [bindLive,Term.getType,Term.isEmptyList,hkeyword,hplain,Bool.false_eq_true,if_false]

/-- The count is checked for every list of values but the empty one, which binds nothing
and is accepted. -/
theorem stmt_bind_positional_iff (calls : List ((Nat → BindReply) × Term)) {h : Handle}
    {names : List (Option String)} (hs : h.Serves names) {terms : List Term} {values : List Value}
    (hvalues : List.Forall₂ (fun t v => elixirTermToRusqliteValue t = .ok v) terms values)
    (hfits : ∀ v ∈ values, fitsCInt v = true) (hok : ∀ i, (replies i).code = Ffi.sqliteOk) :
    let before := (run (fun h call => stmtBind call.1 call.2 h) h calls).1
    let after := stmtBind replies (.list terms) before
    ((terms.length ≠ names.length →
        after = (before,.error (.invalidParameterCount terms.length names.length))) ∧
      (terms.length = names.length → after.2 = .ok () ∧ after.1.values = some values)) ↔
      (terms = [] → names = []) := by
  intro before
  have hbefore : before.Serves names :=
    run_inv_total (I := fun h => h.Serves names) (fun h call => stmtBind call.1 call.2 h)
      (fun _ call hh => Handle.Serves.stmtBind hh call.1 call.2) calls hs
  clear_value before
  obtain ⟨connOpen,stmt⟩ := before
  obtain ⟨hopen,s,hstmt,rfl⟩ := hbefore
  cases hopen
  cases hstmt
  have hlen : terms.length = values.length := hvalues.length_eq
  cases terms with
  | nil =>
    obtain rfl := List.forall₂_nil_left_iff.mp hvalues
    constructor
    · rintro ⟨hcount,-⟩ -
      by_contra hne
      have hzero : (0 : Nat) ≠ s.names.length := fun heq => hne (List.length_eq_zero_iff.mp heq.symm)
      cases congrArg Prod.snd (hcount hzero)
    · intro hnames
      have hnone : s.names.length = 0 := by rw [hnames rfl]; rfl
      refine ⟨fun hne => absurd hnone.symm hne,fun _ => ⟨rfl,?_⟩⟩
      exact congrArg some (List.length_eq_zero_iff.mp (s.bound.trans hnone))
  | cons t terms =>
    refine ⟨fun _ hnil => absurd hnil (List.cons_ne_nil t terms),fun _ => ⟨?_,?_⟩⟩
    · intro hne
      have hrun := bindLive_positional replies hvalues s
      rw [if_pos (hlen ▸ hne),← hlen] at hrun
      simp only [stmtBind,hrun,Bool.not_true,Bool.false_eq_true,if_false]
    · intro heq
      obtain ⟨s',hbind,hbound⟩ := bindPositional_all hok hfits (s := s) (hlen ▸ heq)
      have hrun := bindLive_positional replies hvalues s
      rw [if_neg (not_not_intro (hlen ▸ heq)),hbind] at hrun
      simp only [stmtBind,hrun,Bool.not_true,Bool.false_eq_true,if_false]
      exact ⟨rfl,congrArg some hbound⟩

/-- A second bind replaces both values of the first. -/
theorem stmt_bind_positional_rebound :
    let ok : Nat → BindReply := fun _ => ⟨Ffi.sqliteOk,none,false⟩
    let h : Handle := ⟨true,some ⟨[none,none],[.null,.null],rfl,by decide⟩⟩
    let before := (run (fun h call => stmtBind call.1 call.2 h) h
      [(ok,.list [.int 1,.int 2])]).1
    let after := stmtBind ok (.list [.int 3,.atom "nil"]) before
    before.values = some [.integer 1,.integer 2] ∧
      after.2 = .ok () ∧ after.1.values = some [.integer 3,.null] := by
  intro ok h before after
  have hs : h.Serves [none,none] := ⟨rfl,_,rfl,rfl⟩
  have hvalues : List.Forall₂ (fun t v => elixirTermToRusqliteValue t = .ok v)
      [.int 3,.atom "nil"] [.integer 3,.null] := .cons rfl (.cons rfl .nil)
  have hfits : ∀ v ∈ [Value.integer 3,.null], fitsCInt v = true := by decide
  refine ⟨rfl,?_⟩
  exact ((stmt_bind_positional_iff [(ok,.list [.int 1,.int 2])] hs hvalues hfits
    (fun _ => rfl)).mpr (fun hnil => absurd hnil (List.cons_ne_nil _ _))).2 rfl

/-- The empty list is accepted by a statement with a parameter, which keeps the value of the
bind before. -/
theorem stmt_bind_empty_keeps_stale :
    let ok : Nat → BindReply := fun _ => ⟨Ffi.sqliteOk,none,false⟩
    let h : Handle := ⟨true,some ⟨[none],[.null],rfl,by decide⟩⟩
    let before := (stmtBind ok (.list [.int 5]) h).1
    let after := stmtBind ok (.list []) before
    after.2 = .ok () ∧ after.1.values = some [.integer 5] :=
  ⟨rfl,rfl⟩

end Positional

end Xqlite.Statement

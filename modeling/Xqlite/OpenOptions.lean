import Xqlite.PragmaAgree
set_option autoImplicit false

/-! `Xqlite.open`: the options are validated on the Elixir side, sent as pragmas through
the native `set_pragma`, and read by SQLite. Each of the three has a range of its own. -/

namespace Xqlite.Open
open SqlText Pragma

inductive OpenKey where
  | journalMode | busyTimeout | foreignKeys | synchronous | cacheSize | tempStore
  | walAutocheckpoint | mmapSize | autoVacuum
  deriving DecidableEq, Repr

def OpenKey.name : OpenKey → String
  | .journalMode => "journal_mode"
  | .busyTimeout => "busy_timeout"
  | .foreignKeys => "foreign_keys"
  | .synchronous => "synchronous"
  | .cacheSize => "cache_size"
  | .tempStore => "temp_store"
  | .walAutocheckpoint => "wal_autocheckpoint"
  | .mmapSize => "mmap_size"
  | .autoVacuum => "auto_vacuum"

/-- The types of `NimbleOptions` in use. -/
inductive OptionType where
  | oneOf (atoms : List String)
  | timeout
  | boolean
  | integer
  | nonNegInteger

def OpenKey.type : OpenKey → OptionType
  | .journalMode => .oneOf ["wal","delete","truncate","memory","off"]
  | .busyTimeout => .timeout
  | .foreignKeys => .boolean
  | .synchronous => .oneOf ["off","normal","full","extra"]
  | .cacheSize => .integer
  | .tempStore => .oneOf ["default","file","memory"]
  | .walAutocheckpoint => .nonNegInteger
  | .mmapSize => .nonNegInteger
  | .autoVacuum => .oneOf ["none","full","incremental"]

def OpenKey.default : OpenKey → Term
  | .journalMode => .atom "wal"
  | .busyTimeout => .int 5000
  | .foreignKeys => .atom "true"
  | .synchronous => .atom "normal"
  | .cacheSize => .int (-64000)
  | .tempStore => .atom "memory"
  | .walAutocheckpoint => .int 1000
  | .mmapSize => .int 0
  | .autoVacuum => .atom "none"

structure OptionSpec where
  type : OptionType
  default : Term

def openOptsSchema : List (String × OptionSpec) :=
  [OpenKey.journalMode,.busyTimeout,.foreignKeys,.synchronous,.cacheSize,.tempStore,
    .walAutocheckpoint,.mmapSize,.autoVacuum].map fun key => (key.name,⟨key.type,key.default⟩)

def allowedOpenOptKeys : List String := openOptsSchema.map Prod.fst

def pragmaOrder : List OpenKey :=
  [.busyTimeout,.journalMode,.autoVacuum,.foreignKeys,.synchronous,.cacheSize,.tempStore,
    .walAutocheckpoint,.mmapSize]

abbrev Opts := List (String × Term)

structure ValidationError where
  key : String
  value : Term
  message : String

/-- `raised` is the `KeyError` of `Keyword.fetch!`. -/
inductive OpenError where
  | unknownKey (key : String) (allowed : List String)
  | invalidValue (key : String) (value : Term) (message : String)
  | raised (key : String)
  | nif (e : XqliteError)

/-- `NimbleOptions.validate/2`, which is not part of this code. -/
abbrev Validate := Opts → List (String × OptionSpec) → Except ValidationError Opts

def requested (opts : Opts) (key : OpenKey) : Term := (opts.lookup key.name).getD key.default

/-- Options that pass hold a value for each key of the schema: of those given the first, and
the default of a key that was not given. -/
def Fills (validate : Validate) : Prop :=
  ∀ opts validated, validate opts openOptsSchema = .ok validated →
    ∀ key : OpenKey, validated.lookup key.name = some (requested opts key)

def validateOpenOpts (validate : Validate) (opts : Opts) : Except OpenError Opts :=
  match opts.find? fun o => !allowedOpenOptKeys.contains o.1 with
  | some (key,_) => .error (.unknownKey key allowedOpenOptKeys)
  | none =>
    match validate opts openOptsSchema with
    | .ok validated => .ok validated
    | .error e => .error (.invalidValue e.key e.value e.message)

section Sqlite

structure Settings where
  busyTimeout : Int
  walAutocheckpoint : Int
  cacheSize : Int
  deriving DecidableEq, Repr

def sqlite3Atoi (text : Bytes) : Int :=
  if -2^31 ≤ integerOf text ∧ integerOf text < 2^31 then integerOf text else 0

def Settings.apply (s : Settings) (name : String) (text : Bytes) : Settings :=
  if name = "busy_timeout" then { s with busyTimeout := sqlite3Atoi text }
  else if name = "wal_autocheckpoint" then { s with walAutocheckpoint := sqlite3Atoi text }
  else if name = "cache_size" then { s with cacheSize := sqlite3Atoi text }
  else s

/-- `fails` is the error of the statement that sets the pragma, if there is one. -/
structure Env where
  opened : Except XqliteError Settings
  fails : String → Literal → Option XqliteError
  floatText : UInt64 → Bytes

end Sqlite

section Source
variable (validate : Validate) (E : Env)

def setPragma (name : String) (value : Term) (s : Settings) : Except XqliteError Settings :=
  match validateName name with
  | .error e => .error e
  | .ok () =>
    match formatTermForPragma value with
    | .error e => .error e
    | .ok literal =>
      match E.fails name literal with
      | some e => .error e
      | none => .ok (s.apply name (literal.text E.floatText))

/-- The value that the clauses of `set_pragma_value` send, each under the key's own name. -/
def sent : OpenKey → Term → Term
  | .busyTimeout, .atom "infinity" => .int 2147483647
  | .foreignKeys, .atom "true" => .atom "on"
  | .foreignKeys, .atom "false" => .atom "off"
  | .autoVacuum, .atom "none" => .int 0
  | .autoVacuum, .atom "full" => .int 1
  | .autoVacuum, .atom "incremental" => .int 2
  | .tempStore, .atom "default" => .int 0
  | .tempStore, .atom "file" => .int 1
  | .tempStore, .atom "memory" => .int 2
  | _, value => value

def setPragmaValue (key : OpenKey) (value : Term) (s : Settings) : Except XqliteError Settings :=
  setPragma E key.name (sent key value) s

def applyPragmas (validated : Opts) : List OpenKey → Settings → Except OpenError Settings
  | [], s => .ok s
  | key :: keys, s =>
    match validated.lookup key.name with
    | none => .error (.raised key.name)
    | some value =>
      match setPragmaValue E key value s with
      | .ok s => applyPragmas validated keys s
      | .error e => .error (.nif e)

def openWith (opts : Opts) : Except OpenError Settings :=
  match validateOpenOpts validate opts with
  | .error e => .error e
  | .ok validated =>
    match E.opened with
    | .error e => .error (.nif e)
    | .ok s => applyPragmas E validated pragmaOrder s

end Source

inductive IntKey where
  | busyTimeout | walAutocheckpoint | cacheSize
  deriving DecidableEq, Repr

def IntKey.key : IntKey → OpenKey
  | .busyTimeout => .busyTimeout
  | .walAutocheckpoint => .walAutocheckpoint
  | .cacheSize => .cacheSize

def Settings.effective (s : Settings) : IntKey → Int
  | .busyTimeout => s.busyTimeout
  | .walAutocheckpoint => s.walAutocheckpoint
  | .cacheSize => s.cacheSize

section Effect
variable {validate : Validate} {E : Env} {k : IntKey} {s s' : Settings}

theorem apply_effective (key : OpenKey) (text : Bytes) :
    (s.apply key.name text).effective k =
      if key = k.key then sqlite3Atoi text else s.effective k := by
  cases k <;> cases key <;> rfl

theorem setPragma_ok {name : String} {value : Term} (h : setPragma E name value s = .ok s') :
    ∃ literal, formatTermForPragma value = .ok literal ∧
      s' = s.apply name (literal.text E.floatText) := by
  unfold setPragma at h
  split at h
  · cases h
  · split at h
    · cases h
    · split at h
      · cases h
      · cases h
        exact ⟨_,by assumption,rfl⟩

theorem applyPragmas_effective {validated : Opts} {keys : List OpenKey}
    (h : applyPragmas E validated keys s = .ok s') :
    (k.key ∉ keys → s'.effective k = s.effective k) ∧
    (k.key ∈ keys → ∃ value literal, validated.lookup k.key.name = some value ∧
      formatTermForPragma (sent k.key value) = .ok literal ∧
        s'.effective k = sqlite3Atoi (literal.text E.floatText)) := by
  induction keys generalizing s with
  | nil =>
    cases h
    exact ⟨fun _ => rfl,fun hmem => by cases hmem⟩
  | cons key keys ih =>
    unfold applyPragmas at h
    split at h
    · cases h
    · rename_i value hvalue
      split at h
      · rename_i mid hmid
        obtain ⟨literal,hformat,rfl⟩ := setPragma_ok hmid
        obtain ⟨hkeep,hset⟩ := ih h
        refine ⟨fun hnot => ?_,fun hmem => ?_⟩
        · rw [List.mem_cons,not_or] at hnot
          rw [hkeep hnot.2,apply_effective,if_neg (Ne.symm hnot.1)]
        · by_cases hlater : k.key ∈ keys
          · exact hset hlater
          · have hkey : k.key = key := (List.mem_cons.mp hmem).resolve_right hlater
            refine ⟨value,literal,hkey ▸ hvalue,hkey ▸ hformat,?_⟩
            rw [hkeep hlater,apply_effective,if_pos hkey.symm]
      · cases h

theorem sqlite3Atoi_integerToString (n : Int) :
    sqlite3Atoi (integerToString n) = if -2^31 ≤ n ∧ n < 2^31 then n else 0 := by
  rw [sqlite3Atoi,integerOf_integerToString]

theorem sent_int (key : OpenKey) (n : Int) : sent key (.int n) = .int n := by
  cases key <;> rfl

theorem formatTermForPragma_int {n : Int} {literal : Literal}
    (h : formatTermForPragma (.int n) = .ok literal) : literal = .integer n := by
  simp only [formatTermForPragma,Term.decodeI64] at h
  split at h
  · rename_i i hi
    split_ifs at hi with hrange
    cases hi
    cases h
    rfl
  · cases h

theorem validateOpenOpts_ok (hV : Fills validate) {opts validated : Opts}
    (h : validateOpenOpts validate opts = .ok validated) (key : OpenKey) :
    validated.lookup key.name = some (requested opts key) := by
  unfold validateOpenOpts at h
  split at h
  · cases h
  · split at h
    · rename_i hvalid
      cases h
      exact hV _ _ hvalid key
    · cases h

theorem openWith_ok {opts : Opts} (h : openWith validate E opts = .ok s) :
    ∃ validated s₀, validateOpenOpts validate opts = .ok validated ∧ E.opened = .ok s₀ ∧
      applyPragmas E validated pragmaOrder s₀ = .ok s := by
  unfold openWith at h
  split at h
  · cases h
  · rename_i validated hvalid
    split at h
    · cases h
    · rename_i s₀ hopened
      exact ⟨validated,s₀,hvalid,hopened,h⟩

theorem key_mem_pragmaOrder (k : IntKey) : k.key ∈ pragmaOrder := by
  cases k <;> decide

theorem openWith_effective (hV : Fills validate) {opts : Opts}
    (h : openWith validate E opts = .ok s) :
    ∃ literal, formatTermForPragma (sent k.key (requested opts k.key)) = .ok literal ∧
      s.effective k = sqlite3Atoi (literal.text E.floatText) := by
  obtain ⟨validated,s₀,hvalid,-,hrun⟩ := openWith_ok h
  obtain ⟨value,literal,hvalue,hformat,heffective⟩ :=
    (applyPragmas_effective hrun).2 (key_mem_pragmaOrder k)
  rw [validateOpenOpts_ok hV hvalid] at hvalue
  cases hvalue
  exact ⟨literal,hformat,heffective⟩

theorem openWith_int (hV : Fills validate) {opts : Opts} {n : Int}
    (hreq : requested opts k.key = .int n) (h : openWith validate E opts = .ok s) :
    s.effective k = if -2^31 ≤ n ∧ n < 2^31 then n else 0 := by
  obtain ⟨literal,hformat,heff⟩ := openWith_effective (k := k) hV h
  rw [hreq,sent_int] at hformat
  obtain rfl := formatTermForPragma_int hformat
  rw [heff]
  exact sqlite3Atoi_integerToString n

end Effect

section Ranges

def fits32 (n : Int) : Bool := decide (-2^31 ≤ n ∧ n < 2^31)

def saturated (n : Int) : Int := max (-2^31) (min n (2^31 - 1))

/-- A timeout and a checkpoint threshold mean something else at zero. -/
def IntKey.zeroDisables : IntKey → Bool
  | .busyTimeout | .walAutocheckpoint => true
  | .cacheSize => false

structure Honours (k : IntKey) (n effective : Int) : Prop where
  saturates : effective = saturated n
  positive : k.zeroDisables = true → 0 < n → effective ≠ 0

theorem honours_iff {k : IntKey} {n effective : Int}
    (h : effective = if -2^31 ≤ n ∧ n < 2^31 then n else 0) :
    Honours k n effective ↔ fits32 n = true := by
  rw [fits32,decide_eq_true_eq]
  by_cases hfits : -2^31 ≤ n ∧ n < 2^31
  · rw [if_pos hfits] at h
    refine ⟨fun _ => hfits,fun _ => ⟨?_,fun _ hpos => ?_⟩⟩
    · rw [saturated]
      omega
    · omega
  · rw [if_neg hfits] at h
    refine ⟨fun hon => ?_,fun hin => absurd hin hfits⟩
    have hsat := hon.saturates
    rw [saturated] at hsat
    omega

theorem effective_mono {n m v w : Int} (hv : v = if -2^31 ≤ n ∧ n < 2^31 then n else 0)
    (hw : w = if -2^31 ≤ m ∧ m < 2^31 then m else 0) (hn : fits32 n = true)
    (hm : fits32 m = true) (hle : n ≤ m) : v ≤ w := by
  rw [fits32,decide_eq_true_eq] at hn hm
  rw [if_pos hn] at hv
  rw [if_pos hm] at hw
  omega

/-- Two requests of one option, accepted by whatever connections: both are honoured and
their order is kept exactly when both fit in 32 bits. -/
theorem open_honours_iff {validate : Validate} (hV : Fills validate) {E E' : Env}
    {opts opts' : Opts} {s s' : Settings} {k : IntKey} {n m : Int}
    (hn : requested opts k.key = .int n) (hm : requested opts' k.key = .int m)
    (h : openWith validate E opts = .ok s) (h' : openWith validate E' opts' = .ok s') :
    (Honours k n (s.effective k) ∧ Honours k m (s'.effective k) ∧
      (n ≤ m → s.effective k ≤ s'.effective k)) ↔ fits32 n = true ∧ fits32 m = true := by
  have hv := openWith_int hV hn h
  have hw := openWith_int hV hm h'
  rw [honours_iff hv,honours_iff hw]
  constructor
  · intro hall
    exact ⟨hall.1,hall.2.1⟩
  · intro hfit
    exact ⟨hfit.1,hfit.2,effective_mono hv hw hfit.1 hfit.2⟩

end Ranges

section Example

def OptionType.accepts : OptionType → Term → Bool
  | .oneOf atoms, .atom a => atoms.contains a
  | .timeout, .atom a => a == "infinity"
  | .timeout, .int n => decide (0 ≤ n)
  | .boolean, .atom a => a == "true" || a == "false"
  | .integer, .int _ => true
  | .nonNegInteger, .int n => decide (0 ≤ n)
  | _, _ => false

def checkTypes (opts : Opts) : List (String × OptionSpec) → Except ValidationError Opts
  | [] => .ok []
  | (key,spec) :: schema =>
    if spec.type.accepts ((opts.lookup key).getD spec.default) then
      (checkTypes opts schema).map ((key,(opts.lookup key).getD spec.default) :: ·)
    else .error ⟨key,(opts.lookup key).getD spec.default,"invalid value"⟩

theorem checkTypes_lookup {opts : Opts} (schema : List (String × OptionSpec)) {validated : Opts}
    (h : checkTypes opts schema = .ok validated) (key : String) :
    validated.lookup key =
      (schema.lookup key).map fun spec => (opts.lookup key).getD spec.default := by
  induction schema generalizing validated with
  | nil =>
    cases h
    rfl
  | cons entry schema ih =>
    obtain ⟨name,spec⟩ := entry
    unfold checkTypes at h
    split_ifs at h with haccepts
    cases hrest : checkTypes opts schema with
    | error e =>
      rw [hrest] at h
      cases h
    | ok rest =>
      rw [hrest] at h
      cases h
      by_cases hkey : key = name
      · subst hkey
        simp
      · have hne : (key == name) = false := beq_false_of_ne hkey
        rw [List.lookup_cons,List.lookup_cons,hne]
        exact ih hrest

theorem checkTypes_fills : Fills checkTypes := by
  intro opts validated h key
  have hkey : openOptsSchema.lookup key.name = some ⟨key.type,key.default⟩ := by
    cases key <;> rfl
  rw [checkTypes_lookup openOptsSchema h,hkey]
  rfl

def obliging : Env := ⟨.ok ⟨0,1000,-2000⟩,fun _ _ => none,fun _ => []⟩

theorem open_honours_default :
    openWith checkTypes obliging [] = .ok ⟨5000,1000,-64000⟩ ∧
      openWith checkTypes obliging [("busy_timeout",.int 2147483647)] =
        .ok ⟨2147483647,1000,-64000⟩ ∧
      (Honours .busyTimeout 5000 5000 ∧ Honours .busyTimeout 2147483647 2147483647 ∧
        ((5000 : Int) ≤ 2147483647 → (5000 : Int) ≤ 2147483647)) := by
  have h : openWith checkTypes obliging [] = .ok ⟨5000,1000,-64000⟩ := by rfl
  have h' : openWith checkTypes obliging [("busy_timeout",.int 2147483647)] =
      .ok ⟨2147483647,1000,-64000⟩ := by rfl
  exact ⟨h,h',(open_honours_iff checkTypes_fills (k := .busyTimeout) rfl rfl h h').mpr
    ⟨by decide,by decide⟩⟩

/-- One more millisecond and the connection does not wait at all. -/
theorem open_timeout_vanishes :
    openWith checkTypes obliging [("busy_timeout",.int 2147483648)] =
        .ok ⟨0,1000,-64000⟩ ∧
      openWith checkTypes obliging [("busy_timeout",.int 2147483647)] =
        .ok ⟨2147483647,1000,-64000⟩ ∧
      ¬ Honours .busyTimeout 2147483648 0 := by
  refine ⟨rfl,rfl,fun hon => ?_⟩
  exact hon.positive rfl (by decide) rfl

end Example

end Xqlite.Open

import Xqlite.Bridge
import Xqlite.BusyEvents
import Xqlite.Lib.SqlText
import Xqlite.Utf8
set_option autoImplicit false

namespace Xqlite.Forwarder
open Progress (asI64)
open SqlText (utf8)

section Messages

def latin1 (bytes : List UInt8) : String := String.ofList (bytes.map fun b => Char.ofNat b.toNat)

/-- `make_atom`. The runtime reads the name as Latin-1 and refuses more than 255 bytes. -/
def makeAtom (name : List UInt8) : Option Term :=
  if name.length ≤ 255 then some (.atom (latin1 name)) else none

inductive Action where
  | insert | update | delete | unknown
  deriving DecidableEq, Repr

def Action.name : Action → String
  | .insert => "insert"
  | .update => "update"
  | .delete => "delete"
  | .unknown => "unknown"

/-- What a hook has to tell. Texts are their bytes. -/
inductive Notice where
  | wal (dbName : List UInt8) (pages : Int)
  | commit
  | rollback
  | update (action : Action) (dbName table : List UInt8) (rowid : Int)
  | progress (tag : Option (List UInt8)) (count elapsedMs : Nat)
  | busy (retries elapsedMs : Nat)
  | log (errCode : Int) (msg : List UInt8)
  deriving DecidableEq, Repr

def sendTickToPid (tagBytes : Option (List UInt8)) (count elapsedMs : Nat) : Option Term :=
  match tagBytes with
  | some bytes =>
    (makeAtom bytes).map fun userTag =>
      .tuple [.atom "xqlite_progress",userTag,.int (asI64 count),.int (asI64 elapsedMs)]
  | none =>
    some (.tuple [.atom "xqlite_progress",.int (asI64 count),.int (asI64 elapsedMs)])

/-- The message of the hook's own `send_*_to_pid`; `none` where the tag makes no atom. -/
def Notice.message : Notice → Option Term
  | .wal dbName pages => some (.tuple [.atom "xqlite_wal",.binary dbName,.int pages])
  | .commit => some (.tuple [.atom "xqlite_commit"])
  | .rollback => some (.tuple [.atom "xqlite_rollback"])
  | .update action dbName table rowid =>
    some (.tuple [.atom "xqlite_update",.atom action.name,.binary dbName,.binary table,.int rowid])
  | .progress tag count elapsedMs => sendTickToPid tag count elapsedMs
  | .busy retries elapsedMs => some (BusyBox.busyMessage retries elapsedMs)
  | .log errCode msg => some (.tuple [.atom "xqlite_log",.int errCode,.binary msg])

end Messages

section Source

/-- The scope is a connection or `:log`. -/
structure State where
  scope : Option Term
  tag : Term

structure Event where
  name : List String
  measurements : List (String × Term)
  metadata : List (String × Term)

inductive Handled where
  | emits (event : Event)
  | ignores
  | raises

def scopeMetadata (state : State) : List (String × Term) :=
  match state.scope with
  | some conn => [("conn",conn),("tag",state.tag)]
  | none => [("tag",state.tag)]

variable (times : UInt64 → Option UInt64)

/-- `elapsed_ms * 1_000_000`; `times` is the product of a float, which may overflow. -/
def nanoseconds : Term → Option Term
  | .int n => some (.int (n*1000000))
  | .float bits => (times bits).map .float
  | _ => none

def baseCode : Term → Option Term
  | .int n => some (.int (n%256))
  | _ => none

/-- An event of a hook; it raises where one of the measurements does. -/
def emit (now : Int) (hook : String) (measurements : Option (List (String × Term)))
    (metadata : Option (List (String × Term))) : Handled :=
  match measurements,metadata with
  | some measurements,some metadata =>
    .emits ⟨["xqlite","hook",hook],("monotonic_time",.int now) :: measurements,metadata⟩
  | _,_ => .raises

def handleHookMessage (now : Int) (state : State) : Term → Handled
  | .tuple [.atom "xqlite_wal",dbName,pages] =>
    emit now "wal" (some [("pages",pages)]) (some (scopeMetadata state ++ [("db_name",dbName)]))
  | .tuple [.atom "xqlite_commit"] => emit now "commit" (some []) (some (scopeMetadata state))
  | .tuple [.atom "xqlite_rollback"] => emit now "rollback" (some []) (some (scopeMetadata state))
  | .tuple [.atom "xqlite_update",action,dbName,table,rowid] =>
    emit now "update" (some []) (some (scopeMetadata state ++
      [("action",action),("db_name",dbName),("table",table),("rowid",rowid)]))
  | .tuple [.atom "xqlite_progress",count,elapsedMs] =>
    emit now "progress"
      ((nanoseconds times elapsedMs).map fun elapsed => [("count",count),("elapsed",elapsed)])
      (some (scopeMetadata state ++ [("hook_tag",.atom "nil")]))
  | .tuple [.atom "xqlite_progress",hookTag,count,elapsedMs] =>
    emit now "progress"
      ((nanoseconds times elapsedMs).map fun elapsed => [("count",count),("elapsed",elapsed)])
      (some (scopeMetadata state ++ [("hook_tag",hookTag)]))
  | .tuple [.atom "xqlite_busy",retries,elapsedMs] =>
    emit now "busy"
      ((nanoseconds times elapsedMs).map fun elapsed => [("retries",retries),("elapsed",elapsed)])
      (some (scopeMetadata state))
  | .tuple [.atom "xqlite_log",code,message] =>
    emit now "log" (some []) ((baseCode code).map fun base =>
      scopeMetadata state ++ [("code",code),("base_code",base),("message",message)])
  | _ => .ignores

/-- The process takes its messages one by one, each with a reading of the clock; what it
emits, and whether it still runs. -/
def serve (state : State) : List (Int × Term) → List Event × Bool
  | [] => ([],true)
  | (now,message) :: rest =>
    match handleHookMessage times now state message with
    | .emits event => (event :: (serve state rest).1,(serve state rest).2)
    | .ignores => serve state rest
    | .raises => ([],false)

end Source

section Forwarding
variable {times : UInt64 → Option UInt64} {state : State}

def hookTags : List String :=
  ["xqlite_wal","xqlite_commit","xqlite_rollback","xqlite_update","xqlite_progress","xqlite_busy",
    "xqlite_log"]

def Stray (message : Term) : Prop :=
  ∀ tag rest, message = .tuple (.atom tag :: rest) → tag ∉ hookTags

theorem handle_stray {message : Term} (h : Stray message) (now : Int) :
    handleHookMessage times now state message = .ignores := by
  unfold handleHookMessage
  split
  all_goals first
    | rfl
    | exact absurd (by decide) (h _ _ rfl)

def hookEvent (now : Int) (hook : String) (measurements metadata : List (String × Term)) : Event :=
  ⟨["xqlite","hook",hook],("monotonic_time",.int now) :: measurements,metadata⟩

/-- What is to become of a notice: an event of its hook with all that it tells. -/
def Notice.event (state : State) (now : Int) : Notice → Event
  | .wal dbName pages => hookEvent now "wal" [("pages",.int pages)]
    (scopeMetadata state ++ [("db_name",.binary dbName)])
  | .commit => hookEvent now "commit" [] (scopeMetadata state)
  | .rollback => hookEvent now "rollback" [] (scopeMetadata state)
  | .update action dbName table rowid => hookEvent now "update" [] (scopeMetadata state ++
    [("action",.atom action.name),("db_name",.binary dbName),("table",.binary table),
      ("rowid",.int rowid)])
  | .progress tag count elapsedMs => hookEvent now "progress"
    [("count",.int (asI64 count)),("elapsed",.int (asI64 elapsedMs*1000000))]
    (scopeMetadata state ++ [("hook_tag",.atom ((tag.map latin1).getD "nil"))])
  | .busy retries elapsedMs => hookEvent now "busy"
    [("retries",.int (asI64 retries)),("elapsed",.int (asI64 elapsedMs*1000000))]
    (scopeMetadata state)
  | .log errCode msg => hookEvent now "log" [] (scopeMetadata state ++
    [("code",.int errCode),("base_code",.int (errCode%256)),("message",.binary msg)])

theorem makeAtom_eq_some {name : List UInt8} {t : Term} (h : makeAtom name = some t) :
    t = .atom (latin1 name) := by
  unfold makeAtom at h
  split at h
  · exact (Option.some.inj h).symm
  · cases h

theorem handle_notice {n : Notice} {message : Term} (h : n.message = some message) (now : Int) :
    handleHookMessage times now state message = .emits (n.event state now) := by
  cases n with
  | progress tag count elapsedMs =>
    cases tag with
    | none =>
      cases h
      rfl
    | some bytes =>
      obtain ⟨userTag,htag,rfl⟩ := Option.map_eq_some_iff.mp h
      rw [makeAtom_eq_some htag]
      rfl
  | _ =>
    cases h
    rfl

/-- The mailbox holds the messages of the notices, in order, and strays between them. -/
inductive Delivered : List (Int × Notice) → List (Int × Term) → Prop
  | nil : Delivered [] []
  | notice {notices : List (Int × Notice)} {mail : List (Int × Term)} {n : Notice} {message : Term}
      (now : Int) (h : n.message = some message) (rest : Delivered notices mail) :
      Delivered ((now,n) :: notices) ((now,message) :: mail)
  | stray {notices : List (Int × Notice)} {mail : List (Int × Term)} {message : Term}
      (now : Int) (h : Stray message) (rest : Delivered notices mail) :
      Delivered notices ((now,message) :: mail)

theorem serve_delivered {notices : List (Int × Notice)} {mail : List (Int × Term)}
    (h : Delivered notices mail) :
    serve times state mail = (notices.map fun n => n.2.event state n.1,true) := by
  induction h with
  | nil => rfl
  | notice now h _ ih => simp only [serve,handle_notice h,ih,List.map_cons]
  | stray now h _ ih => simp only [serve,handle_stray h,ih]

/-- The numbers are those of 64 bits, and no tag is the text of `nil`. -/
def Notice.Proper : Notice → Prop
  | .progress tag count elapsedMs => tag ≠ some (utf8 "nil") ∧ count < 2^64 ∧ elapsedMs < 2^64
  | .busy retries elapsedMs => retries < 2^64 ∧ elapsedMs < 2^64
  | _ => True

theorem asI64_inj {m n : Nat} (hm : m < 2^64) (hn : n < 2^64) : asI64 m = asI64 n ↔ m = n := by
  unfold asI64
  split_ifs <;> omega

theorem byte_valid (b : UInt8) : b.toNat.isValidChar := .inl (by have := b.toNat_lt; omega)

theorem latin1_inj {bytes bytes' : List UInt8} (h : latin1 bytes = latin1 bytes') :
    bytes = bytes' := by
  have hchars := String.ofList_injective h
  refine List.map_injective_iff.mpr (fun b b' hb => ?_) hchars
  have hnat := congrArg (fun c => c.val.toNat) hb
  simp only [val_ofNat_of_valid (byte_valid b),val_ofNat_of_valid (byte_valid b')] at hnat
  exact UInt8.toNat_inj.mp hnat

theorem Action.name_inj {a a' : Action} (h : a.name = a'.name) : a = a' := by
  revert h
  cases a <;> cases a' <;> decide

theorem tag_inj {tag tag' : Option (List UInt8)} (htag : tag ≠ some (utf8 "nil"))
    (htag' : tag' ≠ some (utf8 "nil"))
    (h : (tag.map latin1).getD "nil" = (tag'.map latin1).getD "nil") : tag = tag' := by
  have hnil : latin1 (utf8 "nil") = "nil" := by decide
  cases tag with
  | none =>
    cases tag' with
    | none => rfl
    | some bytes => exact absurd (congrArg some (latin1_inj (hnil.trans h)).symm) htag'
  | some bytes =>
    cases tag' with
    | none => exact absurd (congrArg some (latin1_inj (h.trans hnil.symm))) htag
    | some bytes' => exact congrArg some (latin1_inj h)

theorem Notice.event_inj {n n' : Notice} {now now' : Int} (hn : n.Proper) (hn' : n'.Proper)
    (h : n.event state now = n'.event state now') : now = now' ∧ n = n' := by
  -- events of different hooks differ in their names
  cases n <;> cases n' <;> simp [Notice.event,hookEvent] at h
  case wal.wal => exact ⟨h.1.1,by rw [h.1.2,h.2]⟩
  case commit.commit => exact ⟨h,rfl⟩
  case rollback.rollback => exact ⟨h,rfl⟩
  case update.update =>
    obtain ⟨hnow,haction,hdb,htable,hrowid⟩ := h
    exact ⟨hnow,by rw [Action.name_inj haction,hdb,htable,hrowid]⟩
  case progress.progress =>
    obtain ⟨⟨hnow,hcount,helapsed⟩,htag⟩ := h
    rw [asI64_inj hn.2.1 hn'.2.1] at hcount
    rw [asI64_inj hn.2.2 hn'.2.2] at helapsed
    exact ⟨hnow,by rw [tag_inj hn.1 hn'.1 htag,hcount,helapsed]⟩
  case busy.busy =>
    obtain ⟨hnow,hretries,helapsed⟩ := h
    rw [asI64_inj hn.1 hn'.1] at hretries
    rw [asI64_inj hn.2 hn'.2] at helapsed
    exact ⟨hnow,by rw [hretries,helapsed]⟩
  case log.log => exact ⟨h.1,by rw [h.2.1,h.2.2.2]⟩

theorem events_inj {notices notices' : List (Int × Notice)} (h : ∀ n ∈ notices, n.2.Proper)
    (h' : ∀ n ∈ notices', n.2.Proper)
    (heq : (notices.map fun n => n.2.event state n.1) = notices'.map fun n => n.2.event state n.1) :
    notices = notices' := by
  induction notices generalizing notices' with
  | nil => exact (List.map_eq_nil_iff.mp heq.symm).symm
  | cons n rest ih =>
    cases notices' with
    | nil => cases heq
    | cons n' rest' =>
      rw [List.forall_mem_cons] at h h'
      rw [List.map_cons,List.map_cons] at heq
      have hhead := Notice.event_inj h.1 h'.1 (List.cons.inj heq).1
      rw [Prod.ext hhead.1 hhead.2,ih h.2 h'.2 (List.cons.inj heq).2]

/-- A bridge's process never stops on what the hooks send; it emits one event for each
notice, in order, and the events tell the notices. -/
theorem notices_forwarded_faithfully (times : UInt64 → Option UInt64) (state : State)
    {notices notices' : List (Int × Notice)} {mail mail' : List (Int × Term)}
    (hmail : Delivered notices mail) (hmail' : Delivered notices' mail')
    (h : ∀ n ∈ notices, n.2.Proper) (h' : ∀ n ∈ notices', n.2.Proper) :
    serve times state mail = (notices.map fun n => n.2.event state n.1,true) ∧
    (serve times state mail = serve times state mail' ↔ notices = notices') := by
  refine ⟨serve_delivered hmail,?_,?_⟩
  · intro heq
    rw [serve_delivered hmail,serve_delivered hmail'] at heq
    exact events_inj h h' (congrArg Prod.fst heq)
  · intro heq
    rw [serve_delivered hmail,serve_delivered hmail',heq]

def recovery (count : Nat) : List (Int × Notice) :=
  [(1,.wal (utf8 "main") 4),(2,.progress (some (utf8 "job")) count 20),
    (5,.log 283 (utf8 "recovered 4 frames"))]

def recoveryMail (count : Nat) : List (Int × Term) :=
  [(1,.tuple [.atom "xqlite_wal",.binary (utf8 "main"),.int 4]),
    (2,.tuple [.atom "xqlite_progress",.atom "job",.int (asI64 count),.int 20]),
    (3,.atom "timeout"),
    (5,.tuple [.atom "xqlite_log",.int 283,.binary (utf8 "recovered 4 frames")])]

theorem recovery_delivered (count : Nat) : Delivered (recovery count) (recoveryMail count) :=
  .notice 1 rfl (.notice 2 rfl (.stray 3 (by simp [Stray]) (.notice 5 rfl .nil)))

theorem recovery_proper {count : Nat} (h : count < 2^64) :
    ∀ n ∈ recovery count, n.2.Proper := by
  simp only [recovery,List.forall_mem_cons,Notice.Proper,List.not_mem_nil]
  exact ⟨trivial,⟨by decide,h,by decide⟩,trivial,by simp⟩

theorem notices_forwarded_recovery :
    (serve (fun _ => none) ⟨none,.atom "nil"⟩ (recoveryMail 7)).1.length = 3 ∧
    serve (fun _ => none) ⟨none,.atom "nil"⟩ (recoveryMail 7) ≠
      serve (fun _ => none) ⟨none,.atom "nil"⟩ (recoveryMail 8) := by
  have h := notices_forwarded_faithfully (fun _ => none) ⟨none,.atom "nil"⟩ (recovery_delivered 7)
    (recovery_delivered 8) (recovery_proper (by decide)) (recovery_proper (by decide))
  exact ⟨by rw [h.1]; rfl,fun heq => absurd (h.2.mp heq) (by decide)⟩

end Forwarding

section Tags

theorem latin1_ascii {chars : List Char} (h : ∀ c ∈ chars, c.toNat < 0x80) :
    (chars.flatMap String.utf8EncodeChar).map (fun b => Char.ofNat b.toNat) = chars := by
  induction chars with
  | nil => rfl
  | cons c rest ih =>
    rw [List.forall_mem_cons] at h
    have hbyte : (UInt8.ofNat c.toNat).toNat = c.toNat := toNat_ofNat_of_lt (by omega)
    rw [List.flatMap_cons,utf8EncodeChar_ascii h.1,List.map_append,ih h.2]
    simp [hbyte]

theorem ascii_of_size {c : Char} (h : c.utf8Size ≤ 1) : c.toNat < 0x80 := by
  rw [Char.utf8Size] at h
  split_ifs at h with hle
  · exact Nat.lt_succ_of_le (UInt32.le_iff_toNat_le.mp hle)
  all_goals omega

theorem length_le_encoded (chars : List Char) :
    chars.length ≤ (chars.flatMap String.utf8EncodeChar).length := by
  induction chars with
  | nil => rfl
  | cons c rest ih =>
    have hpos := c.utf8Size_pos
    rw [List.flatMap_cons,List.length_append,String.length_utf8EncodeChar,List.length_cons]
    omega

theorem ascii_of_length {chars : List Char}
    (h : (chars.flatMap String.utf8EncodeChar).length = chars.length) :
    ∀ c ∈ chars, c.toNat < 0x80 := by
  induction chars with
  | nil => simp
  | cons c rest ih =>
    have hrest := length_le_encoded rest
    have hpos := c.utf8Size_pos
    rw [List.flatMap_cons,List.length_append,String.length_utf8EncodeChar,List.length_cons] at h
    rw [List.forall_mem_cons]
    exact ⟨ascii_of_size (by omega),ih (by omega)⟩

theorem length_of_latin1_utf8 {a : String} (h : latin1 (utf8 a) = a) :
    (utf8 a).length = a.toList.length := by
  have hlength := congrArg (fun s => s.toList.length) h
  simpa [latin1] using hlength

theorem latin1_utf8_iff (a : String) : latin1 (utf8 a) = a ↔ ∀ c ∈ a.toList, c.toNat < 0x80 := by
  constructor
  · intro h
    exact ascii_of_length (length_of_latin1_utf8 h)
  · intro h
    rw [latin1,utf8,latin1_ascii h,String.ofList_toList]

theorem utf8_inj {a b : String} (h : utf8 a = utf8 b) : a = b := by
  have hbytes := congrArg List.toByteArray h
  rw [utf8,utf8] at hbytes
  have hencoded : a.toList.utf8Encode = b.toList.utf8Encode := hbytes
  rw [String.utf8Encode_toList,String.utf8Encode_toList] at hencoded
  exact String.toByteArray_inj.mp hencoded

variable (times : UInt64 → Option UInt64) (state : State)

/-- A tick of a subscriber with this `:tag`, as the bridge's process handles it; `none` where
no message is made. -/
def handleTick (now : Int) (count elapsedMs : Nat) (tag : Term) : Option Handled :=
  (Telemetry.tagString tag).bind fun tag =>
    (Notice.progress tag count elapsedMs).message.map (handleHookMessage times now state)

def tickEvent (now : Int) (count elapsedMs : Nat) (hookTag : String) : Event :=
  hookEvent now "progress"
    [("count",.int (asI64 count)),("elapsed",.int (asI64 elapsedMs*1000000))]
    (scopeMetadata state ++ [("hook_tag",.atom hookTag)])

variable {times state} {now : Int} {count elapsedMs : Nat}

theorem handleTick_atom (a : String) : handleTick times state now count elapsedMs (.atom a) =
    if (utf8 a).length ≤ 255 then
      some (.emits (tickEvent state now count elapsedMs (latin1 (utf8 a))))
    else none := by
  by_cases hnil : a = "nil"
  · subst hnil
    rfl
  · have htag : Telemetry.tagString (.atom a) = some (some (utf8 a)) := by
      unfold Telemetry.tagString
      split
      · rename_i heq
        cases heq
        exact absurd rfl hnil
      · rename_i heq
        cases heq
        rw [SqlText.toUTF8_toList]
      · rename_i heq
        exact absurd rfl (heq a)
    rw [handleTick,htag]
    by_cases hlength : (utf8 a).length ≤ 255
    · rw [if_pos hlength]
      simp [Notice.message,sendTickToPid,makeAtom,hlength]
      rfl
    · rw [if_neg hlength]
      simp [Notice.message,sendTickToPid,makeAtom,hlength]

theorem tickEvent_inj {a b : String} :
    tickEvent state now count elapsedMs a = tickEvent state now count elapsedMs b ↔ a = b := by
  simp [tickEvent,hookEvent]

theorem handleTick_inj {a b : String} (ha : (utf8 a).length ≤ 255) :
    handleTick times state now count elapsedMs (.atom a) =
      handleTick times state now count elapsedMs (.atom b) ↔ a = b := by
  refine ⟨fun h => ?_,fun h => by rw [h]⟩
  rw [handleTick_atom,handleTick_atom,if_pos ha] at h
  split_ifs at h
  have hevents := Handled.emits.inj (Option.some.inj h)
  exact utf8_inj (latin1_inj (tickEvent_inj.mp hevents))

/-- The name of a tag's atom goes out as UTF-8 and is read back as Latin-1: an event has the
subscriber's own tag only where the name is ASCII, though no two tags give the same event. -/
theorem progress_tag_kept_iff (times : UInt64 → Option UInt64) (state : State) (now : Int)
    (count elapsedMs : Nat) {a : String} (ha : a.length ≤ 255) :
    (handleTick times state now count elapsedMs (.atom a) =
      some (.emits (tickEvent state now count elapsedMs a)) ↔ ∀ c ∈ a.toList, c.toNat < 0x80) ∧
    ∀ b : String, (utf8 b).length ≤ 255 →
      (handleTick times state now count elapsedMs (.atom b) =
        handleTick times state now count elapsedMs (.atom a) ↔ b = a) := by
  refine ⟨?_,fun b hb => handleTick_inj hb⟩
  rw [handleTick_atom,← latin1_utf8_iff]
  by_cases hlength : (utf8 a).length ≤ 255
  · rw [if_pos hlength]
    simp [tickEvent_inj]
  · rw [if_neg hlength]
    refine ⟨nofun,fun h => absurd ?_ hlength⟩
    rw [length_of_latin1_utf8 h,String.length_toList]
    exact ha

theorem progress_tag_lost :
    handleTick (fun _ => none) ⟨none,.atom "nil"⟩ 0 1 2 (.atom "zürich") ≠
      some (.emits (tickEvent ⟨none,.atom "nil"⟩ 0 1 2 "zürich")) := by
  intro h
  have hascii := (progress_tag_kept_iff _ _ _ _ _ (by decide)).1.mp h
  exact absurd (hascii 'ü' (by simp)) (by decide)

end Tags

end Xqlite.Forwarder

import Xqlite.Instants
import Xqlite.Lib.Iso8601
import Xqlite.SingleStatement
import Xqlite.StatementBind
import Xqlite.Uuid
set_option autoImplicit false

/-! `Xqlite.TypeExtension`: chains of the extensions that come with the library, and what
becomes of a value that is encoded through a chain, bound, kept in a column, read and
decoded through the same chain. `none` is `:skip`. -/

namespace Xqlite.TypeChain
open Iso8601
open SqlText (utf8)

section Values

structure DateTime where
  date : Date
  time : Time
  utcOffset : Int
  stdOffset : Int
  zoneAbbr : String
  timeZone : String
  deriving DecidableEq

def DateTime.utc (d : Date) (t : Time) : DateTime := ⟨d,t,0,0,"UTC","Etc/UTC"⟩

/-- The end of `DateTime.to_iso8601`. -/
def offsetToText (utc std : Int) (zone : String) : Text :=
  if utc = 0 ∧ std = 0 ∧ zone = "Etc/UTC" then [letterZ]
  else
    (if utc+std < 0 then hyphen else plus) ::
      (zeroPad 2 ((utc+std).natAbs/3600) ++ colon :: zeroPad 2 ((utc+std).natAbs%3600/60))

def DateTime.toText (dt : DateTime) : Text :=
  naiveToText dt.date dt.time ++ offsetToText dt.utcOffset dt.stdOffset dt.timeZone

def DateTime.naive (dt : DateTime) : Instants.Naive :=
  ⟨dt.date.year,dt.date.month,dt.date.day,dt.time.hour,dt.time.minute,dt.time.second,
    (dt.time.microsecond,dt.time.precision)⟩

theorem DateTime.valid (dt : DateTime) : Instants.iso.valid dt.naive = true := by
  have hdate := dt.date.valid
  have htime := dt.time.valid
  simp only [Instants.iso,Instants.Iso.valid,DateTime.naive,Bool.and_eq_true,decide_eq_true_eq]
  omega

def DateTime.instant (dt : DateTime) : Instants.DateTime :=
  ⟨Instants.iso,dt.naive,dt.utcOffset,dt.stdOffset,dt.valid⟩

/-- What a caller may hand over, or get back. A list or a map has no structs inside; a
tuple of an atom and a value is a `pair`. `δ` are the decimals. -/
inductive Elixir (δ : Type) where
  | term (t : Term)
  | date (d : Date)
  | time (t : Time)
  | naiveDateTime (d : Date) (t : Time)
  | dateTime (dt : DateTime)
  | duration (d : Instants.Duration)
  | decimal (d : δ)
  | pair (key : String) (value : Elixir δ)

def leftBracket : UInt8 := 91
def leftBrace : UInt8 := 123

/-- The libraries the extensions call: the calendar's offsets, Jason and Decimal. What
Jason writes for a list or a map begins with its bracket. -/
structure Libraries (δ : Type) where
  zone : Zone
  jasonEncode : Term → Option Text
  jasonDecode : Text → Option Term
  jasonEncode_head : ∀ t s, jasonEncode t = some s → t.getType = .list ∨ t.getType = .map →
    ∃ b rest, s = b :: rest ∧ (b = leftBracket ∨ b = leftBrace)
  decimalToString : δ → Text
  decimalFields : δ → List (String × Term)

def struct (name : String) (fields : List (String × Term)) : Term :=
  .map ((("__struct__",.atom name) :: fields).map fun f => (.atom f.1,f.2))

def dateFields (d : Date) : List (String × Term) :=
  [("year",.int d.year),("month",.int d.month),("day",.int d.day)]

def timeFields (t : Time) : List (String × Term) :=
  [("hour",.int t.hour),("minute",.int t.minute),("second",.int t.second),
    ("microsecond",.tuple [.int t.microsecond,.int t.precision])]

def calendarField : String × Term := ("calendar",.atom "Elixir.Calendar.ISO")

variable {δ : Type} (L : Libraries δ)

def Elixir.toTerm : Elixir δ → Term
  | .term t => t
  | .date d => struct "Elixir.Date" (calendarField :: dateFields d)
  | .time t => struct "Elixir.Time" (calendarField :: timeFields t)
  | .naiveDateTime d t =>
    struct "Elixir.NaiveDateTime" (calendarField :: (dateFields d ++ timeFields t))
  | .dateTime dt =>
    struct "Elixir.DateTime" (calendarField :: (dateFields dt.date ++ timeFields dt.time ++
      [("utc_offset",.int dt.utcOffset),("std_offset",.int dt.stdOffset),
        ("zone_abbr",.binary (utf8 dt.zoneAbbr)),("time_zone",.binary (utf8 dt.timeZone))]))
  | .duration d =>
    struct "Elixir.Duration" [("year",.int d.year),("month",.int d.month),("week",.int d.week),
      ("day",.int d.day),("hour",.int d.hour),("minute",.int d.minute),("second",.int d.second),
      ("microsecond",.tuple [.int d.microsecond.1,.int d.microsecond.2])]
  | .decimal d => struct "Elixir.Decimal" (L.decimalFields d)
  | .pair key value => .tuple [.atom key,value.toTerm]

end Values

section Source
variable {δ : Type} (L : Libraries δ)

inductive Extension where
  | date | time | naiveDateTime | dateTime | instant | duration | decimal | json | uuid
  deriving DecidableEq, Repr

def isStruct (entries : List (Term × Term)) : Bool :=
  entries.any fun entry =>
    match entry with
    | (.atom "__struct__",.atom _) => true
    | _ => false

def encodeJson : Term → Option Term
  | .map entries =>
    if isStruct entries then none else (L.jasonEncode (.map entries)).map .binary
  | .list items => (L.jasonEncode (.list items)).map .binary
  | .improper items tail => (L.jasonEncode (.improper items tail)).map .binary
  | _ => none

def jsonShaped : Text → Bool
  | [] => false
  | c :: rest =>
    if c = 32 ∨ c = 9 ∨ c = 10 ∨ c = 13 then jsonShaped rest
    else decide (c = leftBrace ∨ c = leftBracket)

def Extension.encode : Extension → Elixir δ → Option Term
  | .date,.date d => some (.binary d.toText)
  | .time,.time t => some (.binary t.toText)
  | .naiveDateTime,.naiveDateTime d t => some (.binary (naiveToText d t))
  | .dateTime,.dateTime dt => some (.binary dt.toText)
  | .instant,.dateTime dt => (Instants.instantEncode (.dateTime dt.instant)).map .int
  | .duration,.duration d => (Instants.durationEncode (.duration d)).map .int
  | .decimal,.decimal d => some (.binary (L.decimalToString d))
  | .json,.term t => encodeJson L t
  | .uuid,.term t => Uuid.encode t
  | _,_ => none

def Extension.decode : Extension → Term → Option (Elixir δ)
  | .date,.binary s => (parseDate s).map .date
  | .time,.binary s => (parseTime L.zone s).map .time
  | .naiveDateTime,.binary s => (parseNaive L.zone s).map fun r => .naiveDateTime r.1 r.2
  | .dateTime,.binary s => (parseUtc L.zone s).map fun r => .dateTime (.utc r.1 r.2)
  | .json,.binary s => if jsonShaped s then (L.jasonDecode s).map .term else none
  | .uuid,t => (Uuid.decode t).map .term
  | _,_ => none

def encodeValue (value : Elixir δ) : List Extension → Elixir δ
  | [] => value
  | ext :: rest =>
    match ext.encode L value with
    | some encoded => .term encoded
    | none => encodeValue value rest

def decodeValue (value : Term) : List Extension → Elixir δ
  | [] => .term value
  | ext :: rest =>
    match ext.decode L value with
    | some decoded => decoded
    | none => decodeValue value rest

/-- A keyword list by its first element; in one, what is no pair is left alone. -/
def encodeParams (params : List (Elixir δ)) (extensions : List Extension) : List (Elixir δ) :=
  match extensions,params with
  | [],params => params
  | extensions,.pair key value :: rest =>
    (.pair key value :: rest).map fun param =>
      match param with
      | .pair k v => .pair k (encodeValue L v extensions)
      | other => other
  | extensions,params => params.map fun value => encodeValue L value extensions

def decodeRows (rows : List (List Term)) (extensions : List Extension) : List (List (Elixir δ)) :=
  match extensions with
  | [] => rows.map (List.map .term)
  | extensions => rows.map (List.map fun value => decodeValue L value extensions)

end Source

section Chains

/-- The other extensions that may take a value of this one, or its text. -/
def Extension.rivals : Extension → List Extension
  | .dateTime => [.instant,.naiveDateTime]
  | .uuid => [.time,.json]
  | .json => [.uuid]
  | _ => []

/-- The extension is in the chain, and none of its rivals stands before it. -/
def Extension.Leads (e : Extension) (chain : List Extension) : Prop :=
  chain.find? (fun x => decide (x ∈ e :: e.rivals)) = some e

instance (e : Extension) (chain : List Extension) : Decidable (e.Leads chain) :=
  inferInstanceAs (Decidable (_ = _))

variable {δ : Type} {L : Libraries δ} {chain : List Extension}

theorem encodeValue_eq (v : Elixir δ) (chain : List Extension) :
    encodeValue L v chain = ((chain.findSome? fun e => e.encode L v).map .term).getD v := by
  induction chain with
  | nil => rfl
  | cons ext rest ih =>
    rw [encodeValue,List.findSome?_cons]
    cases ext.encode L v with
    | none => exact ih
    | some t => rfl

theorem decodeValue_eq (t : Term) (chain : List Extension) :
    decodeValue L t chain = (chain.findSome? fun e => e.decode L t).getD (.term t) := by
  induction chain with
  | nil => rfl
  | cons ext rest ih =>
    rw [decodeValue,List.findSome?_cons]
    cases ext.decode L t with
    | none => exact ih
    | some v => rfl

theorem findSome_of_first {β : Type} {f : Extension → Option β} {group : List Extension}
    {e : Extension} {b : β} (hfirst : chain.find? (fun x => decide (x ∈ group)) = some e)
    (hown : f e = some b) (hothers : ∀ x, x ∉ group → f x = none) :
    chain.findSome? f = some b := by
  obtain ⟨-,before,after,rfl,hbefore⟩ := List.find?_eq_some_iff_append.mp hfirst
  refine List.findSome?_eq_some_iff.mpr ⟨before,e,after,rfl,hown,fun x hx => hothers x ?_⟩
  simpa using hbefore x hx

end Chains

/-! What the extensions make of the texts of the others. -/

section Texts
variable {δ : Type} {L : Libraries δ} {x : Extension} {s : Text}

theorem Extension.decode_date :
    Extension.date.decode L (.binary s) = (parseDate s).map .date := rfl

theorem Extension.decode_time :
    Extension.time.decode L (.binary s) = (parseTime L.zone s).map .time := rfl

theorem Extension.decode_naiveDateTime :
    Extension.naiveDateTime.decode L (.binary s) =
      (parseNaive L.zone s).map fun r => .naiveDateTime r.1 r.2 := rfl

theorem Extension.decode_dateTime :
    Extension.dateTime.decode L (.binary s) =
      (parseUtc L.zone s).map fun r => .dateTime (.utc r.1 r.2) := rfl

theorem Extension.decode_json :
    Extension.json.decode L (.binary s) =
      if jsonShaped s then (L.jasonDecode s).map .term else none := rfl

theorem Extension.decode_uuid (t : Term) :
    Extension.uuid.decode L t = (Uuid.decode t).map .term := rfl

theorem json_skips (h : ∃ b rest, s = b :: rest ∧ (isDigit b = true ∨ b = hyphen)) :
    Extension.json.decode L (.binary s) = none := by
  obtain ⟨b,rest,rfl,hb⟩ := h
  have hne : ∀ c, isDigit c = false → c ≠ hyphen → b ≠ c := by
    intro c hdigit hhyphen
    obtain hb | rfl := hb
    · exact digit_ne hb hdigit
    · exact hhyphen.symm
  have hshape : jsonShaped (b :: rest) = false := by
    simp [jsonShaped,hne 32 (by decide) (by decide),hne 9 (by decide) (by decide),
      hne 10 (by decide) (by decide),hne 13 (by decide) (by decide),
      hne leftBrace (by decide) (by decide),hne leftBracket (by decide) (by decide)]
  simp only [Extension.decode_json,hshape,Bool.false_eq_true,if_false]

theorem uuid_skips (h : s.length ≠ 16) : Extension.uuid.decode L (.binary s) = none := by
  simp only [Extension.decode_uuid,Uuid.decode,if_neg h,Option.map_none]

theorem moment_skips (h : readMoment L.zone s = none) :
    Extension.naiveDateTime.decode L (.binary s) = none ∧
      Extension.dateTime.decode L (.binary s) = none := by
  simp only [Extension.decode_naiveDateTime,Extension.decode_dateTime,parseNaive,parseUtc,h,
    Option.map_none,Option.bind_none,and_self]

theorem decode_dateText {d : Date} (hd : d.Short) (hx : x ∉ [Extension.date]) :
    x.decode L (.binary d.toText) = none := by
  have hmoment := moment_skips (readMoment_date L.zone hd)
  have htime : parseTime L.zone d.toText = none := by
    have hnone := parseTime_date L.zone hd []
    rwa [List.append_nil] at hnone
  cases x with
  | date => exact absurd List.mem_cons_self hx
  | time => simp only [Extension.decode_time,htime,Option.map_none]
  | naiveDateTime => exact hmoment.1
  | dateTime => exact hmoment.2
  | json => exact json_skips (head_date d)
  | uuid =>
    have hlength := length_date hd
    exact uuid_skips (by omega)
  | _ => rfl

theorem decode_timeText {t : Time} (hx : x ∉ [Extension.time]) :
    x.decode L (.binary t.toText) = none := by
  have hmoment := moment_skips (readMoment_time L.zone t)
  cases x with
  | date => simp only [Extension.decode_date,parseDate_time,Option.map_none]
  | time => exact absurd List.mem_cons_self hx
  | naiveDateTime => exact hmoment.1
  | dateTime => exact hmoment.2
  | json =>
    obtain ⟨b,rest,htext,hb⟩ := head_time t
    exact json_skips ⟨b,rest,htext,.inl hb⟩
  | uuid =>
    have hlength := length_time t
    exact uuid_skips (by omega)
  | _ => rfl

theorem decode_momentText {d : Date} (hd : d.Short) (t : Time) (rest : Text)
    (hx : x ∉ [Extension.naiveDateTime,.dateTime]) :
    x.decode L (.binary (naiveToText d t ++ rest)) = none := by
  have htext : naiveToText d t ++ rest = d.toText ++ letterT :: (t.toText ++ rest) := by
    simp [naiveToText]
  cases x with
  | date => simp only [Extension.decode_date,parseDate_moment hd,Option.map_none]
  | time => simp only [Extension.decode_time,htext,parseTime_date L.zone hd,Option.map_none]
  | naiveDateTime => exact absurd List.mem_cons_self hx
  | dateTime => exact absurd (List.mem_cons_of_mem _ List.mem_cons_self) hx
  | json =>
    obtain ⟨b,more,hdate,hb⟩ := head_date d
    refine json_skips ⟨b,more ++ letterT :: (t.toText ++ rest),?_,hb⟩
    rw [htext,hdate,List.cons_append]
  | uuid =>
    have hdate := length_date hd
    have htime := length_time t
    refine uuid_skips ?_
    rw [htext,List.length_append,List.length_cons,List.length_append]
    omega
  | _ => rfl

/-- Sixteen bytes are no date and no moment. They may be a time or JSON. -/
theorem decode_uuidBytes (hs : s.length = 16) (hx : x ∉ Extension.uuid :: Extension.uuid.rivals) :
    x.decode L (.binary s) = none := by
  have hmoment : readMoment L.zone s = none := by
    cases hread : readMoment L.zone s with
    | none => rfl
    | some r =>
      have hlength := length_readMoment hread
      omega
  cases x with
  | date =>
    cases hread : parseDate s with
    | none => simp only [Extension.decode_date,hread,Option.map_none]
    | some d =>
      have hlength := length_parseDate hread
      omega
  | time => exact absurd (by decide) hx
  | naiveDateTime => exact (moment_skips hmoment).1
  | dateTime => exact (moment_skips hmoment).2
  | json => exact absurd (by decide) hx
  | uuid => exact absurd (by decide) hx
  | _ => rfl

theorem decode_jsonText {b : UInt8} (hb : b = leftBracket ∨ b = leftBrace) (rest : Text)
    (hx : x ∉ Extension.json :: Extension.json.rivals) :
    x.decode L (.binary (b :: rest)) = none := by
  have hmark : isDigit b = false ∧ b ≠ hyphen ∧ b ≠ plus ∧ b ≠ letterT := by
    obtain rfl | rfl := hb <;> decide
  obtain ⟨hdigit,hhyphen,hplus,hT⟩ := hmark
  have hmoment := moment_skips (readMoment_head L.zone hdigit hhyphen hplus rest)
  cases x with
  | date => simp only [Extension.decode_date,parseDate_head hdigit hhyphen hplus,Option.map_none]
  | time => simp only [Extension.decode_time,parseTime_head L.zone hdigit hT,Option.map_none]
  | naiveDateTime => exact hmoment.1
  | dateTime => exact hmoment.2
  | json => exact absurd (by decide) hx
  | uuid => exact absurd (by decide) hx
  | _ => rfl

end Texts

section Survival
variable {δ : Type} {L : Libraries δ} {chain : List Extension}

/-- The chain turns the value into the text, and the text into the value. -/
structure Written (L : Libraries δ) (chain : List Extension) (v : Elixir δ) (s : Text) : Prop where
  encoded : encodeValue L v chain = .term (.binary s)
  decoded : decodeValue L (.binary s) chain = v

/-- It is enough that one extension writes and reads the value, and that only a group it is
the first of would take the value or the text. -/
theorem written_of_first {e : Extension} {group : List Extension} {v : Elixir δ} {s : Text}
    (hfirst : chain.find? (fun x => decide (x ∈ group)) = some e)
    (hencode : e.encode L v = some (.binary s)) (hdecode : e.decode L (.binary s) = some v)
    (hvalue : ∀ x, x ∉ group → x.encode L v = none)
    (htext : ∀ x, x ∉ group → x.decode L (.binary s) = none) : Written L chain v s := by
  constructor
  · rw [encodeValue_eq,findSome_of_first hfirst hencode hvalue]
    rfl
  · rw [decodeValue_eq,findSome_of_first hfirst hdecode htext]
    rfl

theorem first_of_mem {e : Extension} (h : e ∈ chain) :
    chain.find? (fun x => decide (x ∈ [e])) = some e := by
  obtain ⟨before,after,rfl,hbefore⟩ := List.eq_append_cons_of_mem h
  refine List.find?_eq_some_iff_append.mpr ⟨by simp,before,after,rfl,fun x hx => ?_⟩
  have hne : x ≠ e := by
    rintro rfl
    exact hbefore hx
  simp [hne]

theorem written_date {d : Date} (hd : d.Short) (h : Extension.date.Leads chain) :
    Written L chain (.date d) d.toText := by
  refine written_of_first h rfl ?_ ?_ fun x hx => decode_dateText hd hx
  · simp only [Extension.decode_date,parseDate_toText hd,Option.map_some]
  · intro x hx
    cases x with
    | date => exact absurd List.mem_cons_self hx
    | _ => rfl

theorem written_time {t : Time} (ht : t.Canonical) (h : Extension.time.Leads chain) :
    Written L chain (.time t) t.toText := by
  refine written_of_first h rfl ?_ ?_ fun x hx => decode_timeText hx
  · simp only [Extension.decode_time,parseTime_toText L.zone ht,Option.map_some]
  · intro x hx
    cases x with
    | time => exact absurd List.mem_cons_self hx
    | _ => rfl

theorem parseNaive_text {d : Date} (hd : d.Short) {t : Time} (ht : t.Canonical) :
    parseNaive L.zone (naiveToText d t) = some (d,t) := by
  have hread := parseNaive_toText L.zone hd ht (.inl rfl)
  rwa [List.append_nil] at hread

theorem written_naive {d : Date} (hd : d.Short) {t : Time} (ht : t.Canonical)
    (h : Extension.naiveDateTime.Leads chain) :
    Written L chain (.naiveDateTime d t) (naiveToText d t) := by
  refine written_of_first h rfl ?_ ?_ ?_
  · simp only [Extension.decode_naiveDateTime,parseNaive_text hd ht,Option.map_some]
  · intro x hx
    cases x with
    | naiveDateTime => exact absurd List.mem_cons_self hx
    | _ => rfl
  · intro x hx
    by_cases hutc : x = .dateTime
    · simp only [hutc,Extension.decode_dateTime,parseUtc_naive L.zone hd ht,Option.map_none]
    · have hnone : x.decode L (.binary (naiveToText d t ++ [])) = none :=
        decode_momentText hd t [] (by simpa [hutc,Extension.rivals] using hx)
      rwa [List.append_nil] at hnone

theorem utc_toText (d : Date) (t : Time) :
    (DateTime.utc d t).toText = naiveToText d t ++ [letterZ] := rfl

theorem moment_mem {x : Extension} (h : x ∈ [Extension.naiveDateTime,.dateTime]) :
    x ∈ Extension.dateTime :: Extension.dateTime.rivals := by
  revert h
  cases x <;> decide

theorem written_utc {d : Date} (hd : d.Short) {t : Time} (ht : t.Canonical)
    (h : Extension.dateTime.Leads chain) :
    Written L chain (.dateTime (.utc d t)) (naiveToText d t ++ [letterZ]) := by
  refine written_of_first h rfl ?_ ?_ ?_
  · simp only [Extension.decode_dateTime,parseUtc_zulu L.zone hd ht,Option.map_some]
  · intro x hx
    cases x with
    | dateTime => exact absurd (by decide) hx
    | instant => exact absurd (by decide) hx
    | _ => rfl
  · intro x hx
    exact decode_momentText hd t [letterZ] fun hmem => hx (moment_mem hmem)

theorem written_uuid {s : Text} (hs : Uuid.IsUuid s) (hcase : Uuid.downcase s = s)
    (h : Extension.uuid.Leads chain) :
    ∃ bytes, Written L chain (.term (.binary s)) bytes := by
  obtain ⟨encoded,hencode⟩ := (Uuid.isSome_encode (.binary s)).mpr ⟨s,rfl,hs⟩
  obtain ⟨bytes,rfl,hsize,hdown⟩ := Uuid.encode_eq_some.mp hencode
  refine ⟨bytes,written_of_first h hencode ?_ ?_ fun x hx => decode_uuidBytes hsize hx⟩
  · simp only [Extension.decode_uuid,Uuid.decode_eq hsize,← hdown,hcase,Option.map_some]
  · intro x hx
    cases x with
    | uuid => exact absurd List.mem_cons_self hx
    | _ => rfl

theorem encodeJson_container {t : Term} {encoded : Term} (h : encodeJson L t = some encoded) :
    (t.getType = .list ∨ t.getType = .map) ∧ ∃ s, encoded = .binary s ∧ L.jasonEncode t = some s := by
  cases t with
  | map entries =>
    rw [encodeJson] at h
    split at h
    · cases h
    · obtain ⟨s,hs,rfl⟩ := Option.map_eq_some_iff.mp h
      exact ⟨.inr rfl,s,rfl,hs⟩
  | list items =>
    obtain ⟨s,hs,rfl⟩ := Option.map_eq_some_iff.mp h
    exact ⟨.inl rfl,s,rfl,hs⟩
  | improper items tail =>
    obtain ⟨s,hs,rfl⟩ := Option.map_eq_some_iff.mp h
    exact ⟨.inl rfl,s,rfl,hs⟩
  | _ => cases h

/-- Sixteen bytes of JSON are also taken for a UUID. -/
theorem written_json {t : Term} {s : Text} (hencode : encodeJson L t = some (.binary s))
    (hdecode : L.jasonDecode s = some t)
    (h : Extension.json.Leads chain ∨ s.length ≠ 16 ∧ .json ∈ chain) :
    Written L chain (.term t) s := by
  obtain ⟨hcontainer,s',hs',hjason⟩ := encodeJson_container hencode
  cases hs'
  obtain ⟨b,rest,rfl,hb⟩ := L.jasonEncode_head t s hjason hcontainer
  have hread : Extension.json.decode L (.binary (b :: rest)) = some (.term t) := by
    have hshape : jsonShaped (b :: rest) = true := by
      obtain rfl | rfl := hb <;> simp [jsonShaped,leftBracket,leftBrace]
    simp only [Extension.decode_json,hshape,if_true,hdecode,Option.map_some]
  have huuid : Extension.uuid.encode L (.term t) = none := by
    cases t with
    | binary bytes => cases hencode
    | _ => rfl
  have hvalue : ∀ x : Extension, x ≠ .json → x.encode L (.term t) = none := by
    intro x hx
    cases x with
    | json => exact absurd rfl hx
    | uuid => exact huuid
    | _ => rfl
  obtain h | ⟨hlength,hmem⟩ := h
  · refine written_of_first h hencode hread ?_ fun x hx => decode_jsonText hb rest hx
    exact fun x hx => hvalue x fun hjson => hx (hjson ▸ List.mem_cons_self)
  · refine written_of_first (first_of_mem hmem) hencode hread ?_ ?_
    · exact fun x hx => hvalue x fun hjson => hx (hjson ▸ List.mem_cons_self)
    · intro x hx
      by_cases huuid : x = .uuid
      · rw [huuid,uuid_skips hlength]
      · exact decode_jsonText hb rest (by simpa [Extension.rivals,huuid] using hx)

end Survival

section Columns
variable {δ : Type} {L : Libraries δ} {chain : List Extension}

/-- The numbers and `nil`, which no extension takes. -/
def Scalar (t : Term) : Prop :=
  t = .atom "nil" ∨ (∃ n, t = .int n) ∨ ∃ bits, t = .float bits

theorem encodeValue_scalar {t : Term} (h : Scalar t) (chain : List Extension) :
    encodeValue L (.term t) chain = .term t := by
  have hnone : ∀ x : Extension, x.encode L (.term t) = none := by
    intro x
    obtain rfl | ⟨n,rfl⟩ | ⟨bits,rfl⟩ := h <;> cases x <;> rfl
  rw [encodeValue_eq,List.findSome?_eq_none_iff.mpr fun x _ => hnone x]
  rfl

theorem decodeValue_scalar {t : Term} (h : Scalar t) (chain : List Extension) :
    decodeValue L t chain = .term t := by
  have hnone : ∀ x : Extension, x.decode L t = none := by
    intro x
    obtain rfl | ⟨n,rfl⟩ | ⟨bits,rfl⟩ := h <;> cases x <;> rfl
  rw [decodeValue_eq,List.findSome?_eq_none_iff.mpr fun x _ => hnone x]
  rfl

def Elixir.isPair : Elixir δ → Bool
  | .pair _ _ => true
  | _ => false

/-- The value is bound as the one in the column, and what is read there is decoded to it. -/
structure Kept (L : Libraries δ) (chain : List Extension) (v : Elixir δ) (value : Value) :
    Prop where
  bound : elixirTermToRusqliteValue ((encodeValue L v chain).toTerm L) = .ok value
  bare : v.isPair = false
  readable : (Uuid.store value).readable = true
  back : decodeValue L (Uuid.store value).term chain = v

theorem Written.kept {v : Elixir δ} {s : Text} (h : Written L chain v s)
    (hbare : v.isPair = false) : ∃ value, Kept L chain v value := by
  obtain ⟨value,hbound,hpicked⟩ := Uuid.bound_binary s
  have hstored : (Uuid.store value).readable = true ∧ (Uuid.store value).term = .binary s := by
    obtain ⟨rfl,hutf8⟩ | ⟨rfl,-⟩ := hpicked
    · refine ⟨?_,rfl⟩
      rw [Uuid.store,Row.Stored.readable,fromUtf8_eq_none_iff.mpr hutf8]
      rfl
    · exact ⟨rfl,rfl⟩
  refine ⟨value,?_,hbare,hstored.1,?_⟩
  · rw [h.encoded]
    exact hbound
  · rw [hstored.2,h.decoded]

theorem kept_scalar {t : Term} {value : Value} (hscalar : Scalar t)
    (hbound : elixirTermToRusqliteValue t = .ok value)
    (hreadable : (Uuid.store value).readable = true) (hterm : (Uuid.store value).term = t) :
    Kept L chain (.term t) value := by
  refine ⟨?_,rfl,hreadable,?_⟩
  · rw [encodeValue_scalar hscalar]
    exact hbound
  · rw [hterm,decodeValue_scalar hscalar]

/-- The values that are kept, each with what it asks of the chain. -/
inductive Carried (L : Libraries δ) (chain : List Extension) : Elixir δ → Prop
  | date {d : Date} (hd : d.Short) (h : Extension.date.Leads chain) : Carried L chain (.date d)
  | time {t : Time} (ht : t.Canonical) (h : Extension.time.Leads chain) : Carried L chain (.time t)
  | naiveDateTime {d : Date} {t : Time} (hd : d.Short) (ht : t.Canonical)
      (h : Extension.naiveDateTime.Leads chain) : Carried L chain (.naiveDateTime d t)
  | dateTime {d : Date} {t : Time} (hd : d.Short) (ht : t.Canonical)
      (h : Extension.dateTime.Leads chain) : Carried L chain (.dateTime (.utc d t))
  | uuid {s : Text} (hs : Uuid.IsUuid s) (hcase : Uuid.downcase s = s)
      (h : Extension.uuid.Leads chain) : Carried L chain (.term (.binary s))
  | json {t : Term} {s : Text} (hencode : encodeJson L t = some (.binary s))
      (hdecode : L.jasonDecode s = some t)
      (h : Extension.json.Leads chain ∨ s.length ≠ 16 ∧ .json ∈ chain) : Carried L chain (.term t)
  | nil : Carried L chain (.term (.atom "nil"))
  | int {n : Int} (h : -2^63 ≤ n ∧ n < 2^63) : Carried L chain (.term (.int n))
  | float {bits : UInt64} (h : encodeF64 bits = .float bits) : Carried L chain (.term (.float bits))

theorem Carried.kept {v : Elixir δ} (h : Carried L chain v) : ∃ value, Kept L chain v value := by
  cases h with
  | date hd h => exact (written_date hd h).kept rfl
  | time ht h => exact (written_time ht h).kept rfl
  | naiveDateTime hd ht h => exact (written_naive hd ht h).kept rfl
  | dateTime hd ht h => exact (written_utc hd ht h).kept rfl
  | uuid hs hcase h =>
    obtain ⟨bytes,hwritten⟩ := written_uuid (L := L) hs hcase h
    exact hwritten.kept rfl
  | json hencode hdecode h => exact (written_json hencode hdecode h).kept rfl
  | nil => exact ⟨.null,kept_scalar (.inl rfl) rfl rfl rfl⟩
  | int h =>
    refine ⟨.integer _,kept_scalar (.inr (.inl ⟨_,rfl⟩)) ?_ rfl rfl⟩
    simp only [elixirTermToRusqliteValue,Term.decodeI64,if_pos h]
  | float h => exact ⟨.real _,kept_scalar (.inr (.inr ⟨_,rfl⟩)) rfl rfl h⟩

theorem exists_forall₂ {α β : Type} {R : α → β → Prop} {l : List α} (h : ∀ a ∈ l, ∃ b, R a b) :
    ∃ bs, List.Forall₂ R l bs := by
  induction l with
  | nil => exact ⟨[],.nil⟩
  | cons a l ih =>
    rw [List.forall_mem_cons] at h
    obtain ⟨b,hb⟩ := h.1
    obtain ⟨bs,hbs⟩ := ih h.2
    exact ⟨b :: bs,.cons hb hbs⟩

def boundParams (L : Libraries δ) (chain : List Extension) (params : List (Elixir δ)) :
    Outcome XqliteError Single.Bound :=
  Single.decodeBound (.list ((encodeParams L params chain).map (Elixir.toTerm L)))

theorem encodeParams_bare {row : List (Elixir δ)} (h : ∀ v ∈ row, v.isPair = false) :
    encodeParams L row chain = row.map fun v => encodeValue L v chain := by
  cases chain with
  | nil => simp [encodeParams,encodeValue]
  | cons ext rest =>
    cases row with
    | nil => rfl
    | cons v row =>
      cases v with
      | pair key value => cases h _ List.mem_cons_self
      | _ => rfl

theorem encodeParams_pairs (keys : List String) (row : List (Elixir δ)) :
    encodeParams L (List.zipWith .pair keys row) chain =
      List.zipWith (fun key v => .pair key (encodeValue L v chain)) keys row := by
  cases chain with
  | nil => rfl
  | cons ext rest =>
    cases keys with
    | nil => rfl
    | cons key keys =>
      cases row with
      | nil => rfl
      | cons v row => simp [encodeParams,List.map_zipWith]

variable {row : List (Elixir δ)} {values : List Value}

theorem boundParams_positional (h : List.Forall₂ (Kept L chain) row values) (hne : row ≠ []) :
    boundParams L chain row = .ok (.positional values) := by
  have hbare : ∀ v ∈ row, v.isPair = false :=
    ((List.forall₂_and_left _ _).mp (h.imp fun _ _ hkept => ⟨hkept.bare,hkept⟩)).1
  have hterms : List.Forall₂ (fun t value => elixirTermToRusqliteValue t = .ok value)
      (row.map fun v => (encodeValue L v chain).toTerm L) values :=
    List.forall₂_map_left_iff.mpr (h.imp fun _ _ hkept => hkept.bound)
  have hitems := Statement.decodeItems_ok hterms
  rw [boundParams,encodeParams_bare hbare,List.map_map]
  cases h with
  | nil => exact absurd rfl hne
  | cons hfirst hrest =>
    have hkeyword := Statement.isKeyword_of_convertible hfirst.bound
    simp only [List.map_cons] at hitems
    simp [Single.decodeBound,Term.getType,Term.isEmptyList,hkeyword,decodePlainListParams,
      Term.listItems,Function.comp_def,hitems]

theorem boundParams_named (h : List.Forall₂ (Kept L chain) row values) {keys : List String}
    (hkeys : keys.length = row.length) (hne : row ≠ []) :
    boundParams L chain (List.zipWith .pair keys row) =
      .ok (.named (List.zipWith (fun key value => (":" ++ key,value)) keys values)) := by
  have hterms : List.Forall₂ (fun t value => decodeKeywordItem t = .ok value)
      (List.zipWith (fun key v => .tuple [.atom key,(encodeValue L v chain).toTerm L]) keys row)
      (List.zipWith (fun key value => (":" ++ key,value)) keys values) := by
    clear hne
    induction h generalizing keys with
    | nil => simp
    | cons hfirst _ ih =>
      cases keys with
      | nil => cases hkeys
      | cons key keys =>
        refine .cons ?_ (ih (Nat.succ.inj hkeys))
        simp only [decodeKeywordItem,Term.decodePair,hfirst.bound]
        rfl
  have hitems := Statement.decodeItems_ok hterms
  rw [boundParams,encodeParams_pairs,List.map_zipWith]
  cases h with
  | nil => exact absurd rfl hne
  | cons hfirst hrest =>
    cases keys with
    | nil => cases hkeys
    | cons key keys =>
      simp only [List.zipWith_cons_cons] at hitems
      simp [Single.decodeBound,Term.getType,Term.isEmptyList,isKeyword,Term.decodePair,
        decodeExecKeywordParams,Term.listItems,Elixir.toTerm,hitems]

theorem decodeRows_kept {table : List (List (Elixir δ))} {stored : List (List Value)}
    (h : List.Forall₂ (List.Forall₂ (Kept L chain)) table stored) :
    (stored.map (List.map Uuid.store)).all (fun row => row.all Row.Stored.readable) = true ∧
      decodeRows L ((stored.map (List.map Uuid.store)).map (List.map Row.Stored.term)) chain =
        table := by
  have hrow {row : List (Elixir δ)} {values : List Value}
      (h : List.Forall₂ (Kept L chain) row values) :
      (values.map Uuid.store).all Row.Stored.readable = true ∧
        ((values.map Uuid.store).map Row.Stored.term).map (fun t => decodeValue L t chain) = row := by
    induction h with
    | nil => exact ⟨rfl,rfl⟩
    | cons hfirst _ ih =>
      simp only [List.map_cons,List.all_cons,hfirst.readable,ih.1,ih.2,hfirst.back,Bool.and_self,
        and_self]
  have hdecode (rows : List (List Term)) :
      decodeRows L rows chain = rows.map (List.map fun t => decodeValue L t chain) := by
    cases chain <;> rfl
  rw [hdecode]
  induction h with
  | nil => exact ⟨rfl,rfl⟩
  | cons hfirst _ ih =>
    simp only [List.map_cons,List.all_cons,(hrow hfirst).1,(hrow hfirst).2,ih.1,ih.2,Bool.and_self,
      and_self]

end Columns

section RoundTrip
variable {δ : Type} (L : Libraries δ) (chain : List Extension)

def roundTrip (alloc : Nat → Bool) (rejected : Nat → Utf8Error → XqliteError) (v : Elixir δ) :
    Except XqliteError (Elixir δ) := do
  let value ← elixirTermToRusqliteValue ((encodeValue L v chain).toTerm L)
  let term ← Uuid.readBack alloc rejected 0 value
  pure (decodeValue L term chain)

inductive Temporal : Elixir δ → Extension → Prop
  | date {d : Date} (hd : d.Short) : Temporal (.date d) .date
  | time {t : Time} (ht : t.Canonical) : Temporal (.time t) .time
  | naiveDateTime {d : Date} {t : Time} (hd : d.Short) (ht : t.Canonical) :
      Temporal (.naiveDateTime d t) .naiveDateTime
  | dateTime {d : Date} {t : Time} (hd : d.Short) (ht : t.Canonical) :
      Temporal (.dateTime (.utc d t)) .dateTime

variable {L chain} {alloc : Nat → Bool} {rejected : Nat → Utf8Error → XqliteError}
  {v w : Elixir δ} {e : Extension}

theorem Temporal.written (h : Temporal v e) (hleads : e.Leads chain) :
    ∃ s, Written L chain v s := by
  cases h with
  | date hd => exact ⟨_,written_date hd hleads⟩
  | time ht => exact ⟨_,written_time ht hleads⟩
  | naiveDateTime hd ht => exact ⟨_,written_naive hd ht hleads⟩
  | dateTime hd ht => exact ⟨_,written_utc hd ht hleads⟩

theorem roundTrip_text (halloc : ∀ n, alloc n = true) {s : Text}
    (h : encodeValue L v chain = .term (.binary s)) :
    roundTrip L chain alloc rejected v = .ok (decodeValue L (.binary s) chain) := by
  obtain ⟨value,hbound,hpicked⟩ := Uuid.bound_binary s
  obtain ⟨hgranted,hbytes⟩ := Uuid.readBack_bound hpicked alloc rejected 0
  obtain ⟨term,hread⟩ := hgranted.mpr fun _ => halloc s.length
  rw [roundTrip,h,Elixir.toTerm,hbound]
  simp only [bind,Except.bind,hread,hbytes term hread]
  rfl

theorem roundTrip_int {n : Int} (h : encodeValue L v chain = .term (.int n))
    (hw : roundTrip L chain alloc rejected v = .ok w) : w = .term (.int n) := by
  rw [roundTrip,h,Elixir.toTerm] at hw
  simp only [elixirTermToRusqliteValue,Term.decodeI64] at hw
  by_cases hrange : -2^63 ≤ n ∧ n < 2^63
  · simp only [if_pos hrange] at hw
    have hdecoded : decodeValue L (.int n) chain = w := Except.ok.inj hw
    rw [← hdecoded,decodeValue_scalar (.inr (.inl ⟨n,rfl⟩))]
  · simp only [if_neg hrange] at hw
    cases hw

theorem roundTrip_struct {name : String} {fields : List (String × Term)}
    (hstruct : v.toTerm L = struct name fields) (h : encodeValue L v chain = v) :
    roundTrip L chain alloc rejected v ≠ .ok w := by
  rw [roundTrip,h,hstruct]
  nofun

theorem Temporal.struct (h : Temporal v e) : ∃ name fields, v.toTerm L = struct name fields := by
  cases h with
  | _ => exact ⟨_,_,rfl⟩

theorem Temporal.encode_apart (h : Temporal v e) {x : Extension} (hx : x ∉ e :: e.rivals) :
    x.encode L v = none := by
  cases h with
  | date => cases x <;> first | rfl | exact absurd (by decide) hx
  | time => cases x <;> first | rfl | exact absurd (by decide) hx
  | naiveDateTime => cases x <;> first | rfl | exact absurd (by decide) hx
  | dateTime => cases x <;> first | rfl | exact absurd (by decide) hx

theorem encode_dateTime {x : Extension} {dt : DateTime} {encoded : Term}
    (h : x.encode L (.dateTime dt) = some encoded) :
    encoded = .binary dt.toText ∨ ∃ n, encoded = .int n := by
  cases x with
  | dateTime => exact .inl (Option.some.inj h).symm
  | instant => exact .inr ⟨_,(Option.some.inj h).symm⟩
  | _ => cases h

/-- With an `Instant` in front a moment comes back as a number if at all, with a
`NaiveDateTime` in front without its time zone. -/
theorem utc_lost (halloc : ∀ n, alloc n = true) {d : Date} (hd : d.Short) {t : Time}
    (ht : t.Canonical) {r : Extension} (hr : r ∈ Extension.dateTime.rivals)
    (hfirst : chain.find? (fun x => decide (x ∈ Extension.dateTime :: Extension.dateTime.rivals)) =
      some r) :
    roundTrip L chain alloc rejected (.dateTime (.utc d t)) ≠ .ok (.dateTime (.utc d t)) := by
  intro hback
  have hint {n : Int} (h : encodeValue L (.dateTime (.utc d t)) chain = .term (.int n)) : False :=
    nomatch roundTrip_int h hback
  obtain rfl | hnaive := List.mem_cons.mp hr
  · have hnumber := findSome_of_first (f := fun x => x.encode L (.dateTime (.utc d t))) hfirst rfl
      fun x hx => (Temporal.dateTime hd ht).encode_apart hx
    have hencoded : encodeValue L (.dateTime (.utc d t)) chain =
        .term (.int ((DateTime.utc d t).instant.toUnix 1000000000)) := by
      rw [encodeValue_eq,hnumber]
      rfl
    exact hint hencoded
  · obtain rfl := List.mem_singleton.mp hnaive
    cases hencode : chain.findSome? fun x => x.encode L (.dateTime (.utc d t)) with
    | none =>
      refine roundTrip_struct rfl ?_ hback
      rw [encodeValue_eq,hencode]
      rfl
    | some encoded =>
      have hencoded : encodeValue L (.dateTime (.utc d t)) chain = .term encoded := by
        rw [encodeValue_eq,hencode]
        rfl
      obtain ⟨x,-,hclaim⟩ := List.exists_of_findSome?_eq_some hencode
      obtain rfl | ⟨n,rfl⟩ := encode_dateTime hclaim
      · -- The text is read by `NaiveDateTime`, which drops the offset.
        have hread : Extension.naiveDateTime.decode L (.binary (naiveToText d t ++ [letterZ])) =
            some (.naiveDateTime d t) := by
          rw [Extension.decode_naiveDateTime,parseNaive_toText L.zone hd ht (.inr rfl)]
          rfl
        have hdecode := findSome_of_first hfirst hread fun x hx =>
          decode_momentText hd t [letterZ] fun hmem => hx (moment_mem hmem)
        rw [utc_toText] at hencoded
        rw [roundTrip_text halloc hencoded,decodeValue_eq,hdecode] at hback
        cases hback
      · exact hint hencoded

end RoundTrip

section Sample

/-- No offset but `Z`, and the empty list in JSON. -/
def plainLibraries : Libraries Empty where
  zone :=
    { offset := fun s => if s = [] then some none else if s = [letterZ] then some (some 0) else none
      shift := fun offset moment => if offset = 0 then some moment else none
      offset_nil := rfl
      offset_zulu := rfl
      shift_zero := fun _ => rfl }
  jasonEncode := fun t =>
    match t with
    | .list [] => some (utf8 "[]")
    | _ => none
  jasonDecode := fun s => if s = utf8 "[]" then some (.list []) else none
  jasonEncode_head := by
    intro t s h _
    split at h
    · cases h
      exact ⟨leftBracket,[93],rfl,.inl rfl⟩
    · cases h
  decimalToString := Empty.elim
  decimalFields := Empty.elim

def leapDay : Date := ⟨2024,2,29,by decide⟩

def evening : Time := ⟨23,59,58,120000,2,by decide⟩

end Sample

section Results
variable {δ : Type} (L : Libraries δ) (chain : List Extension)

/-- A date or a time comes back from its column unchanged exactly if its extension is in the
chain, and for a moment exactly if `DateTime` stands before `Instant` and `NaiveDateTime`. -/
theorem temporal_survives_iff {alloc : Nat → Bool} (halloc : ∀ n, alloc n = true)
    (rejected : Nat → Utf8Error → XqliteError) {v : Elixir δ} {e : Extension}
    (h : Temporal v e) : roundTrip L chain alloc rejected v = .ok v ↔ e.Leads chain := by
  constructor
  · intro hback
    cases hfirst : chain.find? (fun x => decide (x ∈ e :: e.rivals)) with
    | none =>
      have hnone : chain.findSome? (fun x => x.encode L v) = none := by
        refine List.findSome?_eq_none_iff.mpr fun x hx => h.encode_apart ?_
        simpa using List.find?_eq_none.mp hfirst x hx
      obtain ⟨name,fields,hstruct⟩ := h.struct (L := L)
      refine absurd hback (roundTrip_struct hstruct ?_)
      rw [encodeValue_eq,hnone]
      rfl
    | some r =>
      have hr : r ∈ e :: e.rivals := by simpa using List.find?_some hfirst
      obtain rfl | hr := List.mem_cons.mp hr
      · exact hfirst
      · -- Only moments have rivals.
        cases h with
        | dateTime hd ht => exact absurd hback (utc_lost halloc hd ht hr hfirst)
        | _ => cases hr
  · intro hleads
    obtain ⟨s,hwritten⟩ := h.written hleads
    rw [roundTrip_text halloc hwritten.encoded,hwritten.decoded]

/-- A moment in UTC, with the two extensions in either order. -/
theorem temporal_survives_ordered :
    roundTrip plainLibraries [.dateTime,.naiveDateTime] (fun _ => true)
        (fun i e => .utf8Error i e.toText) (.dateTime (.utc leapDay evening)) =
      .ok (.dateTime (.utc leapDay evening)) ∧
    roundTrip plainLibraries [.naiveDateTime,.dateTime] (fun _ => true)
        (fun i e => .utf8Error i e.toText) (.dateTime (.utc leapDay evening)) ≠
      .ok (.dateTime (.utc leapDay evening)) := by
  have hmoment : Temporal (δ := Empty) (.dateTime (.utc leapDay evening)) .dateTime :=
    .dateTime (by decide) (by decide)
  constructor
  · exact (temporal_survives_iff plainLibraries _ (fun _ => rfl) _ hmoment).mpr (by decide)
  · intro hback
    exact absurd ((temporal_survives_iff plainLibraries _ (fun _ => rfl) _ hmoment).mp hback)
      (by decide)

/-- Whatever the chain, rows of values it carries are bound, by position or by name, and come
back from the columns as they were. -/
theorem table_survives_chain (table : List (List (Elixir δ)))
    (h : ∀ row ∈ table, ∀ v ∈ row, Carried L chain v) :
    ∃ stored : List (List Value),
      List.Forall₂ (fun row values => row ≠ [] →
        boundParams L chain row = .ok (.positional values) ∧
        ∀ keys : List String, keys.length = row.length →
          boundParams L chain (List.zipWith .pair keys row) =
            .ok (.named (List.zipWith (fun key value => (":" ++ key,value)) keys values)))
        table stored ∧
      ∀ (alloc : Nat → Bool) (rejected : Nat → Utf8Error → XqliteError),
        (∀ n, alloc n = true) →
        ∃ rows, Row.processRows alloc rejected ((stored.map (List.map Uuid.store)).map .ok) =
            .ok rows ∧
          decodeRows L rows chain = table := by
  have hkept : ∀ row ∈ table, ∃ values, List.Forall₂ (Kept L chain) row values :=
    fun row hrow => exists_forall₂ fun v hv => (h row hrow v hv).kept
  obtain ⟨stored,hstored⟩ := exists_forall₂ hkept
  obtain ⟨hreadable,hback⟩ := decodeRows_kept hstored
  refine ⟨stored,hstored.imp ?_,?_⟩
  · intro row values hrow hne
    exact ⟨boundParams_positional hrow hne,fun keys hkeys => boundParams_named hrow hkeys hne⟩
  · intro alloc rejected halloc
    have hread := Row.processRows_toOption halloc rejected (stored.map (List.map Uuid.store))
    rw [if_pos hreadable] at hread
    cases hrows : Row.processRows alloc rejected ((stored.map (List.map Uuid.store)).map .ok) with
    | error e =>
      rw [hrows] at hread
      cases hread
    | ok rows =>
      rw [hrows] at hread
      cases hread
      exact ⟨_,rfl,hback⟩

def everyday : List Extension := [.uuid,.date,.dateTime,.naiveDateTime,.time,.json]

def diary : List (List (Elixir Empty)) :=
  [[.term (.int 1),.date leapDay,.time evening,.term (.list [])],
    [.term (.atom "nil"),.dateTime (.utc leapDay evening),.naiveDateTime leapDay evening,
      .term (.binary (utf8 "61626364-6566-6768-696a-6b6c6d6e6f70"))]]

theorem diary_survives : ∃ stored : List (List Value),
    ∀ (alloc : Nat → Bool) (rejected : Nat → Utf8Error → XqliteError), (∀ n, alloc n = true) →
      ∃ rows, Row.processRows alloc rejected ((stored.map (List.map Uuid.store)).map .ok) =
          .ok rows ∧
        decodeRows plainLibraries rows everyday = diary := by
  have huuid : Uuid.IsUuid (utf8 "61626364-6566-6768-696a-6b6c6d6e6f70") :=
    ⟨utf8 "61626364",utf8 "6566",utf8 "6768",utf8 "696a",utf8 "6b6c6d6e6f70",rfl,rfl,rfl,rfl,rfl,
      rfl,by decide⟩
  have hcarried : ∀ row ∈ diary, ∀ v ∈ row, Carried plainLibraries everyday v := by
    simp only [diary,List.forall_mem_cons,List.not_mem_nil,false_imp_iff,implies_true,and_true]
    refine ⟨⟨?_,?_,?_,?_⟩,?_,?_,?_,?_⟩
    · exact .int (by decide)
    · exact .date (by decide) (by decide)
    · exact .time (by decide) (by decide)
    · exact .json (s := utf8 "[]") rfl rfl (.inr (by decide))
    · exact .nil
    · exact .dateTime (by decide) (by decide) (by decide)
    · exact .naiveDateTime (by decide) (by decide) (by decide)
    · exact .uuid huuid (by decide) (by decide)
  obtain ⟨stored,-,hback⟩ := table_survives_chain plainLibraries everyday diary hcarried
  exact ⟨stored,hback⟩

end Results

end Xqlite.TypeChain

import Xqlite.DefaultGrammar
set_option autoImplicit false

namespace Xqlite.Default
open Split Radix Ascii
open Prepare (isWhitespace)

def boolKeyword : Bool → String
  | true => "TRUE"
  | false => "FALSE"

def CurrentKind.keyword : CurrentKind → String
  | .time => "CURRENT_TIME"
  | .date => "CURRENT_DATE"
  | .timestamp => "CURRENT_TIMESTAMP"

inductive Literal : Text → DefaultValue → Prop where
  | null {t : Text} (h : eqIgnoreAsciiCase t "NULL" = true) : Literal t .literalNull
  | bool {t : Text} (b : Bool) (h : eqIgnoreAsciiCase t (boolKeyword b) = true) :
      Literal t (.literalBool b)
  | current {t : Text} (kind : CurrentKind) (h : eqIgnoreAsciiCase t kind.keyword = true) :
      Literal t (.current kind)
  | text (x : Text) : Literal (quoteText x) (.literalText x)
  | blob {x : Char} (hx : x ∈ ['x','X']) {hex : Text} {bytes : List UInt8}
      (h : hex.map Char.toLower = hexText bytes) :
      Literal (x :: '\'' :: (hex ++ ['\''])) (.blob bytes)
  | decimal (sign : Sign) {ds : Text} {v : Int} (hne : ds ≠ [])
      (h : ds.all Char.isDigit = true) (hv : sqliteDecimal sign ds = some v) :
      Literal (sign.text ++ ds) (.literalInt v)
  | hex (sign : Sign) {x : Char} (hx : x ∈ ['x','X']) {hs : Text} {v : Int} (hne : hs ≠ [])
      (h : hs.all isHexDigit = true) (hv : sqliteHex sign hs = some v) :
      Literal (sign.text ++ '0' :: x :: hs) (.literalInt v)
  | float {t : Text} {f : UInt64} (h : FloatShape t) (hf : parseF64 t = some f) :
      Literal t (.literalFloat f)

theorem literal_text_iff {t x : Text} : Literal t (.literalText x) ↔ t = quoteText x := by
  constructor
  · intro h
    cases h
    rfl
  · rintro rfl
    exact .text x

theorem literal_blob_iff {t : Text} {bytes : List UInt8} :
    Literal t (.blob bytes) ↔ parseBlobLiteral t = some bytes := by
  rw [parseBlobLiteral_eq_some]
  constructor
  · intro h
    cases h with
    | blob hx h => exact ⟨_,hx,_,rfl,h⟩
  · rintro ⟨x,hx,hex,rfl,h⟩
    exact .blob hx h

theorem literal_int_iff {t : Text} {v : Int} :
    Literal t (.literalInt v) ↔ looksLikeInt t = true ∧ parseIntLiteral t = some v := by
  constructor
  · intro h
    rw [looksLikeInt_iff]
    cases h with
    | decimal sign hne h hv =>
      exact ⟨⟨sign,_,rfl,.decimal hne h⟩,by rw [parseIntLiteral_decimal sign hne h,hv]⟩
    | hex sign hx hne h hv =>
      exact ⟨⟨sign,_,rfl,.hex hx hne h⟩,by rw [parseIntLiteral_hex sign hx hne h,hv]⟩
  · rintro ⟨hint,hv⟩
    obtain ⟨sign,body,rfl,hbody⟩ := (looksLikeInt_iff t).mp hint
    cases hbody with
    | decimal hne h =>
      rw [parseIntLiteral_decimal sign hne h] at hv
      exact .decimal sign hne h hv
    | hex hx hne h =>
      rw [parseIntLiteral_hex sign hx hne h] at hv
      exact .hex sign hx hne h hv

theorem literal_float_iff {t : Text} {f : UInt64} :
    Literal t (.literalFloat f) ↔ FloatShape t ∧ parseF64 t = some f := by
  constructor
  · intro h
    cases h with
    | float h hf => exact ⟨h,hf⟩
  · rintro ⟨h,hf⟩
    exact .float h hf

theorem literal_null_iff {t : Text} :
    Literal t .literalNull ↔ eqIgnoreAsciiCase t "NULL" = true := by
  constructor
  · intro h
    cases h with
    | null h => exact h
  · exact .null

theorem literal_bool_iff {t : Text} {b : Bool} :
    Literal t (.literalBool b) ↔ eqIgnoreAsciiCase t (boolKeyword b) = true := by
  constructor
  · intro h
    cases h with
    | bool b h => exact h
  · exact .bool b

theorem literal_current_iff {t : Text} {kind : CurrentKind} :
    Literal t (.current kind) ↔ eqIgnoreAsciiCase t kind.keyword = true := by
  constructor
  · intro h
    cases h with
    | current kind h => exact h
  · exact .current kind

theorem not_literal_expr {t e : Text} : ¬ Literal t (.expr e) := by
  intro h
  cases h

theorem parseFloatLiteral_eq_some {t : Text} {f : UInt64} :
    parseFloatLiteral t = some f ↔ FloatShape t ∧ parseF64 t = some f := by
  rw [parseFloatLiteral,← floatShaped_iff]
  simp

/-- Hexadecimal digits and decimal ones leave no room for a point or an exponent. -/
theorem not_floatShape_of_int {t : Text} (h : looksLikeInt t = true) : ¬ FloatShape t := by
  obtain ⟨sign,body,rfl,hbody⟩ := (looksLikeInt_iff t).mp h
  rw [← floatShaped_iff,floatShaped,stripSign_text sign hbody.unsigned]
  cases hbody with
  | decimal hne h =>
    have hmark := cutAt_eq_none.mpr (Mantissa.whole h hne).no_mark
    have hpoint : '.' ∉ body := by
      intro hmem
      have := no_point_of_digits h '.' hmem
      cases this
    simp [hmark,hpoint]
  | @hex x hs hx hne h =>
    have hxfacts : isExponentMark x = false ∧ x.isDigit = false ∧ x ≠ '.' := by
      rcases List.mem_pair.mp hx with rfl | rfl <;> decide
    -- The letter behind the zero belongs to no mantissa.
    have hno : ∀ m, x ∈ m → mantissaOk m = false := by
      intro m hmem
      rw [← Bool.not_eq_true,mantissaOk_iff]
      intro hm
      rcases hm.mem hmem with hdigit | hpoint
      · rw [hxfacts.2.1] at hdigit
        cases hdigit
      · exact hxfacts.2.2 hpoint
    cases hcut : cutAt isExponentMark ('0' :: x :: hs) with
    | none => simp [hno ('0' :: x :: hs) (by simp)]
    | some r =>
      obtain ⟨c,hc,hbody,_⟩ := cutAt_eq_some.mp hcut
      have hmem : x ∈ r.1 := by
        cases hm : r.1 with
        | nil =>
          obtain ⟨rfl,_⟩ : '0' = c ∧ _ := by simpa [hm] using hbody
          cases hc
        | cons d m =>
          cases m with
          | nil =>
            obtain ⟨_,rfl,_⟩ : '0' = d ∧ x = c ∧ _ := by simpa [hm] using hbody
            rw [hxfacts.1] at hc
            cases hc
          | cons d' m =>
            obtain ⟨_,rfl,_⟩ : '0' = d ∧ x = d' ∧ _ := by simpa [hm] using hbody
            simp
      simp [hno r.1 hmem]

inductive Lead where
  | null | bool | current | text | blob | number
  deriving DecidableEq, Repr

def leadOf (c : Char) : Lead :=
  if c.toLower = 'n' then .null
  else if c.toLower = 't' ∨ c.toLower = 'f' then .bool
  else if c.toLower = 'c' then .current
  else if c.toLower = '\'' then .text
  else if c.toLower = 'x' then .blob
  else .number

def DefaultValue.lead : DefaultValue → Option Lead
  | .none | .expr _ => Option.none
  | .literalNull => some .null
  | .literalBool _ => some .bool
  | .literalInt _ | .literalFloat _ => some .number
  | .literalText _ => some .text
  | .blob _ => some .blob
  | .current _ => some .current

theorem lead_keyword {t : Text} {keyword : String} (h : eqIgnoreAsciiCase t keyword = true) :
    t.head?.map leadOf = keyword.toList.head?.map leadOf := by
  have hmap : t.map Char.toLower = keyword.toList.map Char.toLower := of_decide_eq_true h
  have hhead := congrArg List.head? hmap
  rw [List.head?_map,List.head?_map] at hhead
  cases ht : t.head? with
  | none => simpa [ht] using hhead
  | some c =>
    cases hk : keyword.toList.head? with
    | none => simp [ht,hk] at hhead
    | some d =>
      have hlow : c.toLower = d.toLower := by simpa [ht,hk] using hhead
      simp [leadOf,hlow]

theorem leadOf_number {c : Char} (h : c.toNat < 39 ∨ 40 ≤ c.toNat ∧ c.toNat < 65) :
    leadOf c = .number := by
  have hlow : c.toLower = c := toLower_of_not_upper (by omega)
  have hne : ∀ d : Char, d.toNat = 39 ∨ 65 ≤ d.toNat → c ≠ d := by
    intro d hd heq
    rw [heq] at h
    omega
  simp only [leadOf,hlow,hne 'n' (by decide),hne 't' (by decide),hne 'f' (by decide),
    hne 'c' (by decide),hne '\'' (by decide),hne 'x' (by decide),or_self,if_false]

theorem lead_signed (sign : Sign) {body : Text} (hne : body ≠ [])
    (h : ∀ c ∈ body.head?, c.isDigit = true ∨ c = '.') :
    (sign.text ++ body).head?.map leadOf = some .number := by
  cases sign with
  | none =>
    cases body with
    | nil => exact absurd rfl hne
    | cons c rest =>
      have hc : leadOf c = .number := by
        rcases h c rfl with hdigit | rfl
        · have := (isDigit_iff c).mp hdigit
          exact leadOf_number (by omega)
        · decide
      simp [Sign.text,hc]
  | plus => simp [Sign.text,show leadOf '+' = .number by decide]
  | minus => simp [Sign.text,show leadOf '-' = .number by decide]

theorem Literal.lead {t : Text} {v : DefaultValue} (h : Literal t v) :
    t.head?.map leadOf = v.lead := by
  cases h with
  | null h => exact (lead_keyword h).trans (by decide)
  | bool b h =>
    refine (lead_keyword h).trans ?_
    cases b <;> decide
  | current kind h =>
    refine (lead_keyword h).trans ?_
    cases kind <;> decide
  | text x => exact (show some (leadOf '\'') = some .text by decide)
  | blob hx h =>
    rcases List.mem_pair.mp hx with rfl | rfl
    · exact (show some (leadOf 'x') = some .blob by decide)
    · exact (show some (leadOf 'X') = some .blob by decide)
  | decimal sign hne h hv =>
    refine lead_signed sign hne ?_
    intro c hc
    exact .inl (List.all_eq_true.mp h c (List.mem_of_mem_head? hc))
  | hex sign hx hne h hv =>
    refine lead_signed sign (by simp) ?_
    intro c hc
    obtain rfl : '0' = c := Option.some.inj hc
    exact .inl rfl
  | float h hf =>
    obtain ⟨sign,m,x,rfl,hm,_⟩ := h
    refine lead_signed sign (by simp [hm.ne_nil]) ?_
    intro c hc
    rw [List.head?_append_of_ne_nil _ hm.ne_nil] at hc
    exact hm.mem (List.mem_of_mem_head? hc)

theorem keyword_unique {t : Text} {k k' : String} (h : eqIgnoreAsciiCase t k = true)
    (h' : eqIgnoreAsciiCase t k' = true) :
    k.toList.map Char.toLower = k'.toList.map Char.toLower := by
  have hk : t.map Char.toLower = k.toList.map Char.toLower := of_decide_eq_true h
  have hk' : t.map Char.toLower = k'.toList.map Char.toLower := of_decide_eq_true h'
  rw [← hk,← hk']

theorem literal_unique {t : Text} {v w : DefaultValue} (hv : Literal t v) (hw : Literal t w) :
    v = w := by
  have hlead : v.lead = w.lead := hv.lead.symm.trans hw.lead
  have hintfloat : ∀ {i f}, Literal t (.literalInt i) → ¬ Literal t (.literalFloat f) := by
    intro i f hi hf
    exact not_floatShape_of_int (literal_int_iff.mp hi).1 (literal_float_iff.mp hf).1
  cases v with
  | none => cases hv
  | expr s => cases hv
  | literalNull => cases w <;> first | rfl | cases hlead
  | literalBool b =>
    cases w with
    | literalBool b' =>
      have hk := keyword_unique (literal_bool_iff.mp hv) (literal_bool_iff.mp hw)
      cases b <;> cases b' <;> first | rfl | exact absurd hk (by decide)
    | _ => cases hlead
  | current kind =>
    cases w with
    | current kind' =>
      have hk := keyword_unique (literal_current_iff.mp hv) (literal_current_iff.mp hw)
      cases kind <;> cases kind' <;> first | rfl | exact absurd hk (by decide)
    | _ => cases hlead
  | literalText x =>
    cases w with
    | literalText x' =>
      have hx := parseTextLiteral_eq_some.mpr (literal_text_iff.mp hv)
      have hx' := parseTextLiteral_eq_some.mpr (literal_text_iff.mp hw)
      rw [Option.some.inj (hx.symm.trans hx')]
    | _ => cases hlead
  | blob bytes =>
    cases w with
    | blob bytes' =>
      rw [Option.some.inj ((literal_blob_iff.mp hv).symm.trans (literal_blob_iff.mp hw))]
    | _ => cases hlead
  | literalInt i =>
    cases w with
    | literalInt i' =>
      rw [Option.some.inj ((literal_int_iff.mp hv).2.symm.trans (literal_int_iff.mp hw).2)]
    | literalFloat f => exact absurd hw (hintfloat hv)
    | _ => cases hlead
  | literalFloat f =>
    cases w with
    | literalFloat f' =>
      rw [Option.some.inj ((literal_float_iff.mp hv).2.symm.trans (literal_float_iff.mp hw).2)]
    | literalInt i => exact absurd hv (hintfloat hw)
    | _ => cases hlead

def keyword (k : String) (v : DefaultValue) (t : Text) : Option DefaultValue :=
  if eqIgnoreAsciiCase t k then some v else none

/-- The tests of `classify_default` in its order. -/
def recognisers : List (Text → Option DefaultValue) :=
  [keyword "NULL" .literalNull,keyword "TRUE" (.literalBool true),
    keyword "FALSE" (.literalBool false),keyword "CURRENT_TIME" (.current .time),
    keyword "CURRENT_DATE" (.current .date),keyword "CURRENT_TIMESTAMP" (.current .timestamp),
    fun t => (parseTextLiteral t).map .literalText,fun t => (parseBlobLiteral t).map .blob,
    fun t => if looksLikeInt t then (parseIntLiteral t).map .literalInt else none,
    fun t => (parseFloatLiteral t).map .literalFloat]

theorem keyword_eq_some {k : String} {v w : DefaultValue} {t : Text} :
    keyword k v t = some w ↔ eqIgnoreAsciiCase t k = true ∧ v = w := by
  unfold keyword
  split_ifs with h <;> simp [h]

theorem literal_iff_recognised {t : Text} {v : DefaultValue} :
    Literal t v ↔ ∃ r ∈ recognisers, r t = some v := by
  constructor
  · intro h
    cases v with
    | none => cases h
    | expr s => cases h
    | literalNull =>
      exact ⟨keyword "NULL" .literalNull,by simp [recognisers],
        keyword_eq_some.mpr ⟨literal_null_iff.mp h,rfl⟩⟩
    | literalBool b =>
      refine ⟨keyword (boolKeyword b) (.literalBool b),?_,
        keyword_eq_some.mpr ⟨literal_bool_iff.mp h,rfl⟩⟩
      cases b <;> simp [recognisers,boolKeyword]
    | current kind =>
      refine ⟨keyword kind.keyword (.current kind),?_,
        keyword_eq_some.mpr ⟨literal_current_iff.mp h,rfl⟩⟩
      cases kind <;> simp [recognisers,CurrentKind.keyword]
    | literalText x =>
      refine ⟨fun t => (parseTextLiteral t).map .literalText,by simp [recognisers],?_⟩
      simp [parseTextLiteral_eq_some.mpr (literal_text_iff.mp h)]
    | blob bytes =>
      refine ⟨fun t => (parseBlobLiteral t).map .blob,by simp [recognisers],?_⟩
      simp [literal_blob_iff.mp h]
    | literalInt i =>
      refine ⟨fun t => if looksLikeInt t then (parseIntLiteral t).map .literalInt else none,
        by simp [recognisers],?_⟩
      simp [literal_int_iff.mp h]
    | literalFloat f =>
      refine ⟨fun t => (parseFloatLiteral t).map .literalFloat,by simp [recognisers],?_⟩
      simp [parseFloatLiteral_eq_some.mpr (literal_float_iff.mp h)]
  · intro h
    obtain ⟨r,hr,h⟩ := h
    simp only [recognisers,List.mem_cons,List.not_mem_nil,or_false] at hr
    rcases hr with rfl | rfl | rfl | rfl | rfl | rfl | rfl | rfl | rfl | rfl
    · obtain ⟨hk,rfl⟩ := keyword_eq_some.mp h
      exact .null hk
    · obtain ⟨hk,rfl⟩ := keyword_eq_some.mp h
      exact .bool true hk
    · obtain ⟨hk,rfl⟩ := keyword_eq_some.mp h
      exact .bool false hk
    · obtain ⟨hk,rfl⟩ := keyword_eq_some.mp h
      exact .current .time hk
    · obtain ⟨hk,rfl⟩ := keyword_eq_some.mp h
      exact .current .date hk
    · obtain ⟨hk,rfl⟩ := keyword_eq_some.mp h
      exact .current .timestamp hk
    · obtain ⟨x,hx,rfl⟩ := Option.map_eq_some_iff.mp h
      exact literal_text_iff.mpr (parseTextLiteral_eq_some.mp hx)
    · obtain ⟨bytes,hb,rfl⟩ := Option.map_eq_some_iff.mp h
      exact literal_blob_iff.mpr hb
    · simp only [Option.ite_none_right_eq_some,Option.map_eq_some_iff] at h
      obtain ⟨hint,i,hi,rfl⟩ := h
      exact literal_int_iff.mpr ⟨hint,hi⟩
    · obtain ⟨f,hf,rfl⟩ := Option.map_eq_some_iff.mp h
      exact literal_float_iff.mpr (parseFloatLiteral_eq_some.mp hf)

/-- In whatever order they are made, the tests find the literal if there is one. -/
theorem findSome_order {order : List (Text → Option DefaultValue)} (horder : order.Perm recognisers)
    (t : Text) {v : DefaultValue} : (order.findSome? fun r => r t) = some v ↔ Literal t v := by
  rw [literal_iff_recognised]
  constructor
  · intro h
    obtain ⟨r,hr,hv⟩ := List.exists_of_findSome?_eq_some h
    exact ⟨r,horder.mem_iff.mp hr,hv⟩
  · intro h
    obtain ⟨r,hr,hv⟩ := h
    have hsome : (order.findSome? fun r => r t).isSome = true :=
      List.findSome?_isSome_iff.mpr ⟨r,horder.mem_iff.mpr hr,by simp [hv]⟩
    obtain ⟨w,hw⟩ := Option.isSome_iff_exists.mp hsome
    obtain ⟨r',hr',hw'⟩ := List.exists_of_findSome?_eq_some hw
    have hvw : v = w := literal_unique (literal_iff_recognised.mpr ⟨r,hr,hv⟩)
      (literal_iff_recognised.mpr ⟨r',horder.mem_iff.mp hr',hw'⟩)
    rw [hw,hvw]

theorem findSome_keyword (k : String) (v : DefaultValue) (rs : List (Text → Option DefaultValue))
    (t : Text) :
    ((keyword k v :: rs).findSome? fun r => r t) =
      if eqIgnoreAsciiCase t k then some v else rs.findSome? fun r => r t := by
  rw [List.findSome?_cons,keyword]
  split_ifs <;> rfl

/-- An integer beyond 64 bits is an expression at once, and it is no float. -/
theorem classifyDefault_eq (s : Text) :
    classifyDefault (some s) = (recognisers.findSome? fun r => r (trim s)).getD (.expr s) := by
  have hfloat : looksLikeInt (trim s) = true → parseFloatLiteral (trim s) = none := by
    intro h
    rw [Option.eq_none_iff_forall_ne_some]
    intro f hf
    exact not_floatShape_of_int h (parseFloatLiteral_eq_some.mp hf).1
  simp only [classifyDefault,recognisers,findSome_keyword]
  split_ifs with h1 h2 h3 h4 h5 h6 hint
  · rfl
  · rfl
  · rfl
  · rfl
  · rfl
  · rfl
  · cases htext : parseTextLiteral (trim s) with
    | some x => simp [htext]
    | none =>
      cases hblob : parseBlobLiteral (trim s) with
      | some bytes => simp [htext,hblob]
      | none => cases hi : parseIntLiteral (trim s) <;> simp [htext,hblob,hint,hi,hfloat hint]
  · cases htext : parseTextLiteral (trim s) with
    | some x => simp [htext]
    | none =>
      cases hblob : parseBlobLiteral (trim s) with
      | some bytes => simp [htext,hblob]
      | none => cases hf : parseFloatLiteral (trim s) <;> simp [htext,hblob,hint,hf]

/-- A text is classified as the literal it is, or as an expression if it is none. -/
theorem classifyDefault_iff (s : Text) (v : DefaultValue) :
    classifyDefault (some s) = v ↔
      Literal (trim s) v ∨ (v = .expr s ∧ ∀ w, ¬ Literal (trim s) w) := by
  rw [classifyDefault_eq]
  cases h : recognisers.findSome? fun r => r (trim s) with
  | none =>
    have hno : ∀ w, ¬ Literal (trim s) w := by
      intro w hw
      rw [(findSome_order (List.Perm.refl _) (trim s)).mpr hw] at h
      cases h
    rw [Option.getD_none]
    constructor
    · intro hv
      exact .inr ⟨hv.symm,hno⟩
    · intro hv
      rcases hv with hv | hv
      · exact absurd hv (hno v)
      · exact hv.1.symm
  | some w =>
    have hw := (findSome_order (List.Perm.refl _) (trim s)).mp h
    rw [Option.getD_some]
    constructor
    · intro hv
      rw [← hv]
      exact .inl hw
    · intro hv
      rcases hv with hv | hv
      · exact literal_unique hw hv
      · exact absurd hw (hv.2 w)

theorem isWhitespace_graphic {c : Char} (h : 33 ≤ c.toNat ∧ c.toNat < 128) :
    isWhitespace c = false := by
  simp only [isWhitespace]
  grind

theorem trim_eq_self {t : Text} (hhead : ∀ c ∈ t.head?, isWhitespace c = false)
    (hlast : ∀ c ∈ t.getLast?, isWhitespace c = false) : trim t = t := by
  have hdrop : t.dropWhile isWhitespace = t := by
    cases t with
    | nil => rfl
    | cons c rest => simp [hhead c rfl]
  rw [trim,hdrop,List.rdropWhile_eq_self_iff]
  intro hne
  simp [hlast (t.getLast hne) (List.getLast?_eq_some_getLast hne)]

theorem trim_between {c d : Char} (hc : isWhitespace c = false) (hd : isWhitespace d = false)
    (mid : Text) : trim (c :: (mid ++ [d])) = c :: (mid ++ [d]) := by
  refine trim_eq_self ?_ ?_
  · intro e he
    rw [← Option.some.inj he]
    exact hc
  · intro e he
    rw [← List.cons_append,List.getLast?_concat] at he
    rw [← Option.some.inj he]
    exact hd

theorem trim_quoteText (x : Text) : trim (quoteText x) = quoteText x :=
  trim_between (by decide) (by decide) _

theorem trim_blob {x : Char} (hx : x ∈ ['x','X']) (hex : Text) :
    trim (x :: '\'' :: (hex ++ ['\''])) = x :: '\'' :: (hex ++ ['\'']) := by
  have hblank : isWhitespace x = false := by
    rcases List.mem_pair.mp hx with rfl | rfl <;> decide
  exact trim_between hblank (by decide) ('\'' :: hex)

theorem hexDigit_range {c : Char} (h : isHexDigit c = true) : 48 ≤ c.toNat ∧ c.toNat ≤ 122 := by
  obtain ⟨d,hd⟩ := Option.isSome_iff_exists.mp h
  simp only [toDigit,Option.filter_eq_some_iff,isDigit_iff] at hd
  obtain ⟨hd,_⟩ := hd
  split_ifs at hd <;> omega

theorem trim_int (sign : Sign) {body : Text} (h : IntBody body) :
    trim (sign.text ++ body) = sign.text ++ body := by
  have hall : ∀ c ∈ sign.text ++ body, isWhitespace c = false := by
    intro c hc
    apply isWhitespace_graphic
    rcases List.mem_append.mp hc with hmem | hmem
    · cases sign with
      | none => cases hmem
      | plus =>
        obtain rfl := List.mem_singleton.mp hmem
        decide
      | minus =>
        obtain rfl := List.mem_singleton.mp hmem
        decide
    · cases h with
      | decimal hne h =>
        have := (isDigit_iff c).mp (List.all_eq_true.mp h c hmem)
        omega
      | hex hx hne h =>
        rcases List.mem_cons.mp hmem with rfl | hmem
        · decide
        · rcases List.mem_cons.mp hmem with rfl | hmem
          · rcases List.mem_pair.mp hx with rfl | rfl <;> decide
          · have := hexDigit_range (List.all_eq_true.mp h c hmem)
            omega
  refine trim_eq_self ?_ ?_
  · intro c hc
    exact hall c (List.mem_of_mem_head? hc)
  · intro c hc
    exact hall c (List.mem_of_getLast? hc)

def blobText (bytes : List UInt8) : Text := 'x' :: '\'' :: (hexText bytes ++ ['\''])

theorem hexText_lower (bytes : List UInt8) : (hexText bytes).map Char.toLower = hexText bytes := by
  have hdigit : ∀ d < 16, (Nat.digitChar d).toLower = Nat.digitChar d := by decide
  induction bytes with
  | nil => rfl
  | cons b bytes ih =>
    have hb := b.toNat_lt
    have hcons : hexText (b :: bytes) =
        Nat.digitChar (b.toNat / 16) :: Nat.digitChar (b.toNat % 16) :: hexText bytes := rfl
    rw [hcons,List.map_cons,List.map_cons,ih,hdigit _ (by omega),hdigit _ (by omega)]

/-- The classification is the grammar of the DEFAULT clause. -/
theorem default_literals_exact (s : Text) :
    (∀ x, classifyDefault (some s) = .literalText x ↔ trim s = quoteText x) ∧
    (∀ bytes, classifyDefault (some s) = .blob bytes ↔
      ∃ x ∈ ['x','X'], ∃ hex, trim s = x :: '\'' :: (hex ++ ['\'']) ∧
        hex.map Char.toLower = hexText bytes) ∧
    (classifyDefault (some s) = .literalNull ↔ eqIgnoreAsciiCase (trim s) "NULL" = true) ∧
    (∀ b, classifyDefault (some s) = .literalBool b ↔
      eqIgnoreAsciiCase (trim s) (boolKeyword b) = true) ∧
    (∀ kind, classifyDefault (some s) = .current kind ↔
      eqIgnoreAsciiCase (trim s) kind.keyword = true) ∧
    (∀ f, classifyDefault (some s) = .literalFloat f ↔
      FloatShape (trim s) ∧ parseF64 (trim s) = some f) ∧
    (∀ e, classifyDefault (some s) = .expr e ↔ e = s ∧ ∀ v, ¬ Literal (trim s) v) ∧
    (∀ v w, Literal (trim s) v → Literal (trim s) w → v = w) ∧
    (∀ order : List (Text → Option DefaultValue), order.Perm recognisers →
      (order.findSome? fun r => r (trim s)).getD (.expr s) = classifyDefault (some s)) ∧
    classifyDefault (some (quoteText s)) = .literalText s ∧
    ∀ bytes, classifyDefault (some (blobText bytes)) = .blob bytes := by
  have hclass : ∀ v, (∀ e, v ≠ .expr e) → (classifyDefault (some s) = v ↔ Literal (trim s) v) := by
    intro v hv
    rw [classifyDefault_iff]
    exact or_iff_left fun h => hv s h.1
  refine ⟨?_,?_,?_,?_,?_,?_,?_,fun v w hv hw => literal_unique hv hw,?_,?_,?_⟩
  · intro x
    rw [hclass _ (by simp),literal_text_iff]
  · intro bytes
    rw [hclass _ (by simp),literal_blob_iff,parseBlobLiteral_eq_some]
  · rw [hclass _ (by simp),literal_null_iff]
  · intro b
    rw [hclass _ (by simp),literal_bool_iff]
  · intro kind
    rw [hclass _ (by simp),literal_current_iff]
  · intro f
    rw [hclass _ (by simp),literal_float_iff]
  · intro e
    rw [classifyDefault_iff,DefaultValue.expr.injEq]
    constructor
    · intro h
      rcases h with h | h
      · exact absurd h not_literal_expr
      · exact h
    · intro h
      exact .inr h
  · intro order horder
    rw [classifyDefault_eq]
    congr 1
    refine Option.ext ?_
    intro v
    rw [findSome_order horder,findSome_order (List.Perm.refl _)]
  · rw [classifyDefault_iff,trim_quoteText]
    exact .inl (.text s)
  · intro bytes
    rw [classifyDefault_iff,blobText,trim_blob (by simp)]
    exact .inl (.blob (by simp) (hexText_lower bytes))

def intOrExpr (t : Text) : Option Int → DefaultValue
  | some v => .literalInt v
  | none => .expr t

theorem classifyDefault_int (sign : Sign) {body : Text} (h : IntBody body) :
    classifyDefault (some (sign.text ++ body)) =
      intOrExpr (sign.text ++ body) (parseIntLiteral (sign.text ++ body)) := by
  have hint : looksLikeInt (sign.text ++ body) = true := (looksLikeInt_iff _).mpr ⟨sign,body,rfl,h⟩
  rw [classifyDefault_iff,trim_int sign h]
  cases hv : parseIntLiteral (sign.text ++ body) with
  | some v => exact .inl (literal_int_iff.mpr ⟨hint,hv⟩)
  | none =>
    refine .inr ⟨rfl,?_⟩
    -- Its first character makes it a number, and it is neither kind of number.
    intro w hw
    have hlead := hw.lead
    have hnumber : (sign.text ++ body).head?.map leadOf = some .number := by
      cases h with
      | decimal hne h =>
        refine lead_signed sign hne ?_
        intro c hc
        exact .inl (List.all_eq_true.mp h c (List.mem_of_mem_head? hc))
      | hex hx hne h =>
        refine lead_signed sign (by simp) ?_
        intro c hc
        obtain rfl : '0' = c := Option.some.inj hc
        exact .inl rfl
    rw [hnumber] at hlead
    cases w with
    | literalInt i =>
      rw [(literal_int_iff.mp hw).2] at hv
      cases hv
    | literalFloat f => exact not_floatShape_of_int hint (literal_float_iff.mp hw).1
    | _ => cases hlead

def renderInt (v : Int) : Text :=
  if v < 0 then '-' :: Nat.toDigits 10 v.natAbs else Nat.toDigits 10 v.natAbs

theorem ofDigitChars_eq {ds : Text} (h : ds.all Char.isDigit = true) (acc : Nat) :
    Nat.ofDigitChars 10 ds acc = acc * 10^ds.length + decimal ds := by
  induction ds generalizing acc with
  | nil => simp [Nat.ofDigitChars,decimal,value]
  | cons c ds ih =>
    simp only [List.all_cons,Bool.and_eq_true] at h
    have hc : digitOf c = c.toNat - 48 := by
      have hrange := (isDigit_iff c).mp h.1
      have hlt : c.toNat - 48 < 16 := by omega
      simp [digitOf,toDigit,h.1,Option.filter,hlt]
    rw [Nat.ofDigitChars_cons,ih h.2]
    simp only [decimal,List.map_cons,value,List.length_map,List.length_cons,hc,pow_succ]
    have hzero : '0'.toNat = 48 := rfl
    rw [hzero]
    ring

theorem digits_toDigits (n : Nat) : (Nat.toDigits 10 n).all Char.isDigit = true :=
  List.all_eq_true.mpr fun _ hc => Nat.isDigit_of_mem_toDigits (by omega) (by omega) hc

theorem decimal_toDigits (n : Nat) : decimal (Nat.toDigits 10 n) = n := by
  have h := ofDigitChars_eq (digits_toDigits n) 0
  rw [Nat.ofDigitChars_ten_toDigits,Nat.zero_mul,Nat.zero_add] at h
  exact h.symm

theorem renderInt_eq (v : Int) :
    ∃ sign : Sign, renderInt v = sign.text ++ Nat.toDigits 10 v.natAbs ∧
      (if sign = .minus then -(v.natAbs : Int) else v.natAbs) = v := by
  unfold renderInt
  by_cases hv : v < 0
  · exact ⟨.minus,by simp [hv,Sign.text],by rw [if_pos rfl]; omega⟩
  · exact ⟨.none,by simp [hv,Sign.text],by rw [if_neg (by decide)]; omega⟩

/-- Integer literals are read as SQLite reads them, and one that SQLite does not take for
a 64-bit integer stays the text it is. -/
theorem default_integers_exact :
    (∀ (sign : Sign) (ds : Text), ds ≠ [] → ds.all Char.isDigit = true →
      classifyDefault (some (sign.text ++ ds)) =
        intOrExpr (sign.text ++ ds) (sqliteDecimal sign ds)) ∧
    (∀ (sign : Sign) (hs : Text), ∀ x ∈ ['x','X'], hs ≠ [] → hs.all isHexDigit = true →
      classifyDefault (some (sign.text ++ '0' :: x :: hs)) =
        intOrExpr (sign.text ++ '0' :: x :: hs) (sqliteHex sign hs)) ∧
    (∀ v : Int, -2^63 ≤ v → v ≤ 2^63 - 1 →
      classifyDefault (some (renderInt v)) = .literalInt v) := by
  have hdecimal : ∀ (sign : Sign) (ds : Text), ds ≠ [] → ds.all Char.isDigit = true →
      classifyDefault (some (sign.text ++ ds)) =
        intOrExpr (sign.text ++ ds) (sqliteDecimal sign ds) := by
    intro sign ds hne h
    rw [classifyDefault_int sign (.decimal hne h),parseIntLiteral_decimal sign hne h]
  refine ⟨hdecimal,?_,?_⟩
  · intro sign hs x hx hne h
    rw [classifyDefault_int sign (.hex hx hne h),parseIntLiteral_hex sign hx hne h]
  · intro v hlow hhigh
    obtain ⟨sign,hrender,hv⟩ := renderInt_eq v
    have hne : Nat.toDigits 10 v.natAbs ≠ [] :=
      List.ne_nil_of_length_pos Nat.length_toDigits_pos
    have hread : sqliteDecimal sign (Nat.toDigits 10 v.natAbs) = some v := by
      simp only [sqliteDecimal,decimal_toDigits,hv]
      exact if_pos ⟨hlow,hhigh⟩
    rw [hrender,hdecimal sign _ hne (digits_toDigits _),hread]
    rfl

/-- The least 64-bit integer in decimal, and in hexadecimal with a sign. -/
theorem default_integers_exact_least :
    classifyDefault (some "-9223372036854775808".toList) = .literalInt (-2^63) ∧
      classifyDefault (some "-0x8000000000000000".toList) = .expr "-0x8000000000000000".toList :=
  ⟨default_integers_exact.1 .minus "9223372036854775808".toList (by decide) (by decide),
    default_integers_exact.2.1 .minus "8000000000000000".toList 'x' (by decide) (by decide)
      (by decide)⟩

end Xqlite.Default

import Xqlite.DefaultValue
import Xqlite.Lib.Ascii
set_option autoImplicit false

namespace Xqlite.Default
open Split Radix Ascii

def doubled (x : Text) : Text := x.flatMap fun c => if c = '\'' then ['\'','\''] else [c]

def quoteText (x : Text) : Text := '\'' :: (doubled x ++ ['\''])

theorem quoted_eq_some {t inner : Text} : quoted t = some inner ↔ t = '\'' :: (inner ++ ['\'']) := by
  simp only [quoted,Option.bind_eq_some_iff,dropPrefix_eq_some,dropSuffix_eq_some]
  constructor
  · rintro ⟨s,rfl,rfl⟩
    rfl
  · rintro rfl
    exact ⟨_,rfl,rfl⟩

theorem unescape_quote (rest : Text) :
    unescape ('\'' :: '\'' :: rest) = (unescape rest).map ('\'' :: ·) := by
  simp only [unescape]

theorem unescape_plain {c : Char} (hc : c ≠ '\'') (rest : Text) :
    unescape (c :: rest) = (unescape rest).map (c :: ·) := by
  rw [unescape]
  · rintro _ rfl
    exact absurd rfl hc
  · exact hc

theorem unescape_doubled (x : Text) : unescape (doubled x) = some x := by
  induction x with
  | nil => rfl
  | cons c x ih =>
    have hcons : doubled (c :: x) = (if c = '\'' then ['\'','\''] else [c]) ++ doubled x := rfl
    rw [hcons]
    by_cases hc : c = '\''
    · simp [hc,unescape_quote,ih]
    · simp [hc,unescape_plain hc,ih]

theorem eq_doubled_of_unescape {inner x : Text} (h : unescape inner = some x) :
    inner = doubled x := by
  induction inner using unescape.induct generalizing x with
  | case1 =>
    obtain rfl : [] = x := Option.some.inj h
    rfl
  | case2 rest ih =>
    rw [unescape_quote] at h
    obtain ⟨y,hy,rfl⟩ := Option.map_eq_some_iff.mp h
    rw [ih hy]
    rfl
  | case3 rest hrest => simp [unescape] at h
  | case4 c rest _ hc ih =>
    have hne : c ≠ '\'' := hc
    rw [unescape_plain hne] at h
    obtain ⟨y,hy,rfl⟩ := Option.map_eq_some_iff.mp h
    rw [ih hy]
    simp [doubled,hne]

theorem parseTextLiteral_eq_some {t x : Text} : parseTextLiteral t = some x ↔ t = quoteText x := by
  simp only [parseTextLiteral,Option.bind_eq_some_iff,quoted_eq_some]
  constructor
  · rintro ⟨inner,rfl,hinner⟩
    rw [eq_doubled_of_unescape hinner]
    rfl
  · rintro rfl
    exact ⟨doubled x,rfl,unescape_doubled x⟩

theorem toDigit_sixteen {c : Char} {d : Nat} :
    toDigit 16 c = some d ↔ d < 16 ∧ c.toLower = Nat.digitChar d := by
  unfold toDigit
  simp only [Option.filter_eq_some_iff,decide_eq_true_eq,isDigit_iff]
  rw [and_comm]
  refine and_congr_right ?_
  intro hd
  rw [← Char.toNat_inj,toNat_toLower,toNat_digitChar hd]
  split_ifs <;> simp only [Option.some.injEq,false_iff] <;> omega

def hexText (bytes : List UInt8) : Text :=
  bytes.flatMap fun b => [Nat.digitChar (b.toNat / 16),Nat.digitChar (b.toNat % 16)]

theorem parsePairs_hexText {inner : Text} {bytes : List UInt8}
    (h : inner.map Char.toLower = hexText bytes) : parsePairs inner = some bytes := by
  induction bytes generalizing inner with
  | nil =>
    obtain rfl : inner = [] := List.map_eq_nil_iff.mp h
    rfl
  | cons b bytes ih =>
    have hcons : hexText (b :: bytes) =
        Nat.digitChar (b.toNat / 16) :: Nat.digitChar (b.toNat % 16) :: hexText bytes := rfl
    rw [hcons] at h
    obtain ⟨hi,inner,rfl,hhi,hrest⟩ := List.map_eq_cons_iff.mp h
    obtain ⟨lo,inner,rfl,hlo,hrest⟩ := List.map_eq_cons_iff.mp hrest
    have hb := b.toNat_lt
    have hhi' := toDigit_sixteen.mpr ⟨show b.toNat / 16 < 16 by omega,hhi⟩
    have hlo' := toDigit_sixteen.mpr ⟨show b.toNat % 16 < 16 by omega,hlo⟩
    have hbyte : b.toNat / 16 * 16 + b.toNat % 16 = b.toNat := by omega
    simp only [parsePairs,hhi',hlo',ih hrest,hbyte,Option.bind_eq_bind,Option.bind_some,
      Option.pure_def,UInt8.ofNat_toNat]

theorem hexText_of_parsePairs {inner : Text} {bytes : List UInt8}
    (h : parsePairs inner = some bytes) :
    inner.map Char.toLower = hexText bytes ∧ inner.length % 2 = 0 ∧
      inner.all isHexDigit = true := by
  induction inner using parsePairs.induct generalizing bytes with
  | case1 =>
    obtain rfl : [] = bytes := Option.some.inj h
    exact ⟨rfl,rfl,rfl⟩
  | case2 c => cases h
  | case3 hi lo rest ih =>
    simp only [parsePairs,Option.bind_eq_bind,Option.bind_eq_some_iff,Option.pure_def,
      Option.some.injEq] at h
    obtain ⟨x,hx,y,hy,more,hmore,rfl⟩ := h
    obtain ⟨hmap,hlen,hall⟩ := ih hmore
    obtain ⟨hx16,hhi⟩ := toDigit_sixteen.mp hx
    obtain ⟨hy16,hlo⟩ := toDigit_sixteen.mp hy
    have hbyte : (UInt8.ofNat (x*16 + y)).toNat = x*16 + y := by
      rw [UInt8.toNat_ofNat']
      omega
    refine ⟨?_,by simp only [List.length_cons]; omega,by simp [isHexDigit,hx,hy,hall]⟩
    have hhigh : (x*16 + y) / 16 = x := by omega
    have hlow : (x*16 + y) % 16 = y := by omega
    have hcons : hexText (UInt8.ofNat (x*16 + y) :: more) =
        Nat.digitChar x :: Nat.digitChar y :: hexText more := by
      simp only [hexText,List.flatMap_cons,hbyte,hhigh,hlow]
      rfl
    rw [hcons,List.map_cons,List.map_cons,hhi,hlo,hmap]

theorem parseBlobLiteral_eq_some {t : Text} {bytes : List UInt8} :
    parseBlobLiteral t = some bytes ↔
      ∃ x ∈ ['x','X'], ∃ hex, t = x :: '\'' :: (hex ++ ['\'']) ∧
        hex.map Char.toLower = hexText bytes := by
  simp only [parseBlobLiteral,Option.bind_eq_bind,Option.bind_eq_some_iff,quoted_eq_some]
  constructor
  · rintro ⟨rest,hrest,hex,rfl,hpairs⟩
    rw [or_dropPrefix_eq_some (by decide) (by decide)] at hrest
    split_ifs at hpairs
    have hmap := (hexText_of_parsePairs hpairs).1
    rcases hrest with rfl | rfl
    · exact ⟨'x',by simp,hex,rfl,hmap⟩
    · exact ⟨'X',by simp,hex,rfl,hmap⟩
  · rintro ⟨x,hx,hex,rfl,hmap⟩
    have hpairs := parsePairs_hexText hmap
    obtain ⟨_,hlen,hall⟩ := hexText_of_parsePairs hpairs
    refine ⟨'\'' :: (hex ++ ['\'']),?_,hex,rfl,by simp [hlen,hall,hpairs]⟩
    rw [or_dropPrefix_eq_some (by decide) (by decide)]
    rcases List.mem_pair.mp hx with rfl | rfl
    · exact .inl rfl
    · exact .inr rfl

inductive Sign where
  | none | plus | minus
  deriving DecidableEq, Repr

def Sign.text : Sign → Text
  | .none => []
  | .plus => ['+']
  | .minus => ['-']

theorem stripSign_eq {t : Text} (h : ¬ ['-'] <+: t ∧ ¬ ['+'] <+: t) : stripSign t = t := by
  rw [stripSign,or_dropPrefix_eq_none.mpr h,Option.getD_none]

theorem exists_sign (t : Text) : ∃ sign : Sign, t = sign.text ++ stripSign t := by
  cases h : (t.dropPrefix? ['-']).or (t.dropPrefix? ['+']) with
  | none => exact ⟨.none,by simp [stripSign,h,Sign.text]⟩
  | some s =>
    have hs : stripSign t = s := by simp [stripSign,h]
    rcases (or_dropPrefix_eq_some (by decide) (by decide)).mp h with ht | ht
    · exact ⟨.minus,by rw [hs]; exact ht⟩
    · exact ⟨.plus,by rw [hs]; exact ht⟩

def Unsigned (body : Text) : Prop := ∀ c ∈ body.head?, c ≠ '-' ∧ c ≠ '+'

theorem Unsigned.not_prefix {body : Text} (h : Unsigned body) :
    ¬ ['-'] <+: body ∧ ¬ ['+'] <+: body := by
  constructor
  · rintro ⟨s,rfl⟩
    exact (h '-' rfl).1 rfl
  · rintro ⟨s,rfl⟩
    exact (h '+' rfl).2 rfl

theorem stripSign_text (sign : Sign) {body : Text} (h : Unsigned body) :
    stripSign (sign.text ++ body) = body := by
  cases sign with
  | none => exact stripSign_eq h.not_prefix
  | plus => simp [stripSign,Sign.text,List.dropPrefix?]
  | minus => simp [stripSign,Sign.text,List.dropPrefix?]

theorem unsigned_of_digits {ds : Text} (h : ds.all Char.isDigit = true) : Unsigned ds := by
  intro c hc
  have hdigit := List.all_eq_true.mp h c (List.mem_of_mem_head? hc)
  constructor
  · rintro rfl
    cases hdigit
  · rintro rfl
    cases hdigit

theorem toDigit_ten {c : Char} (h : c.isDigit = true) : toDigit 10 c = some (digitOf c) := by
  have hc := (isDigit_iff c).mp h
  have hlt : c.toNat - 48 < 10 := by omega
  have hlt16 : c.toNat - 48 < 16 := by omega
  simp [digitOf,toDigit,h,Option.filter,hlt,hlt16]

theorem toDigit_hex {c : Char} (h : isHexDigit c = true) : toDigit 16 c = some (digitOf c) := by
  obtain ⟨d,hd⟩ := Option.isSome_iff_exists.mp h
  simp [digitOf,hd]

theorem digitOf_lt (c : Char) : digitOf c < 16 := by
  unfold digitOf
  cases h : toDigit 16 c with
  | none => simp
  | some d => exact (toDigit_sixteen.mp h).1

theorem mapM_toDigit {radix : Nat} {ds : Text} (h : ∀ c ∈ ds, toDigit radix c = some (digitOf c)) :
    ds.mapM (toDigit radix) = some (ds.map digitOf) := by
  induction ds with
  | nil => rfl
  | cons c ds ih =>
    have hrest := ih fun d hd => h d (List.mem_cons_of_mem _ hd)
    simp [h c (by simp),hrest]

theorem fromDigits_eq {limit radix : Nat} {ds : Text} (hr : 0 < radix)
    (h : ∀ c ∈ ds, toDigit radix c = some (digitOf c)) :
    fromDigits limit radix ds =
      if value radix (ds.map digitOf) ≤ limit then some (value radix (ds.map digitOf))
      else none := by
  rw [fromDigits,mapM_toDigit h,Option.bind_some,accumulate_zero hr]

theorem fromDigits_decimal {limit : Nat} {ds : Text} (h : ds.all Char.isDigit = true) :
    fromDigits limit 10 ds = if decimal ds ≤ limit then some (decimal ds) else none :=
  fromDigits_eq (by decide) fun c hc => toDigit_ten (List.all_eq_true.mp h c hc)

theorem parseI64_digits {ds : Text} (hne : ds ≠ []) (h : ds.all Char.isDigit = true) :
    parseI64 ds = (fromDigits (2^63 - 1) 10 ds).map Int.ofNat := by
  cases ds with
  | nil => exact absurd rfl hne
  | cons c rest =>
    have hc := unsigned_of_digits h c rfl
    cases rest with
    | nil => simp only [parseI64,hc,or_self,if_false]
    | cons d rest => simp only [parseI64,hc,if_false]

theorem parseI64_minus {ds : Text} (hne : ds ≠ []) :
    parseI64 ('-' :: ds) = (fromDigits (2^63) 10 ds).map fun n => -Int.ofNat n := by
  cases ds with
  | nil => exact absurd rfl hne
  | cons c rest => rfl

theorem parseHexU64_digits {hs : Text} (hne : hs ≠ []) (h : hs.all isHexDigit = true) :
    parseHexU64 hs = fromDigits (2^64 - 1) 16 hs := by
  cases hs with
  | nil => exact absurd rfl hne
  | cons c rest =>
    have hc : c ≠ '+' := by
      rintro rfl
      simp only [List.all_cons,Bool.and_eq_true] at h
      exact absurd h.1 (by decide)
    cases rest with
    | nil => simp only [parseHexU64,hc,if_false]
    | cons d rest => simp only [parseHexU64,hc,if_false]

/-- SQLite's reading of a decimal integer: its value, if 64 bits hold it. -/
def sqliteDecimal (sign : Sign) (ds : Text) : Option Int :=
  let v : Int := if sign = .minus then -decimal ds else decimal ds
  if -2^63 ≤ v ∧ v ≤ 2^63 - 1 then some v else none

/-- SQLite's reading of a hexadecimal integer: up to 16 significant digits are the bits
of a 64-bit integer, and the sign applies to that integer. -/
def sqliteHex (sign : Sign) (hs : Text) : Option Int :=
  if (significant (hs.map digitOf)).length ≤ 16 then
    let bits := value 16 (hs.map digitOf)
    let v : Int := if bits < 2^63 then bits else bits - 2^64
    if sign = .minus then if v = -2^63 then none else some (-v) else some v
  else none

theorem stripHex_digits {ds : Text} (h : ds.all Char.isDigit = true) : stripHex ds = none := by
  have hno : ∀ x : Char, x.isDigit = false → ¬ ['0',x] <+: ds := by
    rintro x hx ⟨rest,rfl⟩
    simp [hx] at h
  exact or_dropPrefix_eq_none.mpr ⟨hno 'x' rfl,hno 'X' rfl⟩

theorem stripHex_eq_some {body hs : Text} :
    stripHex body = some hs ↔ ∃ x ∈ ['x','X'], body = '0' :: x :: hs := by
  rw [stripHex,or_dropPrefix_eq_some (by decide) (by decide)]
  simp

theorem parseIntLiteral_text (sign : Sign) {body : Text} (h : Unsigned body) :
    (∀ hex, stripHex body = some hex →
      parseIntLiteral (sign.text ++ body) = parseHexLiteral (sign = .minus) hex) ∧
    (stripHex body = none → parseIntLiteral (sign.text ++ body) =
      parseI64 (if sign = .minus then '-' :: body else body)) := by
  cases sign with
  | none =>
    have hminus := dropPrefix_eq_none.mpr h.not_prefix.1
    have hplus := dropPrefix_eq_none.mpr h.not_prefix.2
    constructor
    · intro hex hhex
      simp [parseIntLiteral,Sign.text,hminus,hplus,hhex]
    · intro hhex
      simp [parseIntLiteral,Sign.text,hminus,hplus,hhex]
  | plus =>
    constructor
    · intro hex hhex
      simp [parseIntLiteral,Sign.text,List.dropPrefix?,hhex]
    · intro hhex
      simp [parseIntLiteral,Sign.text,List.dropPrefix?,hhex]
  | minus =>
    constructor
    · intro hex hhex
      simp [parseIntLiteral,Sign.text,List.dropPrefix?,hhex]
    · intro hhex
      simp [parseIntLiteral,Sign.text,List.dropPrefix?,hhex]

theorem parseIntLiteral_decimal (sign : Sign) {ds : Text} (hne : ds ≠ [])
    (h : ds.all Char.isDigit = true) :
    parseIntLiteral (sign.text ++ ds) = sqliteDecimal sign ds := by
  rw [(parseIntLiteral_text sign (unsigned_of_digits h)).2 (stripHex_digits h)]
  by_cases hs : sign = .minus
  · simp only [hs,if_true,parseI64_minus hne,fromDigits_decimal h,sqliteDecimal]
    by_cases hv : decimal ds ≤ 2^63
    · rw [if_pos hv,if_pos (by omega)]
      rfl
    · rw [if_neg hv,if_neg (by omega)]
      rfl
  · simp only [hs,if_false,parseI64_digits hne h,fromDigits_decimal h,sqliteDecimal]
    by_cases hv : decimal ds ≤ 2^63 - 1
    · rw [if_pos hv,if_pos (by omega)]
      rfl
    · rw [if_neg hv,if_neg (by omega)]
      rfl

theorem parseIntLiteral_hex (sign : Sign) {x : Char} (hx : x ∈ ['x','X']) {hs : Text}
    (hne : hs ≠ []) (h : hs.all isHexDigit = true) :
    parseIntLiteral (sign.text ++ '0' :: x :: hs) = sqliteHex sign hs := by
  have hunsigned : Unsigned ('0' :: x :: hs) := by
    intro c hc
    obtain rfl : '0' = c := Option.some.inj hc
    decide
  have hsize : value 16 (hs.map digitOf) ≤ 2^64 - 1 ↔
      (significant (hs.map digitOf)).length ≤ 16 := by
    have hlt : ∀ d ∈ hs.map digitOf, d < 16 := by
      intro d hd
      obtain ⟨c,_,rfl⟩ := List.mem_map.mp hd
      exact digitOf_lt c
    rw [← value_lt_pow_iff (by decide) hlt 16]
    omega
  have hfrom : parseHexU64 hs =
      if (significant (hs.map digitOf)).length ≤ 16 then some (value 16 (hs.map digitOf))
      else none := by
    rw [parseHexU64_digits hne h,
      fromDigits_eq (by decide) fun c hc => toDigit_hex (List.all_eq_true.mp h c hc)]
    simp only [hsize]
  rw [(parseIntLiteral_text sign hunsigned).1 hs (stripHex_eq_some.mpr ⟨x,hx,rfl⟩),
    parseHexLiteral,hfrom,sqliteHex]
  by_cases hlen : (significant (hs.map digitOf)).length ≤ 16
  · by_cases hsign : sign = .minus <;> simp [hlen,hsign,checkedNeg,wrapI64]
  · rw [if_neg hlen,if_neg hlen]
    rfl

inductive IntBody : Text → Prop where
  | decimal {ds : Text} (hne : ds ≠ []) (h : ds.all Char.isDigit = true) : IntBody ds
  | hex {x : Char} {hs : Text} (hx : x ∈ ['x','X']) (hne : hs ≠ [])
      (h : hs.all isHexDigit = true) : IntBody ('0' :: x :: hs)

theorem IntBody.unsigned {body : Text} (h : IntBody body) : Unsigned body := by
  cases h with
  | decimal hne h => exact unsigned_of_digits h
  | hex hx hne h =>
    intro c hc
    obtain rfl : '0' = c := Option.some.inj hc
    decide

theorem looksLikeInt_iff (t : Text) :
    looksLikeInt t = true ↔ ∃ sign : Sign, ∃ body, t = sign.text ++ body ∧ IntBody body := by
  constructor
  · intro h
    obtain ⟨sign,ht⟩ := exists_sign t
    refine ⟨sign,stripSign t,ht,?_⟩
    unfold looksLikeInt at h
    cases hx : stripHex (stripSign t) with
    | none =>
      simp only [hx,Bool.and_eq_true] at h
      exact .decimal (by simpa using h.1) h.2
    | some hs =>
      simp only [hx,Bool.and_eq_true] at h
      obtain ⟨x,hmem,hbody⟩ := stripHex_eq_some.mp hx
      rw [hbody]
      exact .hex hmem (by simpa using h.1) h.2
  · rintro ⟨sign,body,rfl,hbody⟩
    unfold looksLikeInt
    rw [stripSign_text sign hbody.unsigned]
    cases hbody with
    | decimal hne h => simp [stripHex_digits h,hne,h]
    | hex hx hne h => simp [stripHex_eq_some.mpr ⟨_,hx,rfl⟩,hne,h]

inductive Mantissa : Text → Prop where
  | point {i f : Text} (hi : i.all Char.isDigit = true) (hf : f.all Char.isDigit = true)
      (hne : i ≠ [] ∨ f ≠ []) : Mantissa (i ++ '.' :: f)
  | whole {i : Text} (hi : i.all Char.isDigit = true) (hne : i ≠ []) : Mantissa i

inductive Exponent : Text → Prop where
  | mk {e : Char} (he : isExponentMark e = true) (sign : Sign) {ds : Text}
      (h : ds.all Char.isDigit = true) (hne : ds ≠ []) : Exponent (e :: (sign.text ++ ds))

/-- A sign, a mantissa and an exponent, with a point or an exponent present. -/
def FloatShape (t : Text) : Prop :=
  ∃ (sign : Sign) (m x : Text), t = sign.text ++ (m ++ x) ∧ Mantissa m ∧
    (x = [] ∨ Exponent x) ∧ ('.' ∈ m ∨ x ≠ [])

theorem no_point_of_digits {ds : Text} (h : ds.all Char.isDigit = true) :
    ∀ c ∈ ds, (c == '.') = false := by
  intro c hc
  have hdigit := List.all_eq_true.mp h c hc
  rw [beq_eq_false_iff_ne]
  rintro rfl
  cases hdigit

theorem mantissaOk_iff (m : Text) : mantissaOk m = true ↔ Mantissa m := by
  unfold mantissaOk
  constructor
  · intro h
    cases hcut : cutAt (· == '.') m with
    | none =>
      simp only [hcut,Bool.and_eq_true] at h
      exact .whole h.2 (by simpa using h.1)
    | some r =>
      obtain ⟨c,hc,hm,_⟩ := cutAt_eq_some.mp hcut
      simp only [hcut,Bool.and_eq_true] at h
      rw [hm,eq_of_beq hc]
      exact .point h.1.2 h.2 (by simpa [← not_and_or] using h.1.1)
  · intro h
    cases h with
    | @point i f hi hf hne =>
      have hcut := cutAt_append (no_point_of_digits hi) (beq_self_eq_true '.') f
      simp only [hcut,hi,hf,Bool.and_true,Bool.or_eq_true]
      simpa using hne
    | whole hi hne =>
      have hcut := cutAt_eq_none.mpr (no_point_of_digits hi)
      simp [hcut,hi,hne]

theorem exponentOk_iff (e : Text) :
    exponentOk e = true ↔ ∃ sign : Sign, ∃ ds, e = sign.text ++ ds ∧
      ds.all Char.isDigit = true ∧ ds ≠ [] := by
  unfold exponentOk
  constructor
  · intro h
    obtain ⟨sign,he⟩ := exists_sign e
    simp only [Bool.and_eq_true] at h
    exact ⟨sign,stripSign e,he,h.2,by simpa using h.1⟩
  · rintro ⟨sign,ds,rfl,hall,hne⟩
    rw [stripSign_text sign (unsigned_of_digits hall)]
    simp [hall,hne]

theorem Mantissa.mem {m : Text} (h : Mantissa m) {c : Char} (hc : c ∈ m) :
    c.isDigit = true ∨ c = '.' := by
  cases h with
  | point hi hf hne =>
    rcases List.mem_append.mp hc with hmem | hmem
    · exact .inl (List.all_eq_true.mp hi c hmem)
    · rcases List.mem_cons.mp hmem with rfl | hmem
      · exact .inr rfl
      · exact .inl (List.all_eq_true.mp hf c hmem)
  | whole hi hne => exact .inl (List.all_eq_true.mp hi c hc)

theorem Mantissa.ne_nil {m : Text} (h : Mantissa m) : m ≠ [] := by
  cases h with
  | point hi hf hne => simp
  | whole hi hne => exact hne

theorem Mantissa.no_mark {m : Text} (h : Mantissa m) : ∀ c ∈ m, isExponentMark c = false := by
  intro c hc
  rcases h.mem hc with hdigit | rfl
  · rw [isExponentMark,Bool.or_eq_false_iff,beq_eq_false_iff_ne,beq_eq_false_iff_ne]
    constructor <;> rintro rfl <;> cases hdigit
  · rfl

theorem Mantissa.unsigned {m : Text} (h : Mantissa m) (x : Text) : Unsigned (m ++ x) := by
  intro c hc
  have hmem : c ∈ m := by
    rw [List.head?_append_of_ne_nil _ h.ne_nil] at hc
    exact List.mem_of_mem_head? hc
  rcases h.mem hmem with hdigit | rfl
  · constructor <;> rintro rfl <;> cases hdigit
  · decide

theorem floatShaped_iff (t : Text) : floatShaped t = true ↔ FloatShape t := by
  unfold floatShaped
  constructor
  · intro h
    obtain ⟨sign,ht⟩ := exists_sign t
    cases hcut : cutAt isExponentMark (stripSign t) with
    | none =>
      simp only [hcut,Bool.and_eq_true,List.contains_iff_mem] at h
      refine ⟨sign,stripSign t,[],?_,(mantissaOk_iff _).mp h.1,.inl rfl,.inl h.2⟩
      rwa [List.append_nil]
    | some r =>
      obtain ⟨c,hc,hbody,_⟩ := cutAt_eq_some.mp hcut
      simp only [hcut,Bool.and_eq_true] at h
      obtain ⟨esign,ds,he,hall,hne⟩ := (exponentOk_iff _).mp h.2
      refine ⟨sign,r.1,c :: r.2,by rw [← hbody]; exact ht,(mantissaOk_iff _).mp h.1,.inr ?_,
        .inr (by simp)⟩
      rw [he]
      exact .mk hc esign hall hne
  · rintro ⟨sign,m,x,rfl,hm,hx,hpoint⟩
    rw [stripSign_text sign (hm.unsigned x)]
    rcases hx with rfl | hx
    · have hcut := cutAt_eq_none.mpr hm.no_mark
      have hmem : '.' ∈ m := by simpa using hpoint
      simp [hcut,(mantissaOk_iff m).mpr hm,hmem]
    · cases hx with
      | @mk e he esign ds hall hne =>
        have hcut := cutAt_append hm.no_mark he (esign.text ++ ds)
        simp only [hcut,(mantissaOk_iff m).mpr hm,Bool.true_and]
        exact (exponentOk_iff _).mpr ⟨esign,ds,rfl,hall,hne⟩

end Xqlite.Default

import Xqlite.Lib.SqlText
import Xqlite.Pragma
set_option autoImplicit false

namespace Xqlite.Pragma
open SqlText

def digits (n : Nat) : Bytes := (Nat.toDigits 10 n).map fun c => c.toNat.toUInt8

def integerToString (n : Int) : Bytes :=
  if n < 0 then dash :: digits n.natAbs else digits n.natAbs

def quoteName (name : Bytes) : Bytes := dquote :: (escape dquote name ++ [dquote])

def atomText (name : String) : Bytes :=
  if name = "on" then utf8 "ON" else if name = "off" then utf8 "OFF" else utf8 name

/-- The quotes inside a string are not doubled. There is no clause for other terms. -/
def formatPragmaValue : Term → Option Bytes
  | .binary val => some (squote :: val ++ [squote])
  | .int val => some (integerToString val)
  | .atom name =>
      if name = "true" then some (utf8 "1")
      else if name = "false" then some (utf8 "0")
      else some (atomText name)
  | _ => none

def Key.name : Key → String
  | .atom name | .string name => name

/-- `dbName` is what `to_string` makes of the option. The key goes in as it is. -/
def putSql (key : Key) (val : Term) (dbName : Bytes) : Option Bytes := do
  let name ← key.resolve
  if validPragmaValue (schema.lookup name) val then
    let value ← formatPragmaValue val
    some (utf8 "PRAGMA" ++ [space] ++ quoteName dbName ++ [dot] ++ utf8 name ++
      [space,equals,space] ++ value ++ [semicolon])
  else none

/-- `execute_batch` takes a string, which is UTF-8, and rejects one with a NUL in it. -/
def executeBatch (sql : Bytes) : Option Bytes :=
  if fromUtf8 sql = none ∧ 0 ∉ sql then some sql else none

def putWithDbName (key : Key) (val : Term) (dbName : Bytes) : Option Bytes :=
  (putSql key val dbName).bind executeBatch

def denoted : Term → Option Operand
  | .binary val => some (.text val)
  | .int val => some (.number (val < 0) (digits val.natAbs))
  | .atom name =>
      if name = "true" then some (.number false (utf8 "1"))
      else if name = "false" then some (.number false (utf8 "0"))
      else some (.word (atomText name))
  | _ => none

theorem format_denoted (val : Term) :
    formatPragmaValue val = (denoted val).map Operand.render := by
  cases val with
  | binary bytes => rfl
  | int n => by_cases hn : n < 0 <;> simp [formatPragmaValue,denoted,integerToString,Operand.render,hn]
  | atom name =>
    by_cases ht : name = "true"
    · simp [formatPragmaValue,denoted,Operand.render,ht]
    · by_cases hf : name = "false"
      · simp [formatPragmaValue,denoted,Operand.render,hf]
      · simp [formatPragmaValue,denoted,Operand.render,ht,hf]
  | _ => rfl

theorem resolve_name {key : Key} {name : String} (h : key.resolve = some name) : name = key.name := by
  cases key with
  | atom n => exact (Option.some.inj h).symm
  | string n =>
    simp only [Key.resolve] at h
    split_ifs at h
    exact (Option.some.inj h).symm

theorem putWithDbName_eq {key : Key} {val : Term} {dbName sql : Bytes}
    (h : putWithDbName key val dbName = some sql) :
    ∃ v, denoted val = some v ∧ sql = utf8 "PRAGMA" ++ space :: dquote ::
      (escape dquote dbName ++ dquote :: dot ::
        (utf8 key.name ++ space :: equals :: space :: (v.render ++ [semicolon]))) := by
  obtain ⟨sql',hput,hsend⟩ := Option.bind_eq_some_iff.mp h
  have hsame : sql' = sql := by
    unfold executeBatch at hsend
    split_ifs at hsend
    exact Option.some.inj hsend
  subst hsame
  obtain ⟨name,hname,hsql⟩ := Option.bind_eq_some_iff.mp hput
  obtain rfl := resolve_name hname
  split_ifs at hsql with hvalid
  obtain ⟨value,hvalue,heq⟩ := Option.bind_eq_some_iff.mp hsql
  rw [format_denoted] at hvalue
  obtain ⟨v,hv,rfl⟩ := Option.map_eq_some_iff.mp hvalue
  refine ⟨v,hv,?_⟩
  rw [← Option.some.inj heq]
  simp [quoteName]

theorem toDigits_range {n : Nat} {c : Char} (h : c ∈ Nat.toDigits 10 n) :
    48 ≤ c.toNat ∧ c.toNat ≤ 57 := by
  have hdigit := Nat.isDigit_of_mem_toDigits (by omega) (by omega) h
  simp only [Char.isDigit,Bool.and_eq_true,decide_eq_true_eq,ge_iff_le,
    UInt32.le_iff_toNat_le] at hdigit
  exact hdigit

theorem digits_formed (n : Nat) : digits n ≠ [] ∧ ∀ b ∈ digits n, isDigit b = true := by
  refine ⟨?_,?_⟩
  · have hpos : 0 < (Nat.toDigits 10 n).length := Nat.length_toDigits_pos
    intro hnil
    rw [digits,List.map_eq_nil_iff] at hnil
    simp [hnil] at hpos
  · intro b hb
    obtain ⟨c,hc,rfl⟩ := List.mem_map.mp hb
    obtain ⟨hlow,hhigh⟩ := toDigits_range hc
    simp only [isDigit,Bool.and_eq_true,decide_eq_true_eq,UInt8.le_iff_toNat_le,UInt8.toNat_ofNat']
    have hmod : c.toNat % 256 = c.toNat := Nat.mod_eq_of_lt (by omega)
    constructor
    · simpa [hmod] using hlow
    · simpa [hmod] using hhigh

/-- The values that are written as one literal: strings without a quote, integers,
booleans, and atoms that are a word to SQLite. -/
def valueFits (reserved : Bytes → Bool) : Term → Bool
  | .binary val => !val.contains squote
  | .int _ => true
  | .atom name => name == "true" || name == "false" ||
      (isBare (atomText name) && (!reserved (atomText name) || isValueKeyword (atomText name)))
  | _ => false

theorem denoted_fits (reserved : Bytes → Bool) {val : Term} {v : Operand}
    (h : denoted val = some v) : v.fits reserved = valueFits reserved val := by
  cases val with
  | binary bytes =>
    obtain rfl := Option.some.inj h
    rfl
  | int n =>
    obtain rfl := Option.some.inj h
    obtain ⟨hne,hall⟩ := digits_formed n.natAbs
    simpa [Operand.fits,valueFits,hne] using hall
  | atom name =>
    simp only [denoted] at h
    split_ifs at h with ht hf
    · obtain rfl := Option.some.inj h
      simp only [valueFits,ht,beq_self_eq_true,Bool.true_or]
      rfl
    · obtain rfl := Option.some.inj h
      simp only [valueFits,hf,beq_self_eq_true,Bool.or_true,Bool.true_or]
      rfl
    · obtain rfl := Option.some.inj h
      simp [Operand.fits,valueFits,ht,hf]
  | _ => cases h

/-- The batch is one assignment of the value to the key in the named schema. -/
def SetsExactly (reserved : Bytes → Bool) (sql : Bytes) (key : Key) (val : Term)
    (dbName : Bytes) : Prop :=
  ∃ v, denoted val = some v ∧ parsePragma reserved sql = some ⟨dbName,utf8 key.name,v⟩

/-- The batch is the assignment that was asked for exactly when the key is a bare name
and the value is one literal. The schema's name cannot do any harm. -/
theorem put_sets_exactly_iff (reserved : Bytes → Bool) {key : Key} {val : Term}
    {dbName sql : Bytes} (h : putWithDbName key val dbName = some sql) :
    SetsExactly reserved sql key val dbName ↔
      isName reserved (utf8 key.name) = true ∧ valueFits reserved val = true := by
  obtain ⟨v,hv,rfl⟩ := putWithDbName_eq h
  rw [← denoted_fits reserved hv,← parsePragma_iff dbName]
  constructor
  · rintro ⟨v',hv',hparse⟩
    obtain rfl := Option.some.inj (hv.symm.trans hv')
    exact hparse
  · intro hparse
    exact ⟨v,hv,hparse⟩

/-- A quote in the schema's name does not end it. -/
theorem put_sets_exactly_quoted :
    putWithDbName (.atom "user_version") (.int (-7)) (utf8 "a\"; x") =
        some (utf8 "PRAGMA \"a\"\"; x\".user_version = -7;") ∧
      SetsExactly (fun _ => false) (utf8 "PRAGMA \"a\"\"; x\".user_version = -7;")
        (.atom "user_version") (.int (-7)) (utf8 "a\"; x") := by
  have hput : putWithDbName (.atom "user_version") (.int (-7)) (utf8 "a\"; x") =
      some (utf8 "PRAGMA \"a\"\"; x\".user_version = -7;") := by decide
  exact ⟨hput,(put_sets_exactly_iff (fun _ => false) hput).mpr (by decide)⟩

/-- A value with a quote ends the literal and goes on with a statement of its own. -/
theorem put_injects_statement :
    putWithDbName (.atom "optimize") (.binary (utf8 "1'; DROP TABLE users; --")) (utf8 "main") =
        some (utf8 "PRAGMA \"main\".optimize = '1'; DROP TABLE users; --';") ∧
      parsePragma (fun _ => false)
        (utf8 "PRAGMA \"main\".optimize = '1'; DROP TABLE users; --';") = none := by
  decide

end Xqlite.Pragma

import Xqlite.RowTerms
set_option autoImplicit false

namespace Xqlite.Pragma

def isAsciiAlphanumeric (c : Char) : Bool :=
  ('a' ≤ c && c ≤ 'z') || ('A' ≤ c && c ≤ 'Z') || ('0' ≤ c && c ≤ '9')

def validateName (name : String) : Except XqliteError Unit :=
  if name.toList = [] ∨ name.toList.all (fun c => isAsciiAlphanumeric c || c == '_') = false then
    .error (.invalidPragmaName name)
  else .ok ()

/-- The value side of a `PRAGMA name = value` text. -/
inductive Literal where
  | null | on | off
  | word (name : String)
  | integer (n : Int)
  | float (bits : UInt64)
  | quoted (bytes : List UInt8)
  deriving DecidableEq, Repr

def formatTermForPragma : Term → Except XqliteError Literal
  | .atom name =>
      if name = "nil" then .ok .null
      else if name = "true" then .ok .on
      else if name = "false" then .ok .off
      else .ok (.word name)
  | .int n =>
      match (Term.int n).decodeI64 with
      | some i => .ok (.integer i)
      | none => .error (.cannotConvertToSqliteValue (.int n) badArg)
  | .float bits => .ok (.float bits)
  | .binary bytes =>
      if fromUtf8 bytes = none then .ok (.quoted bytes)
      else .error (.cannotConvertToSqliteValue (.binary bytes)
        ("Failed to decode binary as string for PRAGMA: " ++ badArg))
  | term => .error (.unsupportedDataType term.getType)

inductive ValidValues where
  | range (low high : Int)
  | oneOf (ints : List Int) (texts : List String)
  deriving DecidableEq, Repr

def signedI32 : ValidValues := .range (-2147483648) 0x7FFFFFFF
def u32 : ValidValues := .range 0 0x7FFFFFFF
def nonzeroU32 : ValidValues := .range 1 0x7FFFFFFF
def bool : ValidValues := .range 0 1

/-- The values each pragma of the schema may be set to; `none` checks nothing. -/
def schema : List (String × Option ValidValues) :=
  [("application_id",some signedI32),("analysis_limit",some u32),("busy_timeout",some u32),
    ("cache_size",some signedI32),("cache_spill",some u32),("data_version",none),
    ("freelist_count",none),("hard_heap_limit",some u32),("incremental_vacuum",none),
    ("journal_size_limit",some signedI32),("legacy_file_format",none),
    ("max_page_count",some nonzeroU32),("mmap_size",some signedI32),("page_count",none),
    ("page_size",some (.oneOf [512,1024,2048,4096,8192,16384,32768,65536] [])),
    ("soft_heap_limit",some u32),("threads",some u32),("user_version",some signedI32),
    ("wal_autocheckpoint",some signedI32),("auto_vacuum",some (.range 0 2)),
    ("secure_delete",some (.range 0 2)),
    ("synchronous",some (.oneOf [0,1,2,3] ["OFF","NORMAL","FULL","EXTRA"])),
    ("temp_store",some (.oneOf [0,1,2] ["DEFAULT","FILE","MEMORY"])),
    ("automatic_index",some bool),("cell_size_check",some bool),
    ("checkpoint_fullfsync",some bool),("defer_foreign_keys",some bool),
    ("foreign_keys",some bool),("fullfsync",some bool),("ignore_check_constraints",some bool),
    ("legacy_alter_table",some bool),("query_only",some bool),("read_uncommitted",some bool),
    ("recursive_triggers",some bool),("reverse_unordered_selects",some bool),
    ("trusted_schema",some bool),
    ("encoding",some (.oneOf [] ["UTF-8","UTF-16","UTF-16le","UTF-16be"])),
    ("journal_mode",some (.oneOf [] ["DELETE","TRUNCATE","PERSIST","MEMORY","WAL","OFF"])),
    ("locking_mode",some (.oneOf [] ["NORMAL","EXCLUSIVE"])),("integrity_check",none),
    ("quick_check",none),("collation_list",none),("compile_options",none),
    ("database_list",none),("foreign_key_check",none),("foreign_key_list",none),
    ("function_list",none),("index_info",none),("index_list",none),("index_xinfo",none),
    ("module_list",none),("optimize",none),("pragma_list",none),("table_info",none),
    ("table_xinfo",none),("wal_checkpoint",none),("shrink_memory",none)]

def ValidValues.hasInt (n : Int) : ValidValues → Bool
  | .range low high => low ≤ n && n ≤ high
  | .oneOf ints _ => ints.contains n

def ValidValues.hasText (bytes : List UInt8) : ValidValues → Bool
  | .range _ _ => false
  | .oneOf _ texts => texts.any (fun text => text.toUTF8.toList == bytes)

/-- An unknown pragma and one without valid values pass; a boolean counts as 0 or 1. -/
def validPragmaValue (spec : Option (Option ValidValues)) (val : Term) : Bool :=
  match spec with
  | none | some none => true
  | some (some valid) =>
    match val with
    | .atom "true" => valid.hasInt 1
    | .atom "false" => valid.hasInt 0
    | .int n => valid.hasInt n
    | .binary bytes => valid.hasText bytes
    | _ => false

/-- `format_pragma_value` has clauses for text, integers and atoms only. -/
def formatsPragmaValue : Term → Bool
  | .binary _ | .int _ | .atom _ => true
  | _ => false

/-- A key with its name, that is what `to_string` makes of it: an empty one for `nil`. -/
inductive Key where
  | atom (name : String)
  | string (name : String)
  deriving DecidableEq, Repr

def Key.resolve : Key → Option String
  | .atom name => some name
  | .string name => if (schema.lookup name).isSome then some name else none

def walAutocheckpoint : String := "wal_autocheckpoint"

/-- SQLite reads pragma names without regard to case. -/
def spells (name : String) : Bool :=
  name.toList.map Char.toLower == walAutocheckpoint.toList

theorem spells_walAutocheckpoint : spells walAutocheckpoint = true := by decide

end Xqlite.Pragma

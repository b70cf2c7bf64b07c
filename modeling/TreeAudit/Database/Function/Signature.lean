/-!
The functions that the engine knows, with the numbers of arguments they take. Only functions
that give the same answer for the same arguments at all times may take part in what is
stored.
-/

set_option autoImplicit false
set_option relaxedAutoImplicit false

namespace TreeAudit.Database.Function

inductive Class where
  /-- Always the same for the same arguments. -/
  | pure
  /-- What may change from call to call. -/
  | volatile
  | aggregate
  | window
deriving DecidableEq

/-- A function takes from `least` to `greatest` arguments, or any more than `least`. -/
structure Signature where
  name : String
  least : Nat
  greatest? : Option Nat
  kind : Class

namespace Signature

def fixed (kind : Class) (counts : Nat) (names : List String) : List Signature :=
  names.map fun name ↦ ⟨name, counts, some counts, kind⟩

def between (kind : Class) (least greatest : Nat) (names : List String) : List Signature :=
  names.map fun name ↦ ⟨name, least, some greatest, kind⟩

def atLeast (kind : Class) (least : Nat) (names : List String) : List Signature :=
  names.map fun name ↦ ⟨name, least, none, kind⟩

def takes (signature : Signature) (count : Nat) : Bool :=
  signature.least ≤ count && (signature.greatest?.map fun most ↦ decide (count ≤ most)).getD true

/-- All functions. One that stands twice means different things by its arguments. -/
def all : List Signature :=
  fixed .pure 1 ["unlikely", "likely", "typeof", "subtype", "length", "octet_length", "unicode",
    "abs", "upper", "lower", "hex", "quote", "zeroblob", "soundex", "json", "jsonb",
    "json_error_position", "json_quote", "sqlite_compileoption_used",
    "sqlite_compileoption_get"] ++
  between .pure 1 2 ["ltrim", "rtrim", "trim", "round", "unhex", "json_array_length",
    "json_pretty", "json_type", "json_valid"] ++
  fixed .pure 2 ["instr", "ifnull", "nullif", "likelihood", "->", "->>", "json_patch",
    "jsonb_patch", "timediff", "sqlite_log"] ++
  between .pure 2 3 ["substr", "substring", "like", "glob"] ++
  fixed .pure 3 ["replace", "iif"] ++
  atLeast .pure 0 ["printf", "format", "char", "julianday", "unixepoch", "date", "time", "datetime",
    "strftime", "json_array", "jsonb_array", "json_extract", "jsonb_extract", "json_insert",
    "jsonb_insert", "json_object", "jsonb_object", "json_remove", "jsonb_remove",
    "json_replace", "jsonb_replace", "json_set", "jsonb_set"] ++
  atLeast .pure 1 ["concat"] ++
  atLeast .pure 2 ["min", "max", "coalesce", "concat_ws"] ++
  fixed .volatile 0 ["random", "sqlite_version", "sqlite_source_id", "last_insert_rowid",
    "changes", "total_changes", "current_time", "current_timestamp", "current_date",
    "fts5_source_id"] ++
  fixed .volatile 1 ["randomblob", "fts5"] ++
  between .volatile 1 2 ["load_extension", "fts3_tokenizer"] ++
  fixed .volatile 2 ["match"] ++
  atLeast .volatile 0 ["snippet", "offsets", "matchinfo", "optimize"] ++
  fixed .aggregate 1 ["min", "max", "sum", "total", "avg", "json_group_array",
    "jsonb_group_array"] ++
  between .aggregate 0 1 ["count"] ++
  between .aggregate 1 2 ["group_concat"] ++
  fixed .aggregate 2 ["string_agg", "json_group_object", "jsonb_group_object"] ++
  fixed .window 0 ["row_number", "rank", "dense_rank", "percent_rank", "cume_dist"] ++
  fixed .window 1 ["ntile", "last_value", "first_value"] ++
  fixed .window 2 ["nth_value"] ++
  between .window 1 3 ["lead", "lag"]

/-- The functions with a name in any case. -/
def named (name : String) : List Signature :=
  all.filter fun signature ↦ signature.name = name.toLower

/-- The function with a name that takes a number of arguments. -/
def find? (name : String) (count : Nat) : Option Signature :=
  (named name).find? fun signature ↦ signature.takes count

end Signature

end TreeAudit.Database.Function

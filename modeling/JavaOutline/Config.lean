import JavaOutline.Extraction
import JavaOutline.Toml.Document

/-! # Configuration

The configuration is a TOML file in the user's home directory with two sections: `extract` sets the
options of extraction and `scan` lists patterns of paths to leave out.  Sections and fields that
are not given have their defaults, and unknown ones are passed over.
-/

namespace JavaOutline

/-- What a user has configured. -/
structure Config where
  extract : ExtractOptions := {}
  /-- Patterns of paths to leave out. -/
  exclude : List String := []
deriving DecidableEq

/-- Why there is no configuration. -/
inductive ConfigError where
  | unreadable (path : String)
  | malformed
deriving DecidableEq

/-- The wording of a failure. -/
def ConfigError.message : ConfigError → String
  | unreadable path => "failed to read " ++ path
  | malformed => "failed to parse config"

namespace Config

open Toml (Value Table)

/-! ## Fields -/

/-- The text of a field. -/
def text? : Value → Option String
  | .string s => some s
  | _ => none

/-- The natural number of a field. -/
def natural? : Value → Option Nat
  | .integer n => if 0 ≤ n then some n.toNat else none
  | _ => none

/-- The list of texts of a field. -/
def texts? : Value → Option (List String)
  | .array items => items.mapM text?
  | _ => none

/-- The fields of a section: a table, or an array of the fields' values in the order of their
    names.  A date or time counts as a table without fields. -/
def fields? (names : List String) : Value → Option Table
  | .table _ entries => some entries
  | .array items => some (names.zip items)
  | .tables last earlier =>
    some (names.zip ((last :: earlier).reverse.map (Value.table .header)))
  | .dateTime _ => some []
  | _ => none

/-- What is read from an entry, or the default if it is not given. -/
def entry {α : Type} (read : Value → Option α) (default : α) (name : String) (t : Table) :
    Option α :=
  match t.lookup name with
  | none => some default
  | some v => read v

/-! ## Sections -/

/-- The section on extraction. -/
def extract? (v : Value) : Option ExtractOptions := do
  let fields ← fields? ["marker", "max_depth", "parse_timeout_micros"] v
  let defaults : ExtractOptions := {}
  return {
    marker := ← entry text? defaults.marker "marker" fields
    maxDepth := ← entry natural? defaults.maxDepth "max_depth" fields
    parseTimeoutMicros :=
      ← entry natural? defaults.parseTimeoutMicros "parse_timeout_micros" fields }

/-- The patterns in the section on scanning. -/
def scan? (v : Value) : Option (List String) := do
  entry texts? [] "exclude" (← fields? ["exclude"] v)

/-- The configuration that a document gives. -/
def parse? (document : String) : Option Config := do
  let t ← Table.parse? document
  return { extract := ← entry extract? {} "extract" t, exclude := ← entry scan? [] "scan" t }

/-! ## The file -/

/-- The path of the configuration file below a home directory. -/
def pathIn (home : String) : String :=
  Path.join home ".config/microast/config.toml"

/-- The configuration of a user; without a file it is the default one. -/
def load (fs : FileSystem) (home : String) : Except ConfigError Config :=
  let path := pathIn home
  if fs.pathExists path then
    match fs.readText path with
    | .ok document =>
      match parse? document with
      | some config => .ok config
      | none => .error .malformed
    | .error _ => .error (.unreadable path)
  else .ok {}

end Config

end JavaOutline

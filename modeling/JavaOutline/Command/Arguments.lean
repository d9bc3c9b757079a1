import JavaOutline.Glob.Basic
import JavaOutline.Number
import JavaOutline.Outline.Summary
import JavaOutline.Path

/-! # Command line arguments

The first argument names a command, the others are its options and its one operand.  An option
`--name` takes its value from the same argument behind `=` or from the next one, which then may
not start with a hyphen, unless it is a single hyphen.  After `--` every argument is an operand.

* `Given.read?` sorts arguments into options and operands.
* `Request.ofArguments?` is the request that arguments make, if they are understood.
-/

namespace JavaOutline.Command

/-! ## Options and operands -/

/-- What an option takes. -/
inductive OptionKind where
  /-- No value. -/
  | flag
  /-- One value, and no second one. -/
  | value
  /-- A value each time it is given. -/
  | values
deriving DecidableEq

/-- Arguments sorted into options with their values and operands. -/
structure Given where
  options : List (String × String) := []
  operands : List String := []

namespace Given

/-- Whether an argument can only be an option. -/
def isOption (argument : String) : Bool :=
  argument.toList.head? == some '-' && argument != "-"

/-- The name of an option and the value behind `=`. -/
def splitOption (argument : String) : String × Option String :=
  let body := argument.toList.drop 2
  let name := body.takeWhile (· != '=')
  match body.drop name.length with
  | _ :: value => (String.ofList name, some (String.ofList value))
  | [] => (String.ofList name, none)

/-- One more option in front. -/
def addOption (name value : String) (g : Given) : Given :=
  { g with options := (name, value) :: g.options }

/-- One more operand in front. -/
def addOperand (operand : String) (g : Given) : Given :=
  { g with operands := operand :: g.operands }

/-- Sorts arguments; `kindOf` knows the options.  There are no options of one letter. -/
def read? (kindOf : String → Option OptionKind) : List String → Option Given
  | [] => some {}
  | "--" :: rest => some { operands := rest }
  | argument :: rest =>
    if "--".isPrefixOf argument then
      let (name, attached) := splitOption argument
      match kindOf name, attached with
      | none, _ => none
      | some .flag, none => (read? kindOf rest).map (addOption name "")
      | some .flag, some _ => none
      | some _, some value => (read? kindOf rest).map (addOption name value)
      | some _, none =>
        -- The value is the next argument, which must not look like an option itself.
        match rest with
        | [] => none
        | value :: rest =>
          if isOption value then none else (read? kindOf rest).map (addOption name value)
    else if isOption argument then none
    else (read? kindOf rest).map (addOperand argument)

variable (g : Given)

/-- Whether an option is given. -/
def has (name : String) : Bool :=
  g.options.any (·.1 == name)

/-- The values of an option, in order. -/
def valuesOf (name : String) : List String :=
  (g.options.filter (·.1 == name)).map (·.2)

/-- The value of an option as `read` understands it, or the default if it is not given. -/
def valueOr {α : Type} (read : String → Option α) (default : α) (name : String) : Option α :=
  match g.valuesOf name with
  | [] => some default
  | value :: _ => read value

/-- Whether no option but those with many values is given twice. -/
def isSingular (kindOf : String → Option OptionKind) : Bool :=
  g.options.all fun (name, _) =>
    kindOf name == some .values || (g.valuesOf name).length == 1

/-- The one operand. -/
def operand? : Option String :=
  match g.operands with
  | [operand] => some operand
  | _ => none

end Given

/-! ## Values -/

/-- A path; it must not be empty. -/
def pathArgument? (s : String) : Option String :=
  if s.isEmpty then none else some s

/-- A number below `2 ^ 64` in decimal digits, with or without a plus sign. -/
def numberArgument? (s : String) : Option Nat :=
  let digits := match s.toList with
    | '+' :: digits => digits
    | digits => digits
  if !digits.isEmpty && digits.all (fun c => '0' ≤ c && c ≤ '9') then
    let n := digits.foldl (fun n c => 10 * n + (c.toNat - '0'.toNat)) 0
    if n < Number.wordBound then some n else none
  else none

/-- A number that is not zero. -/
def positiveArgument? (s : String) : Option Nat :=
  (numberArgument? s).filter (0 < ·)

/-- A name of a format, in lower case. -/
def formatArgument? : String → Option Format
  | "text" => some .text
  | "json" => some .json
  | _ => none

/-- Patterns between commas. -/
def patternsArgument? (s : String) : Option (List Glob) :=
  (Text.split ',' s.toList).mapM fun piece => Glob.parseExclude? (String.ofList piece)

/-! ## Requests -/

/-- The largest file to extract unless said otherwise: five mebibytes. -/
def defaultMaxFileSize : Nat := 5 * 1024 * 1024

/-- A request to extract the sources below a path. -/
structure ExtractRequest where
  path : String
  /-- The output directory. -/
  out : String := "ast-out"
  /-- Whether files that are no benchmark candidates are wanted too. -/
  all : Bool := false
  /-- The number of workers, if one was asked for. -/
  threads : Option Nat := none
  exclude : List Glob := []
  noDefaultExclude : Bool := false
  maxFileSize : Nat := defaultMaxFileSize
  marker : Option String := none
  maxDepth : Option Nat := none
  /-- Where the metrics go. -/
  metrics : Option String := none
  debug : Bool := false
  quiet : Bool := false

/-- A request to show a persisted outline. -/
structure InspectRequest where
  file : String
  format : Format := .text

/-- What the program is asked to do. -/
inductive Request where
  | version
  | extract (r : ExtractRequest)
  | inspect (r : InspectRequest)

/-- The options of the command `extract`. -/
def ExtractRequest.kindOf : String → Option OptionKind
  | "out" | "threads" | "max-file-size" | "marker" | "max-depth" | "metrics" => some .value
  | "exclude" => some .values
  | "all" | "no-default-exclude" | "debug" | "quiet" => some .flag
  | _ => none

/-- The request that the arguments of `extract` make. -/
def ExtractRequest.ofArguments? (arguments : List String) : Option ExtractRequest := do
  let g ← Given.read? kindOf arguments
  if g.isSingular kindOf then
    return {
      path := ← pathArgument? (← g.operand?)
      out := ← g.valueOr pathArgument? "ast-out" "out"
      all := g.has "all"
      threads := ← g.valueOr (fun s => some <$> positiveArgument? s) none "threads"
      exclude := (← (g.valuesOf "exclude").mapM patternsArgument?).flatten
      noDefaultExclude := g.has "no-default-exclude"
      maxFileSize := ← g.valueOr numberArgument? defaultMaxFileSize "max-file-size"
      marker := ← g.valueOr (fun s => some (some s)) none "marker"
      maxDepth := ← g.valueOr (fun s => some <$> numberArgument? s) none "max-depth"
      metrics := ← g.valueOr (fun s => some <$> pathArgument? s) none "metrics"
      debug := g.has "debug"
      quiet := g.has "quiet" }
  else none

/-- The options of the command `inspect`. -/
def InspectRequest.kindOf : String → Option OptionKind
  | "format" => some .value
  | _ => none

/-- The request that the arguments of `inspect` make. -/
def InspectRequest.ofArguments? (arguments : List String) : Option InspectRequest := do
  let g ← Given.read? kindOf arguments
  if g.isSingular kindOf then
    return {
      file := ← pathArgument? (← g.operand?)
      format := ← g.valueOr formatArgument? .text "format" }
  else none

/-- The request that arguments make.  What follows a wish for the version does not count. -/
def Request.ofArguments? : List String → Option Request
  | "extract" :: rest => .extract <$> ExtractRequest.ofArguments? rest
  | "inspect" :: rest => .inspect <$> InspectRequest.ofArguments? rest
  | first :: _ => if first == "--version" || "-v".isPrefixOf first then some .version else none
  | [] => none

end JavaOutline.Command

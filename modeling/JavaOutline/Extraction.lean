import JavaOutline.Files.System
import JavaOutline.Log
import JavaOutline.Normalize.Unit

/-! # Extraction

Extraction condenses one source to its outline.  A source with a syntax error has no outline; its
imports can still be asked whether they mention the marker of benchmark code.

The Java parser is a parameter: it gives a syntax tree for every source, or gives up.
-/

namespace JavaOutline

open Syntax (Node)

/-- A Java parser: the syntax tree of a source, unless the parser gave up on it. -/
abbrev Parser := String → Option Node

/-- What can be set for an extraction. -/
structure ExtractOptions where
  /-- A part of an import name, in any case, that marks benchmark code. -/
  marker : String := "jmh"
  /-- The nesting budget of declarations, statements and expressions. -/
  maxDepth : Nat := 1024
  /-- The time that the parser may take for one source, in microseconds; none if zero. -/
  parseTimeoutMicros : Nat := 0
deriving DecidableEq

/-! ## Failures -/

/-- Why a source has no outline. -/
inductive ExtractError where
  | io (path : String) (cause : FileError)
  /-- A syntax error, at a line and column from one. -/
  | syntaxError (origin : String) (line column : Nat)
  /-- The parser gave up. -/
  | incomplete (origin : String)
  /-- There is no parser. -/
  | grammar (cause : String)
  /-- The outline cannot be persisted. -/
  | encode (cause : String)
deriving DecidableEq

namespace ExtractError

/-- The wording of a failure. -/
def message : ExtractError → String
  | io path cause => "failed to read " ++ path ++ ": " ++ cause.message
  | syntaxError origin line column =>
    "failed to parse " ++ origin ++ ": syntax error at " ++ line.repr ++ ":" ++ column.repr
  | incomplete origin => "failed to parse " ++ origin ++ ": parse did not complete"
  | grammar cause => "failed to load java grammar: " ++ cause
  | encode cause => "failed to encode IR: " ++ cause

/-- Whether the file could not be read. -/
def isIo : ExtractError → Bool
  | io .. => true
  | _ => false

/-- Whether the source could not be parsed. -/
def isParse : ExtractError → Bool
  | syntaxError .. | incomplete _ => true
  | _ => false

end ExtractError

/-! ## Events -/

namespace Remark

/-- The event that a remark becomes. -/
def event (maxDepth : Nat) : Remark → Event
  | unsupported category kind line =>
    { level := .trace, message := "Unsupported construct omitted"
      fields := [("category", .plain category.name), ("kind", .plain kind),
        ("line", .number line)] }
  | noOperand kind line =>
    { level := .trace, message := "Condition has no supported operand"
      fields := [("kind", .plain kind), ("line", .number line)] }
  | tooDeep line =>
    { level := .warn, message := "Nesting too deep, dropping subtree"
      fields := [("line", .number line), ("max_depth", .number maxDepth)] }

/-- The remarks that are logged: of those on nesting only the first. -/
def logged : List Remark → List Remark
  | [] => []
  | r :: rs => if r.isTooDeep then r :: rs.filter (!·.isTooDeep) else r :: logged rs

end Remark

/-! ## Sources -/

section

variable (parser : Parser) (options : ExtractOptions)

/-- The syntax tree of a source. -/
def parseSource (source origin : String) : Except ExtractError Node :=
  match parser source with
  | some root => .ok root
  | none => .error (.incomplete origin)

/-- The place of the first error of a tree that has one. -/
def errorPlace (source : Bytes) (root : Node) : Nat × Nat :=
  match root.firstError? with
  | some n => (n.line source, n.column source)
  | none => (1, 1)

/-- The outline of a source with the remarks made on it. -/
def extractNoted (source origin : String) : Except ExtractError (Noted Outline) := do
  let root ← parseSource parser source origin
  if root.hasError then
    let (line, column) := errorPlace (utf8 source) root
    throw (.syntaxError origin line column)
  return unitOf (utf8 source) options.maxDepth root

/-- The outline of a source. -/
def extractSource (source origin : String) : Except ExtractError Outline :=
  return (← extractNoted parser options source origin).value

/-- The events of a finished extraction. -/
def extractionEvents (origin : String) (result : Noted Outline) : List Event :=
  (Remark.logged result.remarks).map (Remark.event options.maxDepth) ++
    [{ level := .debug, message := "File extracted"
       fields := [("origin", .quoted origin), ("imports", .number result.value.imports.length),
        ("declarations", .number result.value.namespaces.length),
        ("unsupported", .number (Remark.unsupportedCount result.remarks))] }]

/-- What is logged while a source is extracted; a failed extraction logs nothing. -/
def extractEvents (source origin : String) : List Event :=
  match extractNoted parser options source origin with
  | .ok result => extractionEvents options origin result
  | .error _ => []

/-- Whether an import of a source mentions the marker.  Imports are read even if the rest of the
    source is malformed. -/
def isCandidate (source origin : String) : Except ExtractError Bool := do
  let root ← parseSource parser source origin
  let marker := Text.lower options.marker
  return (importsOf (utf8 source) root).any fun name => Text.contains (Text.lower name) marker

end

end JavaOutline

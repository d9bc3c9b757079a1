import JavaOutline.Outline.Encode
import JavaOutline.Outline.Query
import JavaOutline.Text.Case

/-! # Outlines for human readers

The summary of an outline lists its imports, its declarations indented by nesting, and its
benchmark methods with the calls they make.  Each list has a heading with its length.
-/

namespace JavaOutline

/-- The line for a declaration at nesting `level`. -/
def TypeDecl.summaryLine (level : Nat) (d : TypeDecl) : String :=
  String.ofList (List.replicate (2 * level) ' ') ++ d.kind.name ++ " " ++ d.name ++
    " (fields: " ++ d.fields.length.repr ++ ", methods: " ++ d.methods.length.repr ++ ")"

mutual

/-- The lines for a declaration at nesting `level` and all declarations nested in it. -/
def TypeDecl.summaryLines (level : Nat) : TypeDecl → List String
  | d@⟨_, _, _, _, _, nested⟩ =>
    d.summaryLine level :: TypeDecl.summaryLinesOf (level + 1) nested

/-- The lines for the declarations of a list. -/
def TypeDecl.summaryLinesOf (level : Nat) : List TypeDecl → List String
  | [] => []
  | d :: ds => d.summaryLines level ++ TypeDecl.summaryLinesOf level ds

end

/-- The line for a benchmark method. -/
def Method.summaryLine (owner : String) (m : Method) : String :=
  let head := "  " ++ owner ++ "." ++ m.name
  match m.calls with
  | [] => head
  | calls => head ++ " -> " ++ String.intercalate ", " calls

namespace Outline

/-- The lines of the summary. -/
def summaryLines (o : Outline) : List String :=
  ("imports (" ++ o.imports.length.repr ++ ")") :: o.imports.map ("  " ++ ·) ++
  ("declarations (" ++ o.declarations.length.repr ++ ")") ::
    TypeDecl.summaryLinesOf 1 o.namespaces ++
  ("benchmarks (" ++ o.benchmarks.length.repr ++ ")") ::
    o.benchmarks.map fun (owner, m) => m.summaryLine owner

/-- The summary: every line ends in a line break. -/
def summary (o : Outline) : String :=
  String.join (o.summaryLines.map (· ++ "\n"))

end Outline

/-! ## Formats -/

/-- How an outline is shown. -/
inductive Format where
  | text
  | json
deriving DecidableEq

/-- The format that a name, in any case, stands for. -/
def Format.ofName? (name : String) : Option Format :=
  match Text.lower name with
  | "text" => some .text
  | "json" => some .json
  | _ => none

/-- An outline in a format. -/
def Outline.render (o : Outline) : Format → Bytes
  | .text => utf8 o.summary
  | .json => o.encodePretty

end JavaOutline

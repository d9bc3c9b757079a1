import JavaOutline.Normalize.Form
import JavaOutline.Outline.Basic
import JavaOutline.Syntax.Node
import JavaOutline.Text.Case

/-! # Signatures

The parts of a declaration that are read from its node alone, without descending: modifiers and
annotations, declarators, parameters, and the kind of a type.
-/

namespace JavaOutline

open Syntax (Node)

/-! ## Modifiers -/

/-- The keyword that a token spells in any case. -/
def Keyword.ofToken? (token : String) : Option Keyword :=
  (Text.asciiUpper? token).bind Keyword.ofName?

/-- The visibility that a token spells in any case. -/
def Visibility.ofToken? (token : String) : Option Visibility :=
  (Text.asciiUpper? token).bind Visibility.ofName?

/-- The modifier that a token stands for.  An unknown token is kept as it is. -/
def Modifier.ofToken (token : String) : Modifier :=
  match Keyword.ofToken? token, Visibility.ofToken? token with
  | some k, _ => .keyword k token
  | none, some level => .visibility level
  | none, none => .other token

/-- One member of an annotation with its value. -/
def memberAndValue (member value : String) : String :=
  member ++ " " ++ value

section

variable (source : Bytes)

/-- The text of an argument of an annotation. -/
def annotationArgument (argument : Node) : String :=
  if argument.kind == "element_value_pair" then
    memberAndValue ((argument.fieldText? source "key").getD "")
      ((argument.fieldText? source "value").getD "")
  else memberAndValue "" (argument.text source)

/-- The use of an annotation. -/
def annotationOf (n : Node) : Modifier :=
  .annotated ((n.fieldText? source "name").getD "")
    (match n.child? "arguments" with
      | some arguments => arguments.content.map (annotationArgument source)
      | none => [])

/-- The modifier at one node of a modifier list. -/
def modifierOf (n : Node) : Modifier :=
  if n.kind == "annotation" || n.kind == "marker_annotation" then annotationOf source n
  else .ofToken (n.text source)

/-- The modifiers of a declaration, in source order. -/
def modifiersOf (owner : Node) : List Modifier :=
  match owner.children.find? (·.kind == "modifiers") with
  | some list => (list.children.filter (!·.isExtra)).map (modifierOf source)
  | none => []

/-! ## Declarators and parameters -/

/-- One `name [dims] [= value]` of a variable or field declaration. -/
structure Declarator where
  name : String
  type : String
  value : Option String

/-- The declarator at a node, its dimensions joined to the declared type. -/
def declaratorOf? (type : String) (n : Node) : Option Declarator := do
  let name ← n.fieldText? source "name"
  let dimensions := (n.fieldText? source "dimensions").getD ""
  return ⟨name, type ++ dimensions, n.fieldText? source "value"⟩

/-- The declarators of a variable, field or constant declaration. -/
def declaratorsOf (n : Node) : List Declarator :=
  match n.fieldText? source "type" with
  | some type => (n.childrenAt "declarator").filterMap (declaratorOf? source type)
  | none => []

/-- The parameter `type... name`, whose parts are under no field. -/
def spreadParameterOf? (n : Node) : Option Variable := do
  let type ← n.content.find? fun c => c.kind != "modifiers" && c.kind != "variable_declarator"
  let declarator ← n.content.find? (·.kind == "variable_declarator")
  let name ← declarator.fieldText? source "name"
  return .typed name (type.text source ++ "...") (modifiersOf source n)

/-- The parameter at a node, if it is one that an outline holds. -/
def parameterOf? (n : Node) : Option Variable :=
  match n.kind with
  | "formal_parameter" => do
    let name ← n.fieldText? source "name"
    let type ← n.fieldText? source "type"
    let dimensions := (n.fieldText? source "dimensions").getD ""
    return .typed name (type ++ dimensions) (modifiersOf source n)
  | "spread_parameter" => spreadParameterOf? source n
  | _ => none

/-- The parameters of a method. -/
def parametersOf (method : Node) : List Variable :=
  match method.child? "parameters" with
  | some list => list.content.filterMap (parameterOf? source)
  | none => []

/-- The fields that a field or constant declaration declares. -/
def fieldsOf (n : Node) : List Variable :=
  let modifiers := modifiersOf source n
  (declaratorsOf source n).map fun d => .typed d.name d.type modifiers

end

/-! ## Kinds of types -/

/-- Facts about a type declaration that decide its kind. -/
structure DeclShape where
  isInterface : Bool := false
  isAnnotationType : Bool := false
  isEnum : Bool := false
  isGeneric : Bool := false
  isClass : Bool := false

/-- The kind of a declaration: the first of interface, annotation, enum, generic, class that
    applies. -/
def DeclShape.kind (s : DeclShape) : DeclKind :=
  if s.isInterface then .interfaceDecl
  else if s.isAnnotationType then .annotationDecl
  else if s.isEnum then .enumDecl
  else if s.isGeneric then .generic
  else if s.isClass then .classDecl
  else .other

/-- The shape of the declaration at a node. -/
def DeclShape.of (n : Node) : DeclShape where
  isInterface := n.kind == "interface_declaration"
  isAnnotationType := n.kind == "annotation_type_declaration"
  isEnum := n.kind == "enum_declaration"
  isGeneric := (n.child? "type_parameters").isSome
  isClass := n.kind == "class_declaration"

end JavaOutline

import JavaOutline.Json.Text
import JavaOutline.Outline.Basic

/-! # The persisted form of an outline

An outline is persisted as JSON inside an envelope that names the schema and its version.  Every
field of a record is written, in the order of its declaration, and an absent condition is `null`.

* `Outline.encode` is the compact document, `Outline.encodePretty` the indented one.
-/

namespace JavaOutline

/-- The name of the persisted schema. -/
def schemaName : String := "microast.ast"

/-- The version of the persisted schema. -/
def schemaVersion : Nat := 1

namespace Json

/-- An object from field names and values. -/
def record (fields : List (String × Json)) : Json :=
  .object (fields.map fun (name, value) => (escape name, value))

/-- An array of texts. -/
def texts (items : List String) : Json :=
  .array (items.map text)

/-- The decimal digits of a number. -/
def decimal (n : Nat) : Bytes :=
  utf8 n.repr

end Json

open Json (record text texts)

/-- The persisted form of a type reference. -/
def TypeRef.toJson (t : TypeRef) : Json :=
  record [("name", text t.name), ("kind", text t.kind.name)]

/-- The persisted form of a modifier: its kind first, then what belongs to the kind. -/
def Modifier.toJson : Modifier → Json
  | visibility level => record [("kind", text "VISIBILITY"), ("visibility", text level.name)]
  | keyword k token => record [("kind", text k.name), ("name", text token)]
  | annotated name pairs =>
    record [("kind", text "ANNOTATION"), ("name", text name), ("membersAndValues", texts pairs)]
  | other token => record [("kind", text "OTHER"), ("other", text token)]

/-- The persisted form of a variable. -/
def Variable.toJson (v : Variable) : Json :=
  record [("name", text v.name), ("type", v.type.toJson),
    ("modifiers", .array (v.modifiers.map Modifier.toJson))]

mutual

/-- The persisted form of an expression. -/
def Expression.toJson : Expression → Json
  | ⟨kind, literal, varName, method, isPostfix, arguments, declared, operands, newType⟩ =>
    record [("kind", text kind.name), ("literal", text literal), ("variable", text varName),
      ("method", text method), ("isPostfix", .bool isPostfix),
      ("methodArguments", .array (Expression.listToJson arguments)),
      ("variableDeclarations", .array (declared.map Variable.toJson)),
      ("expressions", .array (Expression.listToJson operands)), ("newType", newType.toJson)]

/-- The persisted form of each expression of a list. -/
def Expression.listToJson : List Expression → List Json
  | [] => []
  | e :: es => e.toJson :: Expression.listToJson es

end

/-- The persisted form of an optional expression. -/
def Expression.optionToJson : Option Expression → Json
  | none => .null
  | some e => e.toJson

mutual

/-- The persisted form of a statement. -/
def Statement.toJson : Statement → Json
  | ⟨kind, condition, statements, expressions, initializations, updates⟩ =>
    record [("kind", text kind.name), ("condition", Expression.optionToJson condition),
      ("statements", .array (Statement.listToJson statements)),
      ("expressions", .array (Expression.listToJson expressions)),
      ("initializations", .array (Expression.listToJson initializations)),
      ("updates", .array (Expression.listToJson updates))]

/-- The persisted form of each statement of a list. -/
def Statement.listToJson : List Statement → List Json
  | [] => []
  | s :: ss => s.toJson :: Statement.listToJson ss

end

/-- The persisted form of a method. -/
def Method.toJson (m : Method) : Json :=
  record [("name", text m.name), ("returnType", m.returnType.toJson),
    ("modifiers", .array (m.modifiers.map Modifier.toJson)),
    ("arguments", .array (m.arguments.map Variable.toJson)),
    ("bodyContent", .array (Expression.listToJson m.bodyContent)),
    ("statements", .array (Statement.listToJson m.statements))]

mutual

/-- The persisted form of a type declaration. -/
def TypeDecl.toJson : TypeDecl → Json
  | ⟨name, kind, modifiers, fields, methods, nested⟩ =>
    record [("name", text name), ("kind", text kind.name),
      ("modifiers", .array (modifiers.map Modifier.toJson)),
      ("fields", .array (fields.map Variable.toJson)),
      ("methods", .array (methods.map Method.toJson)),
      ("nested", .array (TypeDecl.listToJson nested))]

/-- The persisted form of each declaration of a list. -/
def TypeDecl.listToJson : List TypeDecl → List Json
  | [] => []
  | d :: ds => d.toJson :: TypeDecl.listToJson ds

end

namespace Outline

/-- The persisted form of an outline, without its envelope. -/
def toJson (o : Outline) : Json :=
  record [("imports", texts o.imports), ("namespaces", .array (TypeDecl.listToJson o.namespaces))]

/-- The document that persists an outline: schema, version, content. -/
def envelope (o : Outline) : Json :=
  record [("schema", text schemaName), ("version", .number (Json.decimal schemaVersion)),
    ("root", o.toJson)]

/-- The bytes that persist an outline. -/
def encode (o : Outline) : Bytes :=
  o.envelope.compact

/-- The same document for human readers. -/
def encodePretty (o : Outline) : Bytes :=
  o.envelope.pretty

end Outline

end JavaOutline

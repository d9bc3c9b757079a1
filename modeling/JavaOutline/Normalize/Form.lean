/-! # Syntax kinds and what they mean for an outline

The Java grammar has some two hundred kinds of nodes.  For each place where a node can stand, a
small enumeration lists the forms that an outline distinguishes there, and `ofKind` sorts the
grammar's kinds into them.
-/

namespace JavaOutline

/-- Kinds of nodes that declare a type. -/
def typeDeclKinds : List String :=
  ["class_declaration", "interface_declaration", "enum_declaration",
    "annotation_type_declaration", "record_declaration"]

/-- Kinds of literals. -/
def literalKinds : List String :=
  ["decimal_integer_literal", "hex_integer_literal", "octal_integer_literal",
    "binary_integer_literal", "decimal_floating_point_literal", "hex_floating_point_literal",
    "character_literal", "string_literal", "text_block", "true", "false", "null_literal"]

/-- Forms of a node where an expression stands. -/
inductive ExpressionForm where
  | literal
  | name
  | fieldAccess
  | arrayAccess
  /-- Parentheses, or the wrapper around the predicate of an `if` or `while`. -/
  | wrapper
  | binary
  | assignment
  | call
  | creation
  | localVariable
  | typeDecl
  /-- Casts, unary and ternary operators, lambdas and the like: only their operands count. -/
  | unsupported
deriving DecidableEq

/-- The form of a kind where an expression stands. -/
def ExpressionForm.ofKind (kind : String) : ExpressionForm :=
  if kind ∈ literalKinds then .literal
  else if kind ∈ typeDeclKinds then .typeDecl
  else match kind with
    | "identifier" => .name
    | "field_access" => .fieldAccess
    | "array_access" => .arrayAccess
    | "parenthesized_expression" | "condition" => .wrapper
    | "binary_expression" => .binary
    | "assignment_expression" => .assignment
    | "method_invocation" => .call
    | "object_creation_expression" => .creation
    | "local_variable_declaration" => .localVariable
    | _ => .unsupported

/-- Forms of a node where a statement stands. -/
inductive StatementForm where
  | ifThen
  | returnValue
  | doWhile
  | whileLoop
  | forLoop
  | block
  | tryBlock
  /-- A local type, which an outline does not hold. -/
  | typeDecl
  /-- `switch`, enhanced `for`, `throw` and the like: only what they contain counts. -/
  | unsupported
deriving DecidableEq

/-- The form of a kind where a statement stands. -/
def StatementForm.ofKind (kind : String) : StatementForm :=
  if kind ∈ typeDeclKinds then .typeDecl
  else match kind with
    | "if_statement" => .ifThen
    | "return_statement" => .returnValue
    | "do_statement" => .doWhile
    | "while_statement" => .whileLoop
    | "for_statement" => .forLoop
    | "block" => .block
    | "try_statement" | "try_with_resources_statement" => .tryBlock
    | _ => .unsupported

/-- Forms of a node inside a block or inside an unsupported statement. -/
inductive PartForm where
  | expressionStatement
  | localVariable
  | statement
  | expression
deriving DecidableEq

/-- The form of a kind inside a block, where all else is a statement. -/
def PartForm.ofBlockKind (kind : String) : PartForm :=
  match kind with
  | "expression_statement" => .expressionStatement
  | "local_variable_declaration" => .localVariable
  | _ => .statement

/-- Whether a kind is a statement or only groups statements. -/
def isStatementKind (kind : String) : Bool :=
  kind.endsWith "_statement" ||
    kind ∈ ["block", "switch_expression", "switch_block", "switch_block_statement_group",
      "switch_rule"] ||
    kind ∈ typeDeclKinds

/-- The form of a kind inside an unsupported statement, where expressions stand beside
    statements. -/
def PartForm.ofContainedKind (kind : String) : PartForm :=
  match kind with
  | "expression_statement" => .expressionStatement
  | "local_variable_declaration" => .localVariable
  | _ => if isStatementKind kind then .statement else .expression

/-- Forms of a node in the body of a type declaration. -/
inductive MemberForm where
  | method
  | field
  | enumConstant
  /-- The part of an enum body behind its constants. -/
  | enumBody
  | typeDecl
  | unsupported
deriving DecidableEq

/-- The form of a kind in the body of a type declaration. -/
def MemberForm.ofKind (kind : String) : MemberForm :=
  if kind ∈ typeDeclKinds then .typeDecl
  else match kind with
    | "method_declaration" | "annotation_type_element_declaration" => .method
    | "field_declaration" | "constant_declaration" => .field
    | "enum_constant" => .enumConstant
    | "enum_body_declarations" => .enumBody
    | _ => .unsupported

/-- Forms of a node at the top of a file. -/
inductive TopLevelForm where
  | importName
  | package
  | typeDecl
  | unsupported
deriving DecidableEq

/-- The form of a kind at the top of a file. -/
def TopLevelForm.ofKind (kind : String) : TopLevelForm :=
  if kind ∈ typeDeclKinds then .typeDecl
  else match kind with
    | "import_declaration" => .importName
    | "package_declaration" => .package
    | _ => .unsupported

end JavaOutline

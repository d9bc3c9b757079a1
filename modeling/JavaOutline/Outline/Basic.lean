/-! # The outline of a Java source file

An `Outline` is what remains of a source file once it is condensed to a small closed vocabulary:
the names it imports and its type declarations, each with modifiers, fields, methods and nested
declarations.  A method body is a list of statements and expressions.

`Statement` and `Expression` are tagged records: every kind has the same fields and fills only
those that mean something for it.  The persisted form has the same layout and admits any
combination, so the record, not a sum, is the faithful type.  `Modifier` is a true sum.

Each enumeration has a `name`, the tag that stands for it in a persisted document, and a reader
`ofName?` with `ofName?_name`.
-/

namespace JavaOutline

/-! ## Kinds -/

/-- What a type declaration declares. -/
inductive DeclKind where
  | classDecl
  | interfaceDecl
  | enumDecl
  | annotationDecl
  | generic
  | other
deriving DecidableEq, Inhabited

namespace DeclKind

/-- The persisted tag. -/
def name : DeclKind → String
  | classDecl => "CLASS"
  | interfaceDecl => "INTERFACE"
  | enumDecl => "ENUM"
  | annotationDecl => "ANNOTATION"
  | generic => "GENERIC"
  | other => "OTHER"

/-- The kind that a persisted tag names. -/
def ofName? : String → Option DeclKind
  | "CLASS" => some classDecl
  | "INTERFACE" => some interfaceDecl
  | "ENUM" => some enumDecl
  | "ANNOTATION" => some annotationDecl
  | "GENERIC" => some generic
  | "OTHER" => some other
  | _ => none

@[simp] theorem ofName?_name (k : DeclKind) : ofName? k.name = some k := by
  cases k <;> rfl

end DeclKind

/-- Who may see a member. -/
inductive Visibility where
  | publicAccess
  | privateAccess
  | protectedAccess
  | packageAccess
deriving DecidableEq, Inhabited

namespace Visibility

/-- The persisted tag. -/
def name : Visibility → String
  | publicAccess => "PUBLIC"
  | privateAccess => "PRIVATE"
  | protectedAccess => "PROTECTED"
  | packageAccess => "PACKAGE"

/-- The visibility that a persisted tag names. -/
def ofName? : String → Option Visibility
  | "PUBLIC" => some publicAccess
  | "PRIVATE" => some privateAccess
  | "PROTECTED" => some protectedAccess
  | "PACKAGE" => some packageAccess
  | _ => none

@[simp] theorem ofName?_name (v : Visibility) : ofName? v.name = some v := by
  cases v <;> rfl

end Visibility

/-- Keyword qualifiers with a modifier kind of their own. -/
inductive Keyword where
  | static
  | final
  | abstract
  | synchronized
deriving DecidableEq, Inhabited

namespace Keyword

/-- The persisted tag. -/
def name : Keyword → String
  | static => "STATIC"
  | final => "FINAL"
  | abstract => "ABSTRACT"
  | synchronized => "SYNCHRONIZED"

/-- The keyword that a persisted tag names. -/
def ofName? : String → Option Keyword
  | "STATIC" => some static
  | "FINAL" => some final
  | "ABSTRACT" => some abstract
  | "SYNCHRONIZED" => some synchronized
  | _ => none

@[simp] theorem ofName?_name (k : Keyword) : ofName? k.name = some k := by
  cases k <;> rfl

end Keyword

/-- What a statement is. -/
inductive StatementKind where
  | ifThen
  | doWhile
  | whileLoop
  | forLoop
  | block
  | tryBlock
  | returnValue
deriving DecidableEq

instance : Inhabited StatementKind := ⟨.block⟩

namespace StatementKind

/-- The persisted tag. -/
def name : StatementKind → String
  | ifThen => "IF"
  | doWhile => "DO"
  | whileLoop => "WHILE"
  | forLoop => "FOR"
  | block => "BLOCK"
  | tryBlock => "TRY"
  | returnValue => "RETURN"

/-- The kind that a persisted tag names. -/
def ofName? : String → Option StatementKind
  | "IF" => some ifThen
  | "DO" => some doWhile
  | "WHILE" => some whileLoop
  | "FOR" => some forLoop
  | "BLOCK" => some block
  | "TRY" => some tryBlock
  | "RETURN" => some returnValue
  | _ => none

@[simp] theorem ofName?_name (k : StatementKind) : ofName? k.name = some k := by
  cases k <;> rfl

end StatementKind

/-- What an expression is.  No source produces `returnValue`; documents may hold it. -/
inductive ExpressionKind where
  | literal
  | variableDeclaration
  | fieldAccess
  | methodCall
  | creation
  | assignment
  | returnValue
  | other
deriving DecidableEq

instance : Inhabited ExpressionKind := ⟨.other⟩

namespace ExpressionKind

/-- The persisted tag. -/
def name : ExpressionKind → String
  | literal => "LITERAL"
  | variableDeclaration => "VARIABLE_DECLARATION"
  | fieldAccess => "FIELD_ACCESS"
  | methodCall => "METHODCALL"
  | creation => "NEW"
  | assignment => "ASSIGN"
  | returnValue => "RETURN_VALUE"
  | other => "OTHER"

/-- The kind that a persisted tag names. -/
def ofName? : String → Option ExpressionKind
  | "LITERAL" => some literal
  | "VARIABLE_DECLARATION" => some variableDeclaration
  | "FIELD_ACCESS" => some fieldAccess
  | "METHODCALL" => some methodCall
  | "NEW" => some creation
  | "ASSIGN" => some assignment
  | "RETURN_VALUE" => some returnValue
  | "OTHER" => some other
  | _ => none

@[simp] theorem ofName?_name (k : ExpressionKind) : ofName? k.name = some k := by
  cases k <;> rfl

end ExpressionKind

/-! ## Parts -/

/-- A type as the source writes it, not resolved. -/
structure TypeRef where
  name : String := ""
  kind : DeclKind := .other
deriving DecidableEq, Inhabited

/-- A keyword qualifier or the use of an annotation. -/
inductive Modifier where
  | visibility (level : Visibility)
  /-- Keeps the source token as written. -/
  | keyword (keyword : Keyword) (token : String)
  /-- Each pair reads `"<member> <value>"`; the member is empty in the shorthand `@A(v)`. -/
  | annotated (name : String) (membersAndValues : List String)
  | other (token : String)
deriving DecidableEq, Inhabited

/-- A field, a parameter or a local variable. -/
structure Variable where
  name : String
  type : TypeRef
  modifiers : List Modifier := []
deriving DecidableEq, Inhabited

/-- A variable whose type is named as written. -/
def Variable.typed (name type : String) (modifiers : List Modifier) : Variable :=
  ⟨name, ⟨type, .other⟩, modifiers⟩

/-- An expression of a method body. -/
structure Expression where
  kind : ExpressionKind := .other
  literal : String := ""
  varName : String := ""
  method : String := ""
  /-- Set on the value side of an assignment. -/
  isPostfix : Bool := false
  methodArguments : List Expression := []
  variableDeclarations : List Variable := []
  expressions : List Expression := []
  newType : TypeRef := {}
deriving BEq, Inhabited

/-- A statement of a method body. -/
structure Statement where
  kind : StatementKind := .block
  /-- The predicate of an `ifThen`, `doWhile` or `whileLoop`.  A `forLoop` keeps its comparison in
      `expressions`. -/
  condition : Option Expression := none
  statements : List Statement := []
  expressions : List Expression := []
  initializations : List Expression := []
  updates : List Expression := []
deriving BEq, Inhabited

/-- A method of a type declaration. -/
structure Method where
  name : String
  returnType : TypeRef
  modifiers : List Modifier := []
  arguments : List Variable := []
  /-- Expression statements at the top level of the body. -/
  bodyContent : List Expression := []
  /-- Every other statement at the top level of the body. -/
  statements : List Statement := []
deriving BEq, Inhabited

/-- A class, interface, enum, annotation type or record. -/
structure TypeDecl where
  name : String
  kind : DeclKind
  modifiers : List Modifier := []
  fields : List Variable := []
  methods : List Method := []
  /-- Declarations that stand directly in this declaration's body. -/
  nested : List TypeDecl := []
deriving BEq, Inhabited

/-- The outline of one source file. -/
structure Outline where
  /-- Dotted names, in source order. -/
  imports : List String := []
  /-- Top-level declarations, in source order. -/
  namespaces : List TypeDecl := []
deriving BEq, Inhabited

/-! ## Expressions by kind -/

namespace Expression

/-- A literal, as written. -/
def ofLiteral (text : String) : Expression :=
  { kind := .literal, literal := text }

/-- A bare name. -/
def ofName (name : String) : Expression :=
  { kind := .other, varName := name }

/-- `object.field`: the object is the variable name, the field is the literal. -/
def ofFieldAccess (object field : String) : Expression :=
  { kind := .fieldAccess, varName := object, literal := field }

/-- `array[index]`, both kept as text. -/
def ofArrayAccess (array index : String) : Expression :=
  { kind := .other, varName := array, literal := index }

/-- The declaration of one local variable, with the text of its initializer. -/
def ofDeclaration (initializer : String) (declared : Variable) : Expression :=
  { kind := .variableDeclaration, literal := initializer, varName := declared.name,
    variableDeclarations := [declared] }

/-- A call by its full name, receiver included. -/
def ofCall (method : String) (arguments : List Expression) : Expression :=
  { kind := .methodCall, method := method, methodArguments := arguments }

/-- The types that wrap a primitive one. -/
def boxedTypes : List String :=
  ["Boolean", "Byte", "Character", "Short", "Integer", "Long", "Float", "Double"]

/-- Whether `name` is a wrapper type, qualified or not. -/
def isBoxedType (name : String) : Bool :=
  boxedTypes.any fun simple => name == simple || name == "java.lang." ++ simple

/-- An object creation.  A wrapper type's name is kept as the variable name, any other as the
    literal. -/
def ofCreation (type : String) (arguments : List Expression) : Expression :=
  if isBoxedType type then
    { kind := .creation, varName := type, newType := ⟨type, .other⟩, methodArguments := arguments }
  else
    { kind := .creation, literal := type, newType := ⟨type, .other⟩, methodArguments := arguments }

/-- An assignment: value operands first, then the target's. -/
def ofAssignment (operands : List Expression) : Expression :=
  { kind := .assignment, expressions := operands }

/-- The same expression, marked as the value side of an assignment. -/
def asPostfix (e : Expression) : Expression :=
  { e with isPostfix := true }

end Expression

/-! ## Statements by kind -/

namespace Statement

/-- An `ifThen`, `doWhile` or `whileLoop` with its predicate and body. -/
def ofCondition (kind : StatementKind) (condition : Option Expression) (body : List Statement) :
    Statement :=
  { kind := kind, condition := condition, statements := body }

/-- A block, its expression statements apart from its other statements. -/
def ofBlock (expressions : List Expression) (statements : List Statement) : Statement :=
  { kind := .block, expressions := expressions, statements := statements }

/-- A `try` with its body only. -/
def ofTry (body : List Statement) : Statement :=
  { kind := .tryBlock, statements := body }

/-- A `return` with its operands. -/
def ofReturn (values : List Expression) : Statement :=
  { kind := .returnValue, expressions := values }

/-- A `for` loop with its comparison operands, initializations, updates and body. -/
def ofFor (comparisons initializations updates : List Expression) (body : List Statement) :
    Statement :=
  { kind := .forLoop, expressions := comparisons, initializations := initializations,
    updates := updates, statements := body }

end Statement

end JavaOutline

import JavaOutline.Normalize.Body

/-! # Type declarations and whole files

`declarationOf` turns the node of a type declaration into a `TypeDecl`, and `unitOf` turns the root
of a syntax tree into an `Outline`.  Nested declarations use up the same budget as statements and
expressions: the body of a declaration is read with one level less than the declaration itself.
-/

namespace JavaOutline

open Syntax (Node)

/-- What the body of a type declaration declares. -/
structure Members where
  fields : List Variable := []
  methods : List Method := []
  nested : List TypeDecl := []

/-- The members of one body in front of those of another. -/
def Members.append (a b : Members) : Members :=
  ⟨a.fields ++ b.fields, a.methods ++ b.methods, a.nested ++ b.nested⟩

section

variable {m : Type → Type} [Monad m] [MonadLiftT Noted m] (source : Bytes)

/-- The method at a node, with `expression` and `statement` for the nodes of its body. -/
def methodStep (expression : Node → m (List Expression)) (statement : Node → m (List Statement))
    (n : Node) : m (List Method) :=
  match n.fieldText? source "name" with
  | some name => do
    let type := (n.fieldText? source "type").getD ""
    let dimensions := (n.fieldText? source "dimensions").getD ""
    let body ← match n.child? "body" with
      | some body => blockParts expression statement body
      | none => pure {}
    return [{ name := name
              returnType := ⟨type ++ dimensions, .other⟩
              modifiers := modifiersOf source n
              arguments := parametersOf source n
              bodyContent := body.expressions
              statements := body.statements }]
  | none => do
    monadLift (n.leaveOut source .member)
    return []

/-- The method at a node, its body read within `budget`. -/
def methodOf (budget : Nat) (n : Node) : Noted (List Method) :=
  methodStep source (expressionOf source budget) (statementOf source budget) n

section

variable (method : Node → m (List Method)) (declaration : Node → m (List TypeDecl))

mutual

/-- The members that the body at a node declares, with `method` for its methods and `declaration`
    for nested types. -/
def membersOf : Node → m Members
  | ⟨_, _, _, _, _, _, _, _, _, children⟩ => membersIn children

/-- The members that the content nodes of a list declare. -/
def membersIn : List Node → m Members
  | [] => return {}
  | n :: ns => do
    let here ←
      if n.isContent then
        match MemberForm.ofKind n.kind with
        | .method => (fun ms => { methods := ms }) <$> method n
        | .field => pure { fields := fieldsOf source n }
        | .enumConstant => pure {}
        | .enumBody => membersOf n
        | .typeDecl => (fun ds => { nested := ds }) <$> declaration n
        | .unsupported => (fun _ => {}) <$> monadLift (n.leaveOut source .member)
      else pure {}
    return here.append (← membersIn ns)

end

end

/-- The type declaration at a node, with `members` for its body; none if the type has no name. -/
def declarationStep (members : Node → m Members) (n : Node) : m (List TypeDecl) :=
  match n.fieldText? source "name" with
  | some name => do
    let found ← match n.child? "body" with
      | some body => members body
      | none => pure {}
    return [{ name := name
              kind := (DeclShape.of n).kind
              modifiers := modifiersOf source n
              fields := found.fields
              methods := found.methods
              nested := found.nested }]
  | none => do
    monadLift (n.leaveOut source .declaration)
    return []

/-- The type declaration at a node; none if the budget is used up or the type has no name. -/
def declarationOf : (budget : Nat) → Node → Noted (List TypeDecl)
  | 0, n => refuse source n
  | budget + 1, n =>
    declarationStep source (membersOf source (methodOf source budget) (declarationOf budget)) n

/-- The dotted name that an import declaration imports, without `static` and without a trailing
    `.*`. -/
def importName? (n : Node) : Option String := do
  let name ← n.content.find? fun c => c.kind == "identifier" || c.kind == "scoped_identifier"
  name.text? source

/-- The outline that the nodes at the top of a file give, with `declaration` for its types. -/
def topLevelOf (declaration : Node → m (List TypeDecl)) : List Node → m Outline
  | [] => return {}
  | n :: ns => do
    let here : Outline ← match TopLevelForm.ofKind n.kind with
      | .importName => pure { imports := (importName? source n).toList }
      | .package => pure {}
      | .typeDecl => (fun ds => { namespaces := ds }) <$> declaration n
      | .unsupported => (fun _ => {}) <$> monadLift (n.leaveOut source .declaration)
    let rest ← topLevelOf declaration ns
    return ⟨here.imports ++ rest.imports, here.namespaces ++ rest.namespaces⟩

/-- The outline of the file whose syntax tree has this root. -/
def unitOf (budget : Nat) (root : Node) : Noted Outline :=
  topLevelOf source (declarationOf source budget) root.content

mutual

/-- The names imported at the top of a file, also inside what the parser could not place. -/
def importsOf : Node → List String
  | ⟨_, _, _, _, _, _, _, _, _, children⟩ => importsIn children

/-- The names imported by the content nodes of a list. -/
def importsIn : List Node → List String
  | [] => []
  | n :: ns =>
    (if n.isContent then
      if n.kind == "import_declaration" then (importName? source n).toList
      else if n.kind == "ERROR" then importsOf n
      else []
    else []) ++ importsIn ns

end

end

end JavaOutline

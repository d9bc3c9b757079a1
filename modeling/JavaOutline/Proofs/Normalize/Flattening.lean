import JavaOutline.Proofs.Normalize.Operands
import JavaOutline.Proofs.Syntax.Extent
import Mathlib.Data.List.Forall2

/-!
# Expressions by their operands

What an expression contributes depends on its operands alone: how they are grouped, put in
parentheses, cast or nested in constructs without a form in an outline makes no difference.
Operands may stand in different sources, as they do when an expression is grouped in another way: it
is enough that they look alike, which is to say that they and the nodes below them have the same
kinds and texts, wherever they stand.

## Key results

- `value_expressionOf_of_alike`: nodes that look alike contribute the same
- `pairwise_operands`: the operands of an expression are in source order
- `expressions_of_operands`: an expression contributes what its operands contribute by themselves
-/

namespace JavaOutline

open Syntax (Node)

/-! ## Nodes that look alike -/

mutual

/-- Two nodes of two sources look alike if they have the same kind and text and their children look
    alike one by one.  Where the nodes stand does not matter. -/
inductive Alike (source source' : Bytes) : Node → Node → Prop
  | intro {n n' : Node} (hkind : n.kind = n'.kind) (htext : n.text source = n'.text source')
    (hchildren : List.Forall₂ (AlikeBelow source source') n.children n'.children) :
    Alike source source' n n'

/-- Two children that look alike stand under the same field.  Both are named or neither is, and the
    same goes for extra nodes. -/
inductive AlikeBelow (source source' : Bytes) : Node → Node → Prop
  | intro {c c' : Node} (hfield : c.field = c'.field) (hnamed : c.isNamed = c'.isNamed)
    (hextra : c.isExtra = c'.isExtra) (halike : Alike source source' c c') :
    AlikeBelow source source' c c'

end

/-- Lists whose items are related one by one map to the same list if related items do. -/
theorem map_eq_of_forall₂ {α β γ : Type} {R : α → β → Prop} {f : α → γ} {g : β → γ} {as : List α}
    {bs : List β} (h : List.Forall₂ R as bs) (hfg : ∀ a b, R a b → f a = g b) :
    as.map f = bs.map g := by
  have hmap : List.Forall₂ (· = ·) (as.map f) (bs.map g) := List.rel_map hfg h
  rwa [List.forall₂_eq_eq_eq] at hmap

/-- The first items that pass are related if related items pass together. -/
theorem find?_rel_of_forall₂ {α β : Type} {R : α → β → Prop} {p : α → Bool} {q : β → Bool}
    {as : List α} {bs : List β} (h : List.Forall₂ R as bs) (hpq : ∀ a b, R a b → p a = q b) :
    Option.Rel R (as.find? p) (bs.find? q) := by
  induction h with
  | nil => exact .none
  | cons hab _ ih =>
    rw [List.find?_cons, List.find?_cons, hpq _ _ hab]
    split
    · exact .some hab
    · exact ih

namespace Alike

variable {source source' : Bytes} {n n' : Node}

theorem kind_eq (h : Alike source source' n n') : n.kind = n'.kind := by
  cases h with
  | intro hkind => exact hkind

theorem text_eq (h : Alike source source' n n') : n.text source = n'.text source' := by
  cases h with
  | intro _ htext => exact htext

theorem children (h : Alike source source' n n') :
    List.Forall₂ (AlikeBelow source source') n.children n'.children := by
  cases h with
  | intro _ _ hchildren => exact hchildren

end Alike

namespace AlikeBelow

variable {source source' : Bytes} {c c' : Node}

theorem alike (h : AlikeBelow source source' c c') : Alike source source' c c' := by
  cases h with
  | intro _ _ _ halike => exact halike

theorem field_eq (h : AlikeBelow source source' c c') : c.field = c'.field := by
  cases h with
  | intro hfield => exact hfield

theorem isExtra_eq (h : AlikeBelow source source' c c') : c.isExtra = c'.isExtra := by
  cases h with
  | intro _ _ hextra => exact hextra

theorem isContent_eq (h : AlikeBelow source source' c c') : c.isContent = c'.isContent := by
  cases h with
  | intro _ hnamed hextra => rw [Node.isContent, Node.isContent, hnamed, hextra]

end AlikeBelow

/-! ## What is read of nodes that look alike -/

namespace Alike

variable {source source' : Bytes} {n n' : Node}

/-- The first children that pass look alike if children that look alike pass together. -/
theorem find? (h : Alike source source' n n') {p : Node → Bool}
    (hp : ∀ c c', AlikeBelow source source' c c' → p c = p c') :
    Option.Rel (Alike source source') (n.children.find? p) (n'.children.find? p) := by
  have hrel := find?_rel_of_forall₂ h.children hp
  generalize n.children.find? p = x at hrel ⊢
  generalize n'.children.find? p = y at hrel ⊢
  cases hrel with
  | none => exact .none
  | some hc => exact .some hc.alike

/-- The children that pass look alike if children that look alike pass together. -/
theorem filter (h : Alike source source' n n') {p : Node → Bool}
    (hp : ∀ c c', AlikeBelow source source' c c' → p c = p c') :
    List.Forall₂ (Alike source source') (n.children.filter p) (n'.children.filter p) :=
  (List.rel_filter (fun c c' hc => iff_of_eq (congrArg (· = true) (hp c c' hc))) h.children).imp
    fun _ _ hc => hc.alike

/-- The first children under a field look alike. -/
theorem child? (h : Alike source source' n n') (field : String) :
    Option.Rel (Alike source source') (n.child? field) (n'.child? field) :=
  h.find? fun _ _ hc => by rw [hc.field_eq]

/-- All children under a field look alike. -/
theorem childrenAt (h : Alike source source' n n') (field : String) :
    List.Forall₂ (Alike source source') (n.childrenAt field) (n'.childrenAt field) :=
  h.filter fun _ _ hc => by rw [hc.field_eq]

/-- The first content nodes look alike. -/
theorem firstContent? (h : Alike source source' n n') :
    Option.Rel (Alike source source') n.firstContent? n'.firstContent? :=
  h.find? fun _ _ hc => hc.isContent_eq

/-- The modifier lists look alike. -/
theorem modifierList? (h : Alike source source' n n') :
    Option.Rel (Alike source source') (n.children.find? (·.kind == "modifiers"))
      (n'.children.find? (·.kind == "modifiers")) :=
  h.find? fun _ _ hc => by rw [hc.alike.kind_eq]

/-- The content looks alike. -/
theorem content (h : Alike source source' n n') :
    List.Forall₂ (Alike source source') n.content n'.content :=
  h.filter fun _ _ hc => hc.isContent_eq

/-- The text of a field is the same. -/
theorem fieldText?_eq (h : Alike source source' n n') (field : String) :
    n.fieldText? source field = n'.fieldText? source' field := by
  unfold Node.fieldText?
  match n.child? field, n'.child? field, h.child? field with
  | none, none, _ => rfl
  | some c, some c', .some hc => rw [Option.map_some, Option.map_some, hc.text_eq]

/-- A call has the same name. -/
theorem callName?_eq (h : Alike source source' n n') :
    callName? source n = callName? source' n' := by
  rw [callName?, callName?, h.fieldText?_eq "name", h.fieldText?_eq "object"]

/-- An argument of an annotation has the same text. -/
theorem annotationArgument_eq (h : Alike source source' n n') :
    annotationArgument source n = annotationArgument source' n' := by
  rw [annotationArgument, annotationArgument, h.kind_eq, h.text_eq, h.fieldText?_eq "key",
    h.fieldText?_eq "value"]

/-- A node of a modifier list stands for the same modifier. -/
theorem modifierOf_eq (h : Alike source source' n n') :
    modifierOf source n = modifierOf source' n' := by
  have hannotation : annotationOf source n = annotationOf source' n' := by
    unfold annotationOf
    rw [h.fieldText?_eq "name"]
    match n.child? "arguments", n'.child? "arguments", h.child? "arguments" with
    | none, none, _ => rfl
    | some list, some list', .some hlist =>
      simp only [map_eq_of_forall₂ hlist.content fun _ _ h => h.annotationArgument_eq]
  rw [modifierOf, modifierOf, h.kind_eq, h.text_eq, hannotation]

/-- A declaration has the same modifiers. -/
theorem modifiersOf_eq (h : Alike source source' n n') :
    modifiersOf source n = modifiersOf source' n' := by
  unfold modifiersOf
  have hlist := h.modifierList?
  generalize n.children.find? (·.kind == "modifiers") = list at hlist ⊢
  generalize n'.children.find? (·.kind == "modifiers") = list' at hlist ⊢
  cases hlist with
  | none => rfl
  | some hlist =>
    exact map_eq_of_forall₂ (hlist.filter fun _ _ hc => by rw [hc.isExtra_eq])
      fun _ _ h => h.modifierOf_eq

/-- A declaration has the same declarators. -/
theorem declaratorsOf_eq (h : Alike source source' n n') :
    declaratorsOf source n = declaratorsOf source' n' := by
  -- A declarator reads the texts of its fields, which are alike.
  have hdeclarator : ∀ type c c', Alike source source' c c' →
      declaratorOf? source type c = declaratorOf? source' type c' := by
    intro type c c' hc
    rw [declaratorOf?, declaratorOf?, hc.fieldText?_eq "name", hc.fieldText?_eq "dimensions",
      hc.fieldText?_eq "value"]
  unfold declaratorsOf
  rw [h.fieldText?_eq "type"]
  cases n'.fieldText? source' "type" with
  -- Without a type there is no declarator that counts.
  | none => rfl
  | some type =>
    have hmap := map_eq_of_forall₂ (h.childrenAt "declarator") (hdeclarator type)
    simpa [List.filterMap_map] using congrArg (List.filterMap id) hmap

end Alike

/-! ## Expressions of nodes that look alike -/

section

variable {source source' : Bytes} {n n' : Node}

/-- Lists whose items are related one by one join to the same list if related items do. -/
theorem flatMap_eq_of_forall₂ {α β γ : Type} {R : α → β → Prop} {f : α → List γ}
    {g : β → List γ} {as : List α} {bs : List β} (h : List.Forall₂ R as bs)
    (hfg : ∀ a b, R a b → f a = g b) : as.flatMap f = bs.flatMap g := by
  rw [List.flatMap_def, List.flatMap_def, map_eq_of_forall₂ h hfg]

/-- Nodes that look alike create the same object. -/
theorem Alike.value_creationOf (h : Alike source source' n n') :
    (creationOf source n).value = (creationOf source' n').value := by
  unfold creationOf
  rw [h.fieldText?_eq "type"]
  cases n'.fieldText? source' "type" with
  -- Without a type nothing is created.
  | none => rfl
  | some type =>
    match n.child? "arguments", n'.child? "arguments", h.child? "arguments" with
    | none, none, _ => rfl
    | some list, some list', .some hlist =>
      -- The arguments count by their texts.
      have harguments : list.content.map (fun a => Expression.ofName (a.text source)) =
          list'.content.map fun a => .ofName (a.text source') :=
        map_eq_of_forall₂ hlist.content fun _ _ ha => by rw [ha.text_eq]
      simp only [Noted.value_pure, harguments]

/-- Nodes that look alike declare the same local variables. -/
theorem Alike.value_localVariablesOf (h : Alike source source' n n') :
    (localVariablesOf source n).value = (localVariablesOf source' n').value := by
  unfold localVariablesOf
  rw [h.declaratorsOf_eq, h.modifiersOf_eq]
  cases declaratorsOf source' n' <;> rfl

/-- Nodes that look alike access the same field or array. -/
theorem Alike.value_pairExpression (h : Alike source source' n n')
    (make : String → String → Expression) (first second : String) :
    (pairExpression source make n first second).value =
      (pairExpression source' make n' first second).value := by
  unfold pairExpression
  rw [h.fieldText?_eq first, h.fieldText?_eq second]
  split <;> rfl

section

variable {inner inner' : Node → Noted (List Expression)}
  (hinner : ∀ m m', Alike source source' m m' → (inner m).value = (inner' m').value)

include hinner

/-- Fields of nodes that look alike contribute the same if their nodes do. -/
theorem Alike.value_readField (h : Alike source source' n n') (field : String) :
    (readField inner n field).value = (readField inner' n' field).value := by
  unfold readField
  match n.child? field, n'.child? field, h.child? field with
  | none, none, _ => rfl
  | some c, some c', .some hc => exact hinner c c' hc

/-- Lists of nodes that look alike contribute the same if their nodes do. -/
theorem value_readEach_of_alike {ns ns' : List Node}
    (h : List.Forall₂ (Alike source source') ns ns') :
    (readEach inner ns).value = (readEach inner' ns').value := by
  rw [Noted.value_readEach, Noted.value_readEach]
  exact flatMap_eq_of_forall₂ h hinner

/-- An expression step makes the same of nodes that look alike if what it reads contributes the
    same. -/
theorem value_expressionStep_of_alike (h : Alike source source' n n') :
    (expressionStep source inner n).value = (expressionStep source' inner' n').value := by
  unfold expressionStep
  rw [h.kind_eq]
  -- Alike nodes have one kind, so the same form is read on both sides.
  cases ExpressionForm.ofKind n'.kind with
  | literal | name => simp only [Noted.value_pure, h.text_eq]
  | fieldAccess => exact h.value_pairExpression _ _ _
  | arrayAccess => exact h.value_pairExpression _ _ _
  | wrapper =>
    match n.firstContent?, n'.firstContent?, h.firstContent? with
    | none, none, _ => rfl
    | some held, some held', .some hheld => exact hinner held held' hheld
  -- The parts are read by the inner normalizers, which agree on nodes that are alike.
  | binary | assignment =>
    simp only [Noted.value_bind, Noted.value_pure, h.value_readField hinner]
  | call =>
    simp only [h.callName?_eq]
    cases callName? source' n' with
    | none => rfl
    | some name =>
      match n.child? "arguments", n'.child? "arguments", h.child? "arguments" with
      | none, none, _ => rfl
      | some list, some list', .some hlist =>
        simp only [Noted.value_bind, Noted.value_pure, value_readEach_of_alike hinner hlist.content]
  | creation => exact h.value_creationOf
  | localVariable => exact h.value_localVariablesOf
  -- A type declares no expression.
  | typeDecl => rfl
  | unsupported => exact value_readEach_of_alike hinner h.content

end

/-- Nodes that look alike contribute the same expressions within the same budget. -/
theorem value_expressionOf_of_alike (budget : Nat) (h : Alike source source' n n') :
    (expressionOf source budget n).value = (expressionOf source' budget n').value := by
  induction budget generalizing n n' with
  | zero => rfl
  | succ budget ih => exact value_expressionStep_of_alike (fun _ _ hm => ih hm) h

end

/-! ## Operands -/

/-- What a transparent node reads is a child of it. -/
theorem mem_children_of_mem_expressionReads (source : Bytes) {n m : Node}
    (h : isTransparent n = true) (hm : m ∈ expressionReads source n) : m ∈ n.children := by
  unfold isTransparent at h
  unfold expressionReads at hm
  cases hform : ExpressionForm.ofKind n.kind with
  | wrapper =>
    simp only [hform] at hm
    exact Node.mem_children_of_firstContent? (Option.mem_toList.1 hm)
  | binary =>
    simp only [hform, List.mem_append] at hm
    rcases hm with hm | hm <;> exact Node.mem_children_of_child? (Option.mem_toList.1 hm)
  | unsupported =>
    simp only [hform] at hm
    exact Node.mem_children_of_mem_content hm
  -- The other forms are not transparent.
  | _ => simp [hform] at h

/-- Whether the left operand of a binary expression stands in front of the right one. -/
def Syntax.Node.LeftFirst (n : Node) : Prop :=
  n.kind = "binary_expression" →
    ∀ l ∈ n.child? "left", ∀ r ∈ n.child? "right", l.stop ≤ r.start

instance (n : Node) : Decidable n.LeftFirst :=
  inferInstanceAs (Decidable (n.kind = "binary_expression" →
    ∀ l ∈ n.child? "left", ∀ r ∈ n.child? "right", l.stop ≤ r.start))

/-- Only binary expressions have two operands by name. -/
theorem kind_eq_of_binary {kind : String} (h : ExpressionForm.ofKind kind = .binary) :
    kind = "binary_expression" := by
  unfold ExpressionForm.ofKind at h
  repeat' split at h
  all_goals first | rfl | cases h

/-- A transparent node reads its parts in source order. -/
theorem pairwise_expressionReads (source : Bytes) {n : Node} (h : isTransparent n = true)
    (hordered : n.Ordered) (hleft : n.LeftFirst) :
    (expressionReads source n).Pairwise fun a b => a.stop ≤ b.start := by
  unfold isTransparent at h
  unfold expressionReads
  cases hform : ExpressionForm.ofKind n.kind with
  | wrapper => cases n.firstContent? <;> simp
  -- The left operand stands in front of the right one.
  | binary =>
    have hnames := hleft (kind_eq_of_binary hform)
    cases hl : n.child? "left" <;> cases hr : n.child? "right" <;> simp_all
  -- What is read of the other transparent nodes are their children, in source order.
  | unsupported => exact hordered.siblings.filter _
  | _ => simp [hform] at h

/-- The operands of an expression are nodes of it. -/
theorem mem_preorder_of_mem_operands (source : Bytes) {n o : Node} (h : o ∈ operands source n) :
    o ∈ n.preorder := by
  fun_induction operands source n with
  | case1 n htransparent ih =>
    obtain ⟨⟨m, hm⟩, -, ho⟩ := List.mem_flatMap.1 h
    exact Node.preorder_subset_of_mem_children
      (mem_children_of_mem_expressionReads source htransparent hm) (ih m hm ho)
  | case2 n hopaque =>
    rw [List.mem_singleton.1 h]
    exact n.mem_preorder_self

/-- The operands of an expression stand one behind the other. -/
theorem pairwise_operands (source : Bytes) {n : Node} (hordered : n.IsOrdered)
    (hleft : ∀ m ∈ n.preorder, m.LeftFirst) :
    (operands source n).Pairwise fun a b => a.stop ≤ b.start := by
  fun_induction operands source n with
  | case1 n htransparent ih =>
    have hreads := pairwise_expressionReads source htransparent hordered.ordered
      (hleft n n.mem_preorder_self)
    have hchild : ∀ m ∈ expressionReads source n, m ∈ n.children := fun m hm =>
      mem_children_of_mem_expressionReads source htransparent hm
    have hattach : ((expressionReads source n).attach.flatMap fun m => operands source m.1) =
        (expressionReads source n).flatMap (operands source) := by simp
    rw [hattach, List.pairwise_flatMap]
    constructor
    · intro m hm
      exact ih m hm (hordered.child (hchild m hm)) fun k hk =>
        hleft k (Node.preorder_subset_of_mem_children (hchild m hm) hk)
    · -- Operands of different parts lie within parts that stand one behind the other.
      refine hreads.imp_of_mem fun {a b} ha hb hab x hx y hy => ?_
      exact (hordered.child (hchild a ha)).stop_le_start (hordered.child (hchild b hb)) hab
        (mem_preorder_of_mem_operands source hx) (mem_preorder_of_mem_operands source hy)
  | case2 n hopaque => exact List.pairwise_singleton _ _

/-! ## Expressions of operands -/

/-- Budgets at which nothing is dropped are as good as one another. -/
theorem expressionOf_eq_of_isComplete (source : Bytes) {budget budget' : Nat} {n : Node}
    (h : (expressionOf source budget n).IsComplete)
    (h' : (expressionOf source budget' n).IsComplete) :
    expressionOf source budget n = expressionOf source budget' n := by
  rw [← expressionOf_eq_of_le source h (Nat.le_max_left budget budget'),
    expressionOf_eq_of_le source h' (Nat.le_max_right budget budget')]

/-- Where nothing is dropped, expressions whose operands look alike contribute the same. -/
theorem value_expressionOf_of_operands_alike {source source' : Bytes} {budget budget' : Nat}
    {n n' : Node} (h : (expressionOf source budget n).IsComplete)
    (h' : (expressionOf source' budget' n').IsComplete)
    (halike : List.Forall₂ (Alike source source') (operands source n) (operands source' n')) :
    (expressionOf source budget n).value = (expressionOf source' budget' n').value := by
  -- At the larger of the two budgets nothing is dropped at either node.
  have hn := expressionOf_eq_of_le source h (Nat.le_max_left budget budget')
  have hn' := expressionOf_eq_of_le source' h' (Nat.le_max_right budget budget')
  rw [← hn] at h ⊢
  rw [← hn'] at h' ⊢
  rw [(value_expressionOf_eq_flatMap_operands source h).2,
    (value_expressionOf_eq_flatMap_operands source' h').2]
  exact flatMap_eq_of_forall₂ halike fun _ _ hm => value_expressionOf_of_alike _ hm

/-- Where nothing is dropped, an expression contributes exactly what its operands contribute by
    themselves, from left to right, whatever budget each of them is given.  So expressions whose
    operands look alike, in the same source or in another one, contribute the same, and in an
    ordered tree the operands stand one behind the other. -/
theorem expressions_of_operands (source : Bytes) (budget : Nat) (n : Node)
    (hcomplete : (expressionOf source budget n).IsComplete) :
    (∀ m ∈ operands source n, (expressionOf source budget m).IsComplete) ∧
      (∀ budgetOf : Node → Nat,
        (∀ m ∈ operands source n, (expressionOf source (budgetOf m) m).IsComplete) →
        (expressionOf source budget n).value =
          (operands source n).flatMap fun m => (expressionOf source (budgetOf m) m).value) ∧
      (∀ source' budget' n', (expressionOf source' budget' n').IsComplete →
        List.Forall₂ (Alike source source') (operands source n) (operands source' n') →
        (expressionOf source budget n).value = (expressionOf source' budget' n').value) ∧
      (n.IsOrdered → (∀ m ∈ n.preorder, m.LeftFirst) →
        (operands source n).Pairwise fun a b => a.stop ≤ b.start) := by
  obtain ⟨hoperands, hvalue⟩ := value_expressionOf_eq_flatMap_operands source hcomplete
  refine ⟨hoperands, fun budgetOf hbudgets => ?_, fun source' budget' n' hcomplete' halike => ?_,
    fun hordered hleft => pairwise_operands source hordered hleft⟩
  -- An operand that is complete gives the same with any budget.
  · rw [hvalue]
    exact List.flatMap_congr fun m hm => congrArg Noted.value
      (expressionOf_eq_of_isComplete source (hoperands m hm) (hbudgets m hm))
  · exact value_expressionOf_of_operands_alike hcomplete hcomplete' halike

/-- A variable at an offset. -/
def variableAt (field : String) (start : Nat) : Node :=
  { kind := "identifier", field, start, stop := start + 1, isNamed := true }

/-- A call with one variable as argument, at an offset. -/
def callAt (field : String) (start : Nat) : Node :=
  { kind := "method_invocation", field, start, stop := start + 4, isNamed := true
    children := [variableAt "name" start,
      { kind := "argument_list", field := "arguments", start := start + 1, stop := start + 4
        isNamed := true, children := [variableAt "" (start + 2)] }] }

/-- Three operands, grouped from the left. -/
def groupedLeftSource : String := "a+b-f(c)"

@[inherit_doc groupedLeftSource]
def groupedLeftTree : Node :=
  { kind := "binary_expression", stop := 8, isNamed := true
    children := [
      { kind := "binary_expression", field := "left", stop := 3, isNamed := true
        children := [variableAt "left" 0,
          { kind := "+", field := "operator", start := 1, stop := 2 }, variableAt "right" 2] },
      { kind := "-", field := "operator", start := 3, stop := 4 },
      callAt "right" 4] }

/-- The operands of `groupedLeftSource`, in parentheses and negated from the right. -/
def groupedRightSource : String := "(a)+~(b-f(c))"

@[inherit_doc groupedRightSource]
def groupedRightTree : Node :=
  { kind := "binary_expression", stop := 13, isNamed := true
    children := [
      { kind := "parenthesized_expression", field := "left", stop := 3, isNamed := true
        children := [variableAt "" 1] },
      { kind := "+", field := "operator", start := 3, stop := 4 },
      { kind := "unary_expression", field := "right", start := 4, stop := 13, isNamed := true
        children := [
          { kind := "parenthesized_expression", field := "operand", start := 5, stop := 13
            isNamed := true
            children := [{ kind := "binary_expression", start := 6, stop := 12, isNamed := true
                           children := [variableAt "left" 6, callAt "right" 8] }] }] }] }

/-- Variables of the same name look alike. -/
theorem alike_variableAt {source source' : Bytes} {field field' : String} {start start' : Nat}
    (h : (variableAt field start).text source = (variableAt field' start').text source') :
    Alike source source' (variableAt field start) (variableAt field' start') :=
  .intro rfl h .nil

/-- Both groupings make the same three expressions. -/
theorem expressions_of_operands_grouped :
    (expressionOf (utf8 groupedLeftSource) 4 groupedLeftTree).IsComplete ∧
      (expressionOf (utf8 groupedRightSource) 6 groupedRightTree).IsComplete ∧
      (expressionOf (utf8 groupedLeftSource) 4 groupedLeftTree).value =
        [.ofName "a", .ofName "b", .ofCall "f" [.ofName "c"]] ∧
      (expressionOf (utf8 groupedLeftSource) 4 groupedLeftTree).value =
        (expressionOf (utf8 groupedRightSource) 6 groupedRightTree).value ∧
      (operands (utf8 groupedLeftSource) groupedLeftTree).Pairwise fun a b => a.stop ≤ b.start := by
  -- The same three operands under two groupings, at different places of the sources.
  have hleft : operands (utf8 groupedLeftSource) groupedLeftTree =
      [variableAt "left" 0, variableAt "right" 2, callAt "right" 4] := by
    simp [operands_of_isTransparent, operands_of_not_isTransparent, isTransparent, expressionReads,
      groupedLeftTree, ExpressionForm.ofKind, literalKinds, typeDeclKinds, variableAt, callAt,
      Node.child?]
  have hright : operands (utf8 groupedRightSource) groupedRightTree =
      [variableAt "" 1, variableAt "left" 6, callAt "right" 8] := by
    simp [operands_of_isTransparent, operands_of_not_isTransparent, isTransparent, expressionReads,
      groupedRightTree, ExpressionForm.ofKind, literalKinds, typeDeclKinds, variableAt, callAt,
      Node.child?, Node.firstContent?, Node.content, Node.isContent]
  -- The calls are alike in their names and their arguments.
  have hcall : Alike (utf8 groupedLeftSource) (utf8 groupedRightSource) (callAt "right" 4)
      (callAt "right" 8) := by
    refine .intro rfl (by decide) (.cons ?_ (.cons ?_ .nil))
    · exact .intro rfl rfl rfl (alike_variableAt (by decide))
    · refine .intro rfl rfl rfl (.intro rfl (by decide) (.cons ?_ .nil))
      exact .intro rfl rfl rfl (alike_variableAt (by decide))
  have hcomplete : (expressionOf (utf8 groupedLeftSource) 4 groupedLeftTree).IsComplete := by
    decide
  have hcomplete' : (expressionOf (utf8 groupedRightSource) 6 groupedRightTree).IsComplete := by
    decide
  obtain ⟨-, -, hregroup, hordered⟩ :=
    expressions_of_operands (utf8 groupedLeftSource) 4 groupedLeftTree hcomplete
  refine ⟨hcomplete, hcomplete', rfl, hregroup _ _ _ hcomplete' ?_,
    hordered (by decide) (by decide)⟩
  rw [hleft, hright]
  exact .cons (alike_variableAt (by decide)) (.cons (alike_variableAt (by decide))
    (.cons hcall .nil))

end JavaOutline

import JavaOutline.Proofs.Normalize.MethodCalls

/-!
# Extracted outlines fill only the fields of their kinds

Expressions and statements are flat records, and any kind could fill any field.  `FitsKind` says
which fields each kind fills, `WellFormed` that this holds at every depth.  All that is extracted is
well formed: every step builds its nodes from well-formed parts.

## Key results

- `isUnmarked_expressionOf`: the expressions at a node are well formed and not marked as values
- `wellFormed_statementOf`: the statements at a node are well formed
- `wellFormed_extractSource`: so is everything in an extracted outline
-/

namespace JavaOutline

open Syntax (Node)

/-! ## Expressions -/

namespace Expression

/-- A name or text with nothing below it. -/
structure IsChildless (e : Expression) : Prop where
  kind : e.kind = .other
  methodArguments : e.methodArguments = []
  variableDeclarations : e.variableDeclarations = []
  expressions : e.expressions = []

/-- Operands in the order of an assignment: first the marked ones of the value side, then those of
    the target, which are not marked. -/
def AreMarkedFirst (operands : List Expression) : Prop :=
  ∃ values targets, operands = values ++ targets ∧
    (∀ v ∈ values, v.isPostfix = true) ∧ ∀ t ∈ targets, t.isPostfix = false

/-- An expression that fills only the fields of its kind. -/
structure FitsKind (e : Expression) : Prop where
  kind : e.kind ≠ .returnValue
  method : e.kind ≠ .methodCall → e.method = ""
  methodArguments : e.kind ≠ .methodCall → e.kind ≠ .creation → e.methodArguments = []
  expressions : e.kind ≠ .assignment → e.expressions = []
  variableDeclarations : e.kind ≠ .variableDeclaration → e.variableDeclarations = []
  declared : e.kind = .variableDeclaration →
    ∃ v, e.variableDeclarations = [v] ∧ v.name = e.varName
  declaredTypes : ∀ v ∈ e.variableDeclarations, v.type.kind = .other
  newType : e.kind ≠ .creation → e.newType = {}
  newTypeKind : e.newType.kind = .other
  created : e.kind = .creation → (e.literal, e.varName) =
    if isBoxedType e.newType.name then ("", e.newType.name) else (e.newType.name, "")
  createdWith : e.kind = .creation → ∀ a ∈ e.methodArguments, a.IsChildless
  unmarkedArguments : ∀ a ∈ e.methodArguments, a.isPostfix = false
  markedFirst : AreMarkedFirst e.expressions

/-- An expression that fits its kind, and so does every expression below it. -/
inductive WellFormed : Expression → Prop
  | intro {e : Expression} (fits : e.FitsKind)
    (methodArguments : ∀ a ∈ e.methodArguments, a.WellFormed)
    (expressions : ∀ a ∈ e.expressions, a.WellFormed) : e.WellFormed

/-- A well-formed expression outside the value side of an assignment. -/
structure IsUnmarked (e : Expression) : Prop where
  wellFormed : e.WellFormed
  isPostfix : e.isPostfix = false

/-- No operands are in order. -/
@[simp] theorem areMarkedFirst_nil : AreMarkedFirst [] :=
  ⟨[], [], rfl, by simp, by simp⟩

/-- An expression that consists of texts alone is well formed. -/
theorem isUnmarked_of_texts {kind : ExpressionKind} (literal varName : String)
    (h : kind ∈ [.literal, .fieldAccess, .other]) :
    IsUnmarked { kind := kind, literal := literal, varName := varName } := by
  refine ⟨.intro ?_ (by simp) (by simp), rfl⟩
  simp only [List.mem_cons, List.not_mem_nil, or_false] at h
  rcases h with rfl | rfl | rfl <;> constructor <;> simp

/-- The declaration of a variable is well formed. -/
theorem isUnmarked_ofDeclaration {initializer : String} {declared : Variable}
    (h : declared.type.kind = .other) : (ofDeclaration initializer declared).IsUnmarked := by
  refine ⟨.intro ?_ (by simp [ofDeclaration]) (by simp [ofDeclaration]), rfl⟩
  constructor
  case declared => exact fun _ => ⟨declared, rfl, rfl⟩
  case declaredTypes => simpa [ofDeclaration] using h
  all_goals simp [ofDeclaration]

/-- A call with well-formed arguments is well formed. -/
theorem isUnmarked_ofCall {method : String} {arguments : List Expression}
    (h : ∀ a ∈ arguments, a.IsUnmarked) : (ofCall method arguments).IsUnmarked := by
  refine ⟨.intro ?_ (fun a ha => (h a ha).wellFormed) (by simp [ofCall]), rfl⟩
  constructor
  case unmarkedArguments => exact fun a ha => (h a ha).isPostfix
  all_goals simp [ofCall]

/-- The creation of an object with texts as arguments is well formed. -/
theorem isUnmarked_ofCreation (type : String) (texts : List String) :
    (ofCreation type (texts.map ofName)).IsUnmarked := by
  -- The arguments are names without parts, so none of them is marked.
  have hargument : ∀ a ∈ texts.map ofName, a.IsUnmarked ∧ a.IsChildless := by
    intro a ha
    obtain ⟨text, -, rfl⟩ := List.mem_map.1 ha
    exact ⟨isUnmarked_of_texts "" text (by simp), rfl, rfl, rfl, rfl⟩
  -- Boxed or not, a creation has no mark and these arguments.
  have hsuffix : (ofCreation type (texts.map ofName)).isPostfix = false := by
    unfold ofCreation
    split <;> rfl
  have harguments : (ofCreation type (texts.map ofName)).methodArguments = texts.map ofName := by
    unfold ofCreation
    split <;> rfl
  refine ⟨.intro ?_ ?_ ?_, hsuffix⟩
  · constructor
    case createdWith => exact fun _ a ha => (hargument a (harguments ▸ ha)).2
    case unmarkedArguments => exact fun a ha => (hargument a (harguments ▸ ha)).1.isPostfix
    all_goals
      unfold ofCreation
      split <;> simp [*]
  · exact fun a ha => (hargument a (harguments ▸ ha)).1.wellFormed
  · unfold ofCreation
    split <;> simp

/-- Marking an expression does not change what it fills in. -/
theorem WellFormed.asPostfix {e : Expression} (h : e.WellFormed) : e.asPostfix.WellFormed := by
  obtain ⟨fits, harguments, hexpressions⟩ := h
  exact .intro { fits with } harguments hexpressions

/-- An assignment of well-formed operands is well formed. -/
theorem isUnmarked_ofAssignment {values targets : List Expression}
    (hvalues : ∀ v ∈ values, v.IsUnmarked) (htargets : ∀ t ∈ targets, t.IsUnmarked) :
    (ofAssignment (values.map asPostfix ++ targets)).IsUnmarked := by
  -- Only here are expressions marked, and the assignment itself is not.
  have hoperand : ∀ a ∈ values.map asPostfix ++ targets, a.WellFormed := by
    intro a ha
    rcases List.mem_append.1 ha with ha | ha
    · obtain ⟨v, hv, rfl⟩ := List.mem_map.1 ha
      exact (hvalues v hv).wellFormed.asPostfix
    · exact (htargets a ha).wellFormed
  refine ⟨.intro ?_ (by simp [ofAssignment]) hoperand, rfl⟩
  constructor
  case markedFirst =>
    refine ⟨values.map asPostfix, targets, rfl, ?_, fun t ht => (htargets t ht).isPostfix⟩
    intro v hv
    obtain ⟨w, -, rfl⟩ := List.mem_map.1 hv
    rfl
  all_goals simp [ofAssignment]

end Expression

section

variable (source : Bytes)

/-- The declarators of a node declare variables of unresolved types. -/
theorem isUnmarked_localVariablesOf (n : Node) :
    ∀ e ∈ (localVariablesOf source n).value, e.IsUnmarked := by
  intro e he
  unfold localVariablesOf at he
  split at he
  · exact nomatch he
  · obtain ⟨d, -, rfl⟩ := List.mem_map.1 he
    exact Expression.isUnmarked_ofDeclaration rfl

/-- The creation of an object at a node is well formed. -/
theorem isUnmarked_creationOf (n : Node) :
    ∀ e ∈ (creationOf source n).value, e.IsUnmarked := by
  intro e he
  unfold creationOf at he
  split at he
  · rename_i type _
    rw [Noted.value_pure, List.mem_singleton] at he
    subst he
    split
    · rename_i list _
      -- The arguments are named by their texts.
      have hmap : (list.content.map fun a => Expression.ofName (a.text source)) =
          (list.content.map (Node.text source)).map Expression.ofName := by simp
      rw [hmap]
      exact Expression.isUnmarked_ofCreation type _
    · exact Expression.isUnmarked_ofCreation type []
  -- Without a type nothing is created.
  · exact nomatch he

/-- An expression of two texts is well formed. -/
theorem isUnmarked_pairExpression {make : String → String → Expression}
    (hmake : ∀ a b, (make a b).IsUnmarked) (n : Node) (first second : String) :
    ∀ e ∈ (pairExpression source make n first second).value, e.IsUnmarked := by
  intro e he
  unfold pairExpression at he
  split at he
  · rw [Noted.value_pure, List.mem_singleton] at he
    exact he ▸ hmake _ _
  · exact nomatch he

/-- What is read at a field is well formed if every reading is. -/
theorem forall_mem_readField {α : Type} {P : α → Prop} {read : Node → Noted (List α)} {n : Node}
    {field : String} (h : ∀ c, n.child? field = some c → ∀ a ∈ (read c).value, P a) :
    ∀ a ∈ (readField read n field).value, P a := by
  intro a ha
  rw [value_readField] at ha
  obtain ⟨c, hc, ha⟩ := List.mem_flatMap.1 ha
  exact h c (Option.mem_toList.1 hc) a ha

/-- An expression step makes well-formed expressions of well-formed ones. -/
theorem isUnmarked_expressionStep {inner : Node → Noted (List Expression)}
    (h : ∀ m, ∀ e ∈ (inner m).value, e.IsUnmarked) (n : Node) :
    ∀ e ∈ (expressionStep source inner n).value, e.IsUnmarked := by
  -- Only an assignment sets the mark, and it does so on itself; what it reads comes unmarked.
  have hfield (field : String) : ∀ e ∈ (readField inner n field).value, e.IsUnmarked :=
    forall_mem_readField fun c _ => h c
  intro e he
  unfold expressionStep at he
  cases hform : ExpressionForm.ofKind n.kind with
  -- Expressions made of texts alone have no parts that could be marked.
  | literal =>
    simp only [hform, Noted.value_pure, List.mem_singleton] at he
    exact he ▸ Expression.isUnmarked_of_texts _ "" (by simp)
  | name =>
    simp only [hform, Noted.value_pure, List.mem_singleton] at he
    exact he ▸ Expression.isUnmarked_of_texts "" _ (by simp)
  | fieldAccess =>
    simp only [hform] at he
    exact isUnmarked_pairExpression source
      (fun a b => Expression.isUnmarked_of_texts b a (by simp)) n _ _ e he
  | arrayAccess =>
    simp only [hform] at he
    exact isUnmarked_pairExpression source
      (fun a b => Expression.isUnmarked_of_texts b a (by simp)) n _ _ e he
  -- These two hand on what was read below.
  | wrapper =>
    simp only [hform] at he
    split at he
    · exact h _ e he
    · exact nomatch he
  | binary =>
    simp only [hform, Noted.value_bind, Noted.value_pure, List.mem_append] at he
    exact he.elim (hfield "left" e) (hfield "right" e)
  -- The value and the target are unmarked, so the mark is on the assignment only.
  | assignment =>
    simp only [hform, Noted.value_bind, Noted.value_pure, List.mem_singleton] at he
    exact he ▸ Expression.isUnmarked_ofAssignment (hfield "right") (hfield "left")
  -- A call without a name is dropped, and one without a list has no arguments.
  | call =>
    simp only [hform] at he
    cases hname : callName? source n with
    | none =>
      rw [hname] at he
      exact nomatch he
    | some name =>
      cases hlist : n.child? "arguments" with
      | none =>
        simp only [hname, hlist, Noted.value_bind, Noted.value_pure, List.mem_singleton] at he
        exact he ▸ Expression.isUnmarked_ofCall (by simp)
      | some list =>
        simp only [hname, hlist, Noted.value_bind, Noted.value_pure, List.mem_singleton] at he
        refine he ▸ Expression.isUnmarked_ofCall fun a ha => ?_
        rw [Noted.value_readEach] at ha
        -- Each argument was read below.
        obtain ⟨c, -, ha⟩ := List.mem_flatMap.1 ha
        exact h c a ha
  | creation =>
    simp only [hform] at he
    exact isUnmarked_creationOf source n e he
  | localVariable =>
    simp only [hform] at he
    exact isUnmarked_localVariablesOf source n e he
  -- A type declares no expression.
  | typeDecl =>
    simp only [hform] at he
    exact nomatch he
  -- What is left of an unsupported node are its parts.
  | unsupported =>
    simp only [hform, Noted.value_bind, Noted.value_readEach] at he
    obtain ⟨c, -, he⟩ := List.mem_flatMap.1 he
    exact h c e he

/-- The expressions at a node are well formed and not marked. -/
theorem isUnmarked_expressionOf (budget : Nat) (n : Node) :
    ∀ e ∈ (expressionOf source budget n).value, e.IsUnmarked := by
  induction budget generalizing n with
  | zero => exact fun _ he => nomatch he
  | succ budget ih => exact isUnmarked_expressionStep source ih n

end

/-! ## Statements -/

/-- A statement that fills only the fields of its kind. -/
structure Statement.FitsKind (s : Statement) : Prop where
  condition : s.condition.isSome → s.kind ∈ [.ifThen, .doWhile, .whileLoop]
  initializations : s.kind ≠ .forLoop → s.initializations = []
  updates : s.kind ≠ .forLoop → s.updates = []
  expressions : s.kind ∈ [.ifThen, .doWhile, .whileLoop, .tryBlock] → s.expressions = []
  statements : s.kind = .returnValue → s.statements = []

/-- The expressions that stand directly in a statement. -/
def Statement.ownExpressions (s : Statement) : List Expression :=
  s.condition.toList ++ s.expressions ++ s.initializations ++ s.updates

section

variable (source : Bytes) (root : Node)

/-- An `if` that comes from an `if` of the syntax tree.  If that one has a then branch, the last
    statement of the former is a block. -/
def Statement.IsFromIf (s : Statement) : Prop :=
  ∃ n ∈ root.preorder, n.kind = "if_statement" ∧
    (∃ budget, (statementOf source budget n).value = [s]) ∧
    ((n.child? "consequence").isSome →
      ∃ before block, s.statements = before ++ [block] ∧ block.kind = .block)

/-- A statement that fits its kind, and so does everything below it. -/
inductive Statement.WellFormed : Statement → Prop
  | intro {s : Statement} (fits : s.FitsKind)
    (isFromIf : s.kind = .ifThen → s.IsFromIf source root)
    (ownExpressions : ∀ e ∈ s.ownExpressions, e.IsUnmarked)
    (statements : ∀ t ∈ s.statements, t.WellFormed) : s.WellFormed

/-- The parts of a body that are all well formed. -/
structure Parts.WellFormed (parts : Parts) : Prop where
  expressions : ∀ e ∈ parts.expressions, e.IsUnmarked
  statements : ∀ s ∈ parts.statements, s.WellFormed source root

/-- A block of well-formed parts is well formed. -/
theorem Parts.WellFormed.ofBlock {parts : Parts} (h : parts.WellFormed source root) :
    (Statement.ofBlock parts.expressions parts.statements).WellFormed source root := by
  refine .intro ?_ (fun hif => nomatch hif) ?_ h.statements
  · constructor <;> simp [Statement.ofBlock]
  · simpa [Statement.ownExpressions, Statement.ofBlock] using h.expressions

section

variable {expression : Node → Noted (List Expression)}
  {statement : Node → Noted (List Statement)}
  (hexpression : ∀ n, ∀ e ∈ (expression n).value, e.IsUnmarked)
  (hstatement : ∀ n ∈ root.preorder, ∀ s ∈ (statement n).value, s.WellFormed source root)

include hexpression hstatement

/-- The parts at a node of a body are well formed. -/
theorem wellFormed_partOf (form : PartForm) {n : Node} (hn : n ∈ root.preorder) :
    (partOf expression statement form n).value.WellFormed source root := by
  unfold partOf
  cases form with
  | expressionStatement =>
    cases n.firstContent? with
    | none => exact ⟨by simp, by simp⟩
    | some c => exact ⟨hexpression c, by simp⟩
  | localVariable | expression => exact ⟨hexpression n, by simp⟩
  | statement => exact ⟨by simp, hstatement n hn⟩

/-- The parts at the nodes of a list are well formed. -/
theorem wellFormed_partsOf (form : String → PartForm) (ns : List Node)
    (hns : ns ⊆ root.preorder) :
    (partsOf expression statement form ns).value.WellFormed source root := by
  induction ns with
  | nil => exact ⟨by simp [partsOf], by simp [partsOf]⟩
  | cons n ns ih =>
    -- The first part stands in the tree, and so do the others.
    have hhere := wellFormed_partOf source root hexpression hstatement (form n.kind)
      (hns List.mem_cons_self)
    have hrest := ih fun m hm => hns (List.mem_cons_of_mem n hm)
    constructor
    case expressions =>
      intro e he
      exact (List.mem_append.1 he).elim (hhere.expressions e) (hrest.expressions e)
    case statements =>
      intro s hs
      exact (List.mem_append.1 hs).elim (hhere.statements s) (hrest.statements s)

/-- The parts of a block are well formed. -/
theorem wellFormed_blockParts {n : Node} (hn : n ∈ root.preorder) :
    (blockParts expression statement n).value.WellFormed source root := by
  apply wellFormed_partsOf source root hexpression hstatement
  have hbelow := Node.preorder_subset_of_mem_preorder hn
  split
  · exact fun c hc => hbelow (Node.mem_preorder_of_mem_children
      (Node.mem_children_of_mem_content hc))
  · exact fun c hc => List.mem_singleton.1 hc ▸ hn

/-- A block as a statement is well formed. -/
theorem wellFormed_blockOf {n : Node} (hn : n ∈ root.preorder) :
    (blockOf expression statement n).value.WellFormed source root :=
  (wellFormed_blockParts source root hexpression hstatement hn).ofBlock source root

omit hstatement in
/-- The condition of a statement is well formed. -/
theorem isUnmarked_conditionOf (n : Node) :
    ∀ e ∈ (conditionOf source expression n).value.toList, e.IsUnmarked := by
  intro e he
  rw [value_conditionOf] at he
  obtain ⟨c, -, he⟩ := List.mem_flatMap.1 he
  exact hexpression c e ((List.toList_head?_sublist _).subset he)

end

/-- A statement with a condition is well formed if its parts are. -/
theorem wellFormed_ofCondition {kind : StatementKind} {condition : Option Expression}
    {body : List Statement} (hkind : kind ∈ [.ifThen, .doWhile, .whileLoop])
    (hif : kind = .ifThen → (Statement.ofCondition kind condition body).IsFromIf source root)
    (hcondition : ∀ e ∈ condition.toList, e.IsUnmarked)
    (hbody : ∀ t ∈ body, t.WellFormed source root) :
    (Statement.ofCondition kind condition body).WellFormed source root := by
  refine .intro ?_ hif (by simpa [Statement.ownExpressions, Statement.ofCondition] using hcondition)
    hbody
  -- Only a return may carry several expressions.
  constructor
  case condition => exact fun _ => hkind
  case statements =>
    intro hreturn
    simp only [Statement.ofCondition] at hreturn
    simp [hreturn] at hkind
  all_goals simp [Statement.ofCondition]

/-- A `return` of well-formed operands is well formed. -/
theorem wellFormed_ofReturn {values : List Expression} (h : ∀ e ∈ values, e.IsUnmarked) :
    (Statement.ofReturn values).WellFormed source root := by
  refine .intro ?_ (fun hif => nomatch hif) ?_ (by simp [Statement.ofReturn])
  · constructor <;> simp [Statement.ofReturn]
  · simpa [Statement.ownExpressions, Statement.ofReturn] using h

/-- A `try` with a well-formed body is well formed. -/
theorem wellFormed_ofTry {body : List Statement} (h : ∀ t ∈ body, t.WellFormed source root) :
    (Statement.ofTry body).WellFormed source root := by
  refine .intro ?_ (fun hif => nomatch hif) ?_ h
  · constructor <;> simp [Statement.ofTry]
  · simp [Statement.ownExpressions, Statement.ofTry]

/-- A `for` of well-formed parts is well formed. -/
theorem wellFormed_ofFor {comparisons initializations updates : List Expression}
    {body : List Statement} (hcomparisons : ∀ e ∈ comparisons, e.IsUnmarked)
    (hinitializations : ∀ e ∈ initializations, e.IsUnmarked)
    (hupdates : ∀ e ∈ updates, e.IsUnmarked) (hbody : ∀ t ∈ body, t.WellFormed source root) :
    (Statement.ofFor comparisons initializations updates body).WellFormed source root := by
  refine .intro ?_ (fun hif => nomatch hif) ?_ hbody
  · constructor <;> simp [Statement.ofFor]
  -- Its expressions are those of its three lists.
  · intro e he
    simp only [Statement.ownExpressions, Statement.ofFor, Option.toList_none, List.nil_append,
      List.mem_append] at he
    rcases he with (he | he) | he
    · exact hcomparisons e he
    · exact hinitializations e he
    · exact hupdates e he

/-- The statements at an `if` of a tree are one well-formed `if`. -/
theorem wellFormed_ifStatement {budget : Nat} {n : Node} (hn : n ∈ root.preorder)
    (hkind : n.kind = "if_statement")
    (hstatement : ∀ m ∈ root.preorder, ∀ s ∈ (statementOf source budget m).value,
      s.WellFormed source root) :
    ∀ s ∈ (statementOf source (budget + 1) n).value, s.WellFormed source root := by
  have hexpression := isUnmarked_expressionOf source budget
  have hchild : ∀ {field c}, n.child? field = some c → c ∈ root.preorder := fun hc =>
    Node.preorder_subset_of_mem_preorder hn (Node.mem_preorder_of_mem_children
      (Node.mem_children_of_child? hc))
  -- The then branch comes last and is one block.
  have hvalue : ∃ condition body, (statementOf source (budget + 1) n).value =
      [.ofCondition .ifThen condition body] ∧ (∀ e ∈ condition.toList, e.IsUnmarked) ∧
        (∀ t ∈ body, t.WellFormed source root) ∧ ((n.child? "consequence").isSome →
          ∃ before block, body = before ++ [block] ∧ block.kind = .block) := by
    have hform : StatementForm.ofKind n.kind = .ifThen := by rw [hkind]; rfl
    simp only [statementOf, statementStep, hform, Noted.value_bind, Noted.value_pure]
    refine ⟨_, _, rfl, isUnmarked_conditionOf source hexpression n, ?_, ?_⟩
    · intro t ht
      rcases List.mem_append.1 ht with ht | ht
      · exact forall_mem_readField (fun c hc => hstatement c (hchild hc)) t ht
      · refine forall_mem_readField (fun c hc u hu => ?_) t ht
        rw [Noted.value_bind, Noted.value_pure, List.mem_singleton] at hu
        exact hu ▸ wellFormed_blockOf source root hexpression hstatement (hchild hc)
    · intro hsome
      obtain ⟨c, hc⟩ := Option.isSome_iff_exists.1 hsome
      rw [value_readField _ n "consequence", hc]
      exact ⟨_, _, rfl, rfl⟩
  obtain ⟨condition, body, hvalue, hcondition, hbody, hlast⟩ := hvalue
  intro s hs
  rw [hvalue, List.mem_singleton] at hs
  subst hs
  refine wellFormed_ofCondition source root (by simp) (fun _ => ?_) hcondition hbody
  exact ⟨n, hn, hkind, ⟨budget + 1, hvalue⟩, hlast⟩

/-- The statements at a node of a tree are well formed. -/
theorem wellFormed_statementOf (budget : Nat) {n : Node} (hn : n ∈ root.preorder) :
    ∀ s ∈ (statementOf source budget n).value, s.WellFormed source root := by
  -- Statements of one budget are made of expressions and statements of the budget below.
  induction budget generalizing n with
  | zero => exact fun s hs => absurd hs List.not_mem_nil
  | succ budget ih =>
    have hexpression := isUnmarked_expressionOf source budget
    have hstatement : ∀ m ∈ root.preorder, ∀ s ∈ (statementOf source budget m).value,
        s.WellFormed source root := fun m hm => ih hm
    have hbelow := Node.preorder_subset_of_mem_preorder hn
    have hbody : ∀ {field}, ∀ s ∈ (readField (statementOf source budget) n field).value,
        s.WellFormed source root := fun {field} =>
      forall_mem_readField fun c hc => ih (hbelow (Node.mem_preorder_of_mem_children
        (Node.mem_children_of_child? hc)))
    have hcondition := isUnmarked_conditionOf source hexpression n
    intro s hs
    cases hform : StatementForm.ofKind n.kind with
    | ifThen =>
      have hkind : n.kind = "if_statement" := by
        simpa [hform, StatementForm.kinds] using
          @StatementForm.mem_kinds n.kind (by rw [hform]; decide)
      exact wellFormed_ifStatement source root hn hkind hstatement s hs
    | returnValue =>
      simp only [statementOf, statementStep, hform] at hs
      cases hfirst : n.firstContent? with
      | none =>
        simp only [hfirst, Noted.value_bind, Noted.value_pure, List.mem_singleton] at hs
        exact hs ▸ wellFormed_ofReturn source root (by simp)
      | some c =>
        simp only [hfirst, Noted.value_bind, Noted.value_pure, List.mem_singleton] at hs
        exact hs ▸ wellFormed_ofReturn source root (hexpression c)
    | doWhile | whileLoop =>
      simp only [statementOf, statementStep, hform, Noted.value_bind, Noted.value_pure,
        List.mem_singleton] at hs
      exact hs ▸ wellFormed_ofCondition source root (by simp) (by simp) hcondition hbody
    | forLoop =>
      simp only [statementOf, statementStep, hform, Noted.value_bind, Noted.value_pure,
        List.mem_singleton] at hs
      have hflat (ns : List Node) : ∀ e ∈ (readEach (expressionOf source budget) ns).value,
          e.IsUnmarked := by
        intro e he
        rw [Noted.value_readEach] at he
        obtain ⟨c, -, he⟩ := List.mem_flatMap.1 he
        exact hexpression c e he
      exact hs ▸ wellFormed_ofFor source root (forall_mem_readField fun c _ => hexpression c)
        (hflat _) (hflat _) hbody
    | block =>
      simp only [statementOf, statementStep, hform, Noted.value_bind, Noted.value_pure,
        List.mem_singleton] at hs
      exact hs ▸ wellFormed_blockOf source root hexpression hstatement hn
    | tryBlock =>
      simp only [statementOf, statementStep, hform, Noted.value_bind, Noted.value_pure,
        List.mem_singleton] at hs
      exact hs ▸ wellFormed_ofTry source root hbody
    | typeDecl =>
      simp only [statementOf, statementStep, hform] at hs
      exact absurd hs List.not_mem_nil
    | unsupported =>
      have hparts := wellFormed_partsOf source root hexpression hstatement PartForm.ofContainedKind
        n.content fun c hc => hbelow (Node.mem_preorder_of_mem_children
          (Node.mem_children_of_mem_content hc))
      simp only [statementOf, statementStep, hform, Noted.value_bind] at hs
      split at hs
      · exact hparts.statements s hs
      · rw [Noted.value_pure, List.mem_singleton] at hs
        exact hs ▸ hparts.ofBlock source root

end

/-! ## Outlines -/

/-- A method in which everything is well formed. -/
structure Method.WellFormed (source : Bytes) (root : Node) (m : Method) : Prop where
  returnType : m.returnType.kind = .other
  arguments : ∀ v ∈ m.arguments, v.type.kind = .other
  bodyContent : ∀ e ∈ m.bodyContent, e.IsUnmarked
  statements : ∀ s ∈ m.statements, s.WellFormed source root

/-- An outline in which everything is well formed. -/
structure Outline.WellFormed (source : Bytes) (root : Node) (o : Outline) : Prop where
  fields : ∀ d ∈ TypeDecl.preorderList o.namespaces, ∀ v ∈ d.fields, v.type.kind = .other
  methods : ∀ d ∈ TypeDecl.preorderList o.namespaces, ∀ m ∈ d.methods, m.WellFormed source root

section

variable (source : Bytes)

/-- Parameters have unresolved types. -/
theorem type_kind_of_mem_parametersOf {n : Node} {v : Variable} (h : v ∈ parametersOf source n) :
    v.type.kind = .other := by
  unfold parametersOf at h
  split at h
  · obtain ⟨c, -, hc⟩ := List.mem_filterMap.1 h
    unfold parameterOf? at hc
    -- Formal or spread, a parameter is typed by text.
    split at hc
    · simp only [Option.bind_eq_bind, Option.bind_eq_some_iff] at hc
      obtain ⟨name, -, type, -, hv⟩ := hc
      exact Option.some.inj hv ▸ rfl
    · simp only [spreadParameterOf?, Option.bind_eq_bind, Option.bind_eq_some_iff] at hc
      obtain ⟨type, -, declarator, -, name, -, hv⟩ := hc
      exact Option.some.inj hv ▸ rfl
    · exact nomatch hc
  · exact nomatch h

/-- The method at a node of a tree is well formed. -/
theorem wellFormed_methodOf {root n : Node} {budget : Nat} {m : Method} (hn : n ∈ root.preorder)
    (hm : m ∈ (methodOf source budget n).value) : m.WellFormed source root := by
  obtain ⟨-, -, hreturn, harguments, hexpressions, hstatements⟩ := methodOf_spec source hm
  -- The body stands in the tree below the method.
  have hparts : (bodyOf source budget n).value.WellFormed source root := by
    unfold bodyOf
    split
    · rename_i body hbody
      exact wellFormed_blockParts source root (isUnmarked_expressionOf source budget)
        (fun _ => wellFormed_statementOf source root budget)
        (Node.preorder_subset_of_mem_preorder hn
          (Node.mem_preorder_of_mem_children (Node.mem_children_of_child? hbody)))
    · exact ⟨by simp, by simp⟩
  constructor
  case returnType => exact hreturn
  case arguments => exact fun v hv => type_kind_of_mem_parametersOf source (harguments ▸ hv)
  case bodyContent => exact fun e he => hparts.expressions e (hexpressions ▸ he)
  case statements => exact fun s hs => hparts.statements s (hstatements ▸ hs)

end

/-- Every outline that is extracted is well formed: no expression, statement or type in it, at any
    depth, fills a field that its kind does not have. -/
theorem wellFormed_extractSource (parser : Parser) (options : ExtractOptions)
    (source origin : String) (o : Outline)
    (h : extractSource parser options source origin = .ok o) :
    ∃ root, parser source = some root ∧ o.WellFormed (utf8 source) root := by
  obtain ⟨root, hparse, -, rfl⟩ := extractSource_eq_ok_iff.1 h
  refine ⟨root, hparse, ?_, ?_⟩
  -- A field comes from a declarator, whose type is a text.
  · intro d hd v hv
    obtain ⟨n, -, hfield⟩ := (readFrom_unitOf (utf8 source) hd).fields v hv
    obtain ⟨f, -, rfl⟩ := List.mem_map.1 hfield
    rfl
  -- A method comes from a node of the tree.
  · intro d hd m hm
    obtain ⟨n, hn, -, budget, hvalue, -⟩ := (readFrom_unitOf (utf8 source) hd).methods m hm
    exact wellFormed_methodOf (utf8 source) hn (by rw [hvalue]; exact List.mem_singleton_self m)

/-- The outline of `nestedCallSource` is well formed. -/
theorem wellFormed_extractSource_nestedCall :
    ∃ root, some nestedCallTree = some root ∧
      (unitOf (utf8 nestedCallSource) 8 nestedCallTree).value.WellFormed
        (utf8 nestedCallSource) root :=
  wellFormed_extractSource (fun _ => some nestedCallTree) { maxDepth := 8 } nestedCallSource
    "A.java" _ (extractSource_eq_ok_iff.2 ⟨nestedCallTree, rfl, rfl, rfl⟩)

end JavaOutline

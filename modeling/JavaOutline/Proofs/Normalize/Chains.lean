import JavaOutline.Proofs.Normalize.WellFormed

/-!
# The budget bounds the outline

A chain goes down in an outline: from a declaration to the declarations, statements and expressions
that stand directly in it, and so on.  Nearly every step down takes one from the budget.  Two do
not: a then branch and the parts of an unsupported statement come out as a block of their own, and
the arguments of a creation are made on the spot.  Neither happens twice in a row, so that no chain
is longer than twice the budget.

## Key results

- `Made`: all that a step of normalization can make of what it reads
- `within_expressionOf`, `within_statementOf`: chains below what comes out at a budget
- `budget_bounds_outline`: chains in an extracted outline
-/

namespace JavaOutline

open Syntax (Node)

/-! ## Chains -/

/-- An item of an outline that others can stand in. -/
inductive Outline.Item where
  | declaration (d : TypeDecl)
  | statement (s : Statement)
  | expression (e : Expression)

namespace Outline.Item

/-- What stands directly in an item. -/
def inside : Item → List Item
  | declaration d => d.nested.map declaration ++ d.methods.flatMap fun m =>
      m.bodyContent.map expression ++ m.statements.map statement
  | statement s => s.ownExpressions.map expression ++ s.statements.map statement
  | expression e => (e.methodArguments ++ e.expressions).map expression

/-- Whether items stand one in the other, from the outermost to the innermost. -/
def IsChain (chain : List Item) : Prop :=
  List.IsChain (fun x y => y ∈ x.inside) chain

/-- An item with at most `k` levels, its own included. -/
inductive Within : (k : Nat) → Item → Prop
  | intro {k : Nat} {x : Item} (h : ∀ y ∈ x.inside, Within k y) : Within (k + 1) x

/-- More levels do no harm. -/
theorem Within.mono {k l : Nat} {x : Item} (h : x.Within k) (hle : k ≤ l) : x.Within l := by
  induction h generalizing l with
  | @intro k x _ ih =>
    obtain ⟨l, rfl⟩ : ∃ j, l = j + 1 := ⟨l - 1, by omega⟩
    exact .intro fun _ hy => ih _ hy (by omega)

/-- A chain has at most one item on each level. -/
theorem Within.length_le {k : Nat} {x : Item} (h : x.Within k) {chain : List Item}
    (hchain : IsChain (x :: chain)) : (x :: chain).length ≤ k := by
  -- By induction on the levels; the rest of the chain starts one level down.
  induction h generalizing chain with
  | @intro k x _ ih =>
    cases chain with
    | nil => simp
    | cons y chain =>
      obtain ⟨hy, hrest⟩ := List.isChain_cons_cons.1 hchain
      have hle := ih y hy hrest
      simp only [List.length_cons] at hle ⊢
      omega

/-- An item with nothing in it takes one level. -/
theorem within_of_inside_eq_nil {k : Nat} {x : Item} (h : x.inside = []) : x.Within (k + 1) :=
  .intro fun _ hy => absurd (h ▸ hy) List.not_mem_nil

end Outline.Item

open Outline (Item)

/-! ## What steps make -/

section

variable (P : Expression → Prop) (Q : Statement → Prop)

/-- An expression that a step makes of expressions with `P`, or one of these passed on. -/
inductive Expression.Made : Expression → Prop
  | passedOn {e : Expression} (h : P e) : e.Made
  | literal (text : String) : (ofLiteral text).Made
  | name (text : String) : (ofName text).Made
  | fieldAccess (object field : String) : (ofFieldAccess object field).Made
  | arrayAccess (array index : String) : (ofArrayAccess array index).Made
  | localVariable (initializer : String) (declared : Variable) :
    (ofDeclaration initializer declared).Made
  | creation (type : String) (texts : List String) : (ofCreation type (texts.map ofName)).Made
  | call (method : String) {arguments : List Expression} (h : ∀ a ∈ arguments, P a) :
    (ofCall method arguments).Made
  | assignment {values targets : List Expression} (hvalues : ∀ v ∈ values, P v)
    (htargets : ∀ t ∈ targets, P t) : (ofAssignment (values.map asPostfix ++ targets)).Made

/-- Parts of a body of which all expressions have `P` and all statements `Q`. -/
structure Parts.All (parts : Parts) : Prop where
  expressions : ∀ e ∈ parts.expressions, P e
  statements : ∀ s ∈ parts.statements, Q s

/-- A block made of expressions with `P` and statements with `Q`. -/
def Statement.IsBlockOf (s : Statement) : Prop :=
  ∃ parts : Parts, parts.All P Q ∧ s = ofBlock parts.expressions parts.statements

/-- A statement that a step makes of expressions with `P` and statements with `Q`, or one of these
    passed on.  The body of a condition may hold a block that the step makes, too. -/
inductive Statement.Made : Statement → Prop
  | passedOn {s : Statement} (h : Q s) : s.Made
  | block {s : Statement} (h : s.IsBlockOf P Q) : s.Made
  | condition (kind : StatementKind) {condition : Option Expression} {body : List Statement}
    (hcondition : ∀ e ∈ condition.toList, P e) (hbody : ∀ s ∈ body, Q s ∨ s.IsBlockOf P Q) :
    (ofCondition kind condition body).Made
  | returnValue {values : List Expression} (h : ∀ e ∈ values, P e) : (ofReturn values).Made
  | forLoop {comparisons initializations updates : List Expression} {body : List Statement}
    (hexpressions : ∀ e ∈ comparisons ++ initializations ++ updates, P e)
    (hbody : ∀ s ∈ body, Q s) : (ofFor comparisons initializations updates body).Made
  | tryBlock {body : List Statement} (h : ∀ s ∈ body, Q s) : (ofTry body).Made

end

/-- What holds of all that the nodes of a list give holds of it together. -/
theorem forall_mem_readEach {α : Type} {P : α → Prop} {read : Node → Noted (List α)}
    (h : ∀ n, ∀ a ∈ (read n).value, P a) (ns : List Node) :
    ∀ a ∈ (readEach read ns).value, P a := by
  intro a ha
  rw [Noted.value_readEach] at ha
  obtain ⟨n, -, ha⟩ := List.mem_flatMap.1 ha
  exact h n a ha

section

variable (source : Bytes)

/-- What an expression step makes of what it reads. -/
theorem made_expressionStep {P : Expression → Prop} {inner : Node → Noted (List Expression)}
    (h : ∀ m, ∀ e ∈ (inner m).value, P e) (n : Node) :
    ∀ e ∈ (expressionStep source inner n).value, e.Made P := by
  have hfield (field : String) : ∀ e ∈ (readField inner n field).value, P e :=
    forall_mem_readField fun c _ => h c
  have hpair {make : String → String → Expression} (hmake : ∀ a b, (make a b).Made P)
      (first second : String) : ∀ e ∈ (pairExpression source make n first second).value,
        e.Made P := by
    intro e he
    unfold pairExpression at he
    split at he
    · exact List.mem_singleton.1 he ▸ hmake _ _
    · exact nomatch he
  intro e he
  unfold expressionStep at he
  cases hform : ExpressionForm.ofKind n.kind with
  | literal =>
    simp only [hform, Noted.value_pure, List.mem_singleton] at he
    exact he ▸ .literal _
  | name =>
    simp only [hform, Noted.value_pure, List.mem_singleton] at he
    exact he ▸ .name _
  | fieldAccess =>
    simp only [hform] at he
    exact hpair .fieldAccess _ _ e he
  | arrayAccess =>
    simp only [hform] at he
    exact hpair .arrayAccess _ _ e he
  | wrapper =>
    simp only [hform] at he
    split at he
    · exact .passedOn (h _ e he)
    · exact nomatch he
  | binary =>
    simp only [hform, Noted.value_bind, Noted.value_pure, List.mem_append] at he
    exact .passedOn (he.elim (hfield "left" e) (hfield "right" e))
  | assignment =>
    simp only [hform, Noted.value_bind, Noted.value_pure, List.mem_singleton] at he
    exact he ▸ .assignment (hfield "right") (hfield "left")
  | call =>
    simp only [hform] at he
    cases hname : callName? source n with
    | none =>
      rw [hname] at he
      exact nomatch he
    | some name =>
      cases hlist : n.child? "arguments" with
      | none =>
        simp only [hname, hlist, Noted.value_bind, Noted.value_pure, List.mem_singleton] at he
        exact he ▸ .call name (by simp)
      | some list =>
        simp only [hname, hlist, Noted.value_bind, Noted.value_pure, List.mem_singleton] at he
        exact he ▸ .call name (forall_mem_readEach h list.content)
  | creation =>
    simp only [hform, monadLift_self] at he
    unfold creationOf at he
    split at he
    · rename_i type _
      rw [Noted.value_pure, List.mem_singleton] at he
      subst he
      -- The arguments are texts, whatever nodes they come from.
      split
      · rename_i list _
        have hmap : (list.content.map fun a => Expression.ofName (a.text source)) =
            (list.content.map (Node.text source)).map Expression.ofName := by simp
        rw [hmap]
        exact .creation type _
      · exact .creation type []
    · exact nomatch he
  | localVariable =>
    simp only [hform] at he
    unfold localVariablesOf at he
    split at he
    · exact nomatch he
    · obtain ⟨d, -, rfl⟩ := List.mem_map.1 he
      exact .localVariable _ _
  | typeDecl =>
    simp only [hform] at he
    exact nomatch he
  | unsupported =>
    simp only [hform, Noted.value_bind] at he
    exact .passedOn (forall_mem_readEach h n.content e he)

section

variable {P : Expression → Prop} {Q : Statement → Prop}
  {expression : Node → Noted (List Expression)} {statement : Node → Noted (List Statement)}
  (hexpression : ∀ n, ∀ e ∈ (expression n).value, P e)
  (hstatement : ∀ n, ∀ s ∈ (statement n).value, Q s)

include hexpression hstatement

/-- The parts at the nodes of a body are all read. -/
theorem all_partsOf (form : String → PartForm) (ns : List Node) :
    (partsOf expression statement form ns).value.All P Q := by
  induction ns with
  | nil => exact ⟨by simp [partsOf], by simp [partsOf]⟩
  | cons n ns ih =>
    -- A part is one or the other, so it gives expressions or statements.
    have hhere : (partOf expression statement (form n.kind) n).value.All P Q := by
      unfold partOf
      cases form n.kind with
      | expressionStatement =>
        cases n.firstContent? with
        | none => exact ⟨by simp, by simp⟩
        | some c => exact ⟨hexpression c, by simp⟩
      | localVariable | expression => exact ⟨hexpression n, by simp⟩
      | statement => exact ⟨by simp, hstatement n⟩
    constructor
    case expressions =>
      intro e he
      exact (List.mem_append.1 he).elim (hhere.expressions e) (ih.expressions e)
    case statements =>
      intro s hs
      exact (List.mem_append.1 hs).elim (hhere.statements s) (ih.statements s)

/-- A block is made of what is read in it. -/
theorem isBlockOf_blockOf (n : Node) : (blockOf expression statement n).value.IsBlockOf P Q :=
  ⟨_, all_partsOf hexpression hstatement _ _, rfl⟩

/-- What a statement step makes of what it reads. -/
theorem made_statementStep (n : Node) :
    ∀ s ∈ (statementStep source expression statement n).value, s.Made P Q := by
  have hbody (field : String) : ∀ s ∈ (readField statement n field).value, Q s :=
    forall_mem_readField fun c _ => hstatement c
  have hcondition : ∀ e ∈ (conditionOf source expression n).value.toList, P e := by
    intro e he
    -- The condition is the first of the expressions read in the parentheses.
    rw [value_conditionOf] at he
    obtain ⟨c, -, he⟩ := List.mem_flatMap.1 he
    exact hexpression c e ((List.toList_head?_sublist _).subset he)
  intro s hs
  unfold statementStep at hs
  -- One case for each form a statement can have; each says what it is built from.
  cases hform : StatementForm.ofKind n.kind with
  | ifThen =>
    simp only [hform, Noted.value_bind, Noted.value_pure, List.mem_singleton] at hs
    refine hs ▸ .condition _ hcondition fun t ht => ?_
    rcases List.mem_append.1 ht with ht | ht
    · exact .inl (hbody "alternative" t ht)
    · -- The then branch is a block of its own, whether the source has one there or not.
      refine .inr (forall_mem_readField (fun c _ u hu => ?_) t ht)
      rw [Noted.value_bind, Noted.value_pure, List.mem_singleton] at hu
      exact hu ▸ isBlockOf_blockOf hexpression hstatement c
  | returnValue =>
    simp only [hform] at hs
    cases hfirst : n.firstContent? with
    -- A bare return has no expression.
    | none =>
      simp only [hfirst, Noted.value_bind, Noted.value_pure, List.mem_singleton] at hs
      exact hs ▸ .returnValue (by simp)
    | some c =>
      simp only [hfirst, Noted.value_bind, Noted.value_pure, List.mem_singleton] at hs
      exact hs ▸ .returnValue (hexpression c)
  | doWhile | whileLoop =>
    simp only [hform, Noted.value_bind, Noted.value_pure, List.mem_singleton] at hs
    exact hs ▸ .condition _ hcondition fun t ht => .inl (hbody "body" t ht)
  | forLoop =>
    simp only [hform, Noted.value_bind, Noted.value_pure, List.mem_singleton] at hs
    refine hs ▸ .forLoop ?_ (hbody "body")
    -- Initializers, condition and updates are all read as expressions.
    rw [List.forall_mem_append, List.forall_mem_append]
    exact ⟨⟨forall_mem_readField fun c _ => hexpression c, forall_mem_readEach hexpression _⟩,
      forall_mem_readEach hexpression _⟩
  | block =>
    simp only [hform, Noted.value_bind, Noted.value_pure, List.mem_singleton] at hs
    exact hs ▸ .block (isBlockOf_blockOf hexpression hstatement n)
  | tryBlock =>
    simp only [hform, Noted.value_bind, Noted.value_pure, List.mem_singleton] at hs
    exact hs ▸ .tryBlock (hbody "body")
  | typeDecl =>
    simp only [hform] at hs
    -- A type declared inside a body makes no statement of that body.
    exact absurd hs List.not_mem_nil
  | unsupported =>
    have hparts := all_partsOf hexpression hstatement PartForm.ofContainedKind n.content
    simp only [hform, Noted.value_bind] at hs
    split at hs
    -- Statements below an unsupported node take its place; beside expressions they form a block.
    · exact .passedOn (hparts.statements s hs)
    · rw [Noted.value_pure, List.mem_singleton] at hs
      exact hs ▸ .block ⟨_, hparts, rfl⟩

end

/-! ## Levels of bodies -/

/-- Marking an expression changes nothing in it. -/
theorem Outline.Item.Within.asPostfix {k : Nat} {e : Expression}
    (h : (Item.expression e).Within k) : (Item.expression e.asPostfix).Within k := by
  cases h with
  | intro h => exact .intro h

/-- What is made of expressions with `k` levels has at most two more. -/
theorem Expression.Made.within {k : Nat} {e : Expression}
    (h : e.Made fun a => (Item.expression a).Within k) : (Item.expression e).Within (k + 2) := by
  cases h with
  | passedOn h => exact h.mono (by omega)
  | literal | name | fieldAccess | arrayAccess | localVariable =>
    exact Item.within_of_inside_eq_nil rfl
  | creation type texts =>
    -- Only here are two levels made at once: the creation and the texts of its arguments.
    refine .intro fun y hy => ?_
    have htext : ∃ text ∈ texts, y = .expression (ofName text) := by
      unfold ofCreation at hy
      split at hy <;> simpa [Item.inside, eq_comm] using hy
    obtain ⟨text, -, rfl⟩ := htext
    exact Item.within_of_inside_eq_nil rfl
  | call method h =>
    refine Item.Within.mono (.intro fun y hy => ?_) (Nat.le_succ (k + 1))
    simp only [Item.inside, ofCall, List.append_nil] at hy
    obtain ⟨a, ha, rfl⟩ := List.mem_map.1 hy
    exact h a ha
  | assignment hvalues htargets =>
    refine Item.Within.mono (.intro fun y hy => ?_) (Nat.le_succ (k + 1))
    simp only [Item.inside, ofAssignment, List.nil_append] at hy
    obtain ⟨a, ha, rfl⟩ := List.mem_map.1 hy
    rcases List.mem_append.1 ha with ha | ha
    · obtain ⟨v, hv, rfl⟩ := List.mem_map.1 ha
      exact (hvalues v hv).asPostfix
    · exact htargets a ha

/-- Whether all parts of a body have at most `k` levels. -/
abbrev Parts.Within (k : Nat) (parts : Parts) : Prop :=
  parts.All (fun e => (Item.expression e).Within k) fun s => (Item.statement s).Within k

/-- A block takes one level. -/
theorem Statement.IsBlockOf.within {k : Nat} {s : Statement}
    (h : s.IsBlockOf (fun a => (Item.expression a).Within k) fun t => (Item.statement t).Within k) :
    (Item.statement s).Within (k + 1) := by
  obtain ⟨parts, hparts, rfl⟩ := h
  refine .intro fun y hy => ?_
  rcases List.mem_append.1 hy with hy | hy
  · obtain ⟨e, he, rfl⟩ := List.mem_map.1 hy
    exact hparts.expressions e (by simpa [ownExpressions, ofBlock] using he)
  · obtain ⟨t, ht, rfl⟩ := List.mem_map.1 hy
    exact hparts.statements t ht

/-- What is made of expressions and statements with `k` levels has at most two more. -/
theorem Statement.Made.within {k : Nat} {s : Statement}
    (h : s.Made (fun a => (Item.expression a).Within k) fun t => (Item.statement t).Within k) :
    (Item.statement s).Within (k + 2) := by
  cases h with
  | passedOn h => exact h.mono (by omega)
  | block h => exact h.within.mono (by omega)
  | condition kind hcondition hbody =>
    -- A then branch stands in the statement as a block, which is where the second level goes.
    refine .intro fun y hy => ?_
    rcases List.mem_append.1 hy with hy | hy
    · obtain ⟨e, he, rfl⟩ := List.mem_map.1 hy
      exact (hcondition e (by simpa [ownExpressions, ofCondition] using he)).mono (by omega)
    · obtain ⟨t, ht, rfl⟩ := List.mem_map.1 hy
      rcases hbody t ht with ht | ht
      · exact ht.mono (by omega)
      · exact ht.within
  | returnValue h =>
    refine Item.Within.mono (.intro fun y hy => ?_) (Nat.le_succ (k + 1))
    obtain ⟨e, he, rfl⟩ : ∃ e ∈ _, Item.expression e = y := by
      simpa [Item.inside, ownExpressions, ofReturn] using hy
    exact h e he
  | forLoop hexpressions hbody =>
    refine Item.Within.mono (.intro fun y hy => ?_) (Nat.le_succ (k + 1))
    rcases List.mem_append.1 hy with hy | hy
    · obtain ⟨e, he, rfl⟩ := List.mem_map.1 hy
      exact hexpressions e (by simpa [ownExpressions, ofFor] using he)
    · obtain ⟨t, ht, rfl⟩ := List.mem_map.1 hy
      exact hbody t ht
  | tryBlock h =>
    refine Item.Within.mono (.intro fun y hy => ?_) (Nat.le_succ (k + 1))
    obtain ⟨t, ht, rfl⟩ : ∃ t ∈ _, Item.statement t = y := by
      simpa [Item.inside, ownExpressions, ofTry] using hy
    exact h t ht

/-- The expressions at a node have at most two levels for each one of the budget. -/
theorem within_expressionOf (budget : Nat) (n : Node) :
    ∀ e ∈ (expressionOf source budget n).value, (Item.expression e).Within (2 * budget) := by
  induction budget generalizing n with
  | zero => exact fun _ he => nomatch he
  | succ budget ih => exact fun e he => (made_expressionStep source ih n e he).within

/-- The statements at a node have at most two levels for each one of the budget. -/
theorem within_statementOf (budget : Nat) (n : Node) :
    ∀ s ∈ (statementOf source budget n).value, (Item.statement s).Within (2 * budget) := by
  induction budget generalizing n with
  | zero => exact fun _ hs => nomatch hs
  | succ budget ih =>
    exact fun s hs => (made_statementStep source (within_expressionOf source budget) ih n s hs).within

/-! ## Levels of declarations -/

/-- What stands in the body of a method at a node has the levels of its budget. -/
theorem within_bodyOf (budget : Nat) (n : Node) :
    (bodyOf source budget n).value.Within (2 * budget) := by
  unfold bodyOf
  split
  · exact all_partsOf (within_expressionOf source budget) (within_statementOf source budget) _ _
  · exact ⟨by simp, by simp⟩

/-- A declaration at a node has at most two levels for each one of the budget. -/
theorem within_declarationOf {budget : Nat} {n : Node} {d : TypeDecl}
    (h : d ∈ (declarationOf source budget n).value) : (Item.declaration d).Within (2 * budget) := by
  induction budget generalizing n d with
  | zero => exact nomatch h
  | succ budget ih =>
    have hread := declarationOf_spec source h
    -- The declaration itself is one level, and all that stands in it is read at one budget less.
    refine Item.Within.mono (.intro fun y hy => ?_) (Nat.le_succ (2 * budget + 1))
    rcases List.mem_append.1 hy with hy | hy
    · obtain ⟨e, he, rfl⟩ := List.mem_map.1 hy
      obtain ⟨c, -, he, -⟩ := hread.nested e he
      exact ih he
    · obtain ⟨m, hm, hy⟩ := List.mem_flatMap.1 hy
      obtain ⟨c, -, -, hmethod, -⟩ := hread.methods m hm
      obtain ⟨-, -, -, -, hexpressions, hstatements⟩ := methodOf_spec source hmethod
      have hbody := within_bodyOf source budget c
      rcases List.mem_append.1 hy with hy | hy
      · obtain ⟨e, he, rfl⟩ := List.mem_map.1 hy
        exact hbody.expressions e (hexpressions ▸ he)
      · obtain ⟨s, hs, rfl⟩ := List.mem_map.1 hy
        exact hbody.statements s (hstatements ▸ hs)

/-- Declarations at a node are nested as deep as the budget allows. -/
theorem length_le_of_nested {budget : Nat} {n : Node} {d : TypeDecl} {ds : List TypeDecl}
    (h : d ∈ (declarationOf source budget n).value)
    (hnested : List.IsChain (fun outer inner => inner ∈ outer.nested) (d :: ds)) :
    (d :: ds).length ≤ budget := by
  induction budget generalizing n d ds with
  -- Without budget there is no declaration.
  | zero => exact nomatch h
  | succ budget ih =>
    cases ds with
    | nil => simp
    | cons e ds =>
      obtain ⟨he, hrest⟩ := List.isChain_cons_cons.1 hnested
      -- The next one on the chain is declared with one less.
      obtain ⟨c, -, he, -⟩ := (declarationOf_spec source h).nested e he
      have hle := ih he hrest
      simp only [List.length_cons] at hle ⊢
      omega

/-- Declarations at the top of a file come from nodes there. -/
theorem exists_of_mem_namespaces {budget : Nat} {root : Node} {d : TypeDecl}
    (h : d ∈ (unitOf source budget root).value.namespaces) :
    ∃ n, d ∈ (declarationOf source budget n).value := by
  rw [unitOf] at h
  -- It plays no part that the nodes are those of a file.
  generalize root.content = ns at h
  induction ns with
  | nil => exact nomatch h
  | cons n ns ih =>
    rw [topLevelOf_cons, Noted.value_bind, Noted.value_bind, Noted.value_pure] at h
    rcases List.mem_append.1 h with h | h
    · refine ⟨n, ?_⟩
      unfold topLevelAt at h
      cases hform : TopLevelForm.ofKind n.kind with
      | typeDecl =>
        simp only [hform] at h
        exact h
      -- Nothing but a type declaration gives a declaration.
      | importName | package | unsupported =>
        simp only [hform] at h
        exact nomatch h
    · exact ih h

end

/-- In every extracted outline declarations are nested at most as deep as the budget says, and no
    chain of declarations, statements and expressions that stand one in the other is longer than
    twice the budget.  Without a budget there are no declarations at all. -/
theorem budget_bounds_outline (parser : Parser) (options : ExtractOptions)
    (source origin : String) (o : Outline)
    (h : extractSource parser options source origin = .ok o) :
    (∀ d ∈ o.namespaces, ∀ ds,
        List.IsChain (fun outer inner => inner ∈ outer.nested) (d :: ds) →
          (d :: ds).length ≤ options.maxDepth) ∧
      (∀ d ∈ o.namespaces, ∀ chain, Item.IsChain (.declaration d :: chain) →
        (Item.declaration d :: chain).length ≤ 2 * options.maxDepth) ∧
      (options.maxDepth = 0 → o.namespaces = []) := by
  obtain ⟨root, -, -, rfl⟩ := extractSource_eq_ok_iff.1 h
  refine ⟨fun d hd ds hnested => ?_, fun d hd chain hchain => ?_, fun hzero => ?_⟩
  · obtain ⟨n, hn⟩ := exists_of_mem_namespaces (utf8 source) hd
    exact length_le_of_nested (utf8 source) hn hnested
  · obtain ⟨n, hn⟩ := exists_of_mem_namespaces (utf8 source) hd
    exact (within_declarationOf (utf8 source) hn).length_le hchain
  · -- A declaration alone would be nested one level deep.
    refine List.eq_nil_iff_forall_not_mem.2 fun d hd => ?_
    obtain ⟨n, hn⟩ := exists_of_mem_namespaces (utf8 source) hd
    have hle := length_le_of_nested (utf8 source) hn (.singleton d)
    simp only [List.length_cons] at hle
    omega

/-- A class whose one method creates an object under a condition. -/
def thenCreationSource : String := "class A { void f() { if (a) new B(c); } }"

/-- The syntax tree of `thenCreationSource`. -/
def thenCreationTree : Node :=
  let leaf (kind field : String) (start stop : Nat) : Node :=
    { kind, field, start, stop, isNamed := true }
  let inner (kind field : String) (start stop : Nat) (children : List Node) : Node :=
    { kind, field, start, stop, isNamed := true, children }
  let creation : Node :=
    inner "object_creation_expression" "" 28 36 [leaf "type_identifier" "type" 32 33,
      inner "argument_list" "arguments" 33 36 [leaf "identifier" "" 34 35]]
  let statement : Node :=
    inner "if_statement" "" 21 37
      [inner "parenthesized_expression" "condition" 24 27 [leaf "identifier" "" 25 26],
        inner "expression_statement" "consequence" 28 37 [creation]]
  let method : Node :=
    inner "method_declaration" "" 10 39 [leaf "void_type" "type" 10 14,
      leaf "identifier" "name" 15 16, leaf "formal_parameters" "parameters" 16 18,
      inner "block" "body" 19 39 [statement]]
  inner "program" "" 0 41
    [inner "class_declaration" "" 0 41 [leaf "identifier" "name" 6 7,
      inner "class_body" "body" 8 41 [method]]]

/-- In `thenCreationSource` five items stand one in the other at a budget of three: the class, the
    condition, its then branch, the creation and the argument of it. -/
theorem budget_bounds_outline_thenCreation :
    let o := (unitOf (utf8 thenCreationSource) 3 thenCreationTree).value
    (o.namespaces.flatMap fun d => d.methods.flatMap fun m => m.statements.flatMap fun s =>
        s.statements.flatMap fun b => b.ownExpressions.flatMap fun e =>
          e.methodArguments.map (·.varName)) = ["c"] ∧
      ∀ d ∈ o.namespaces, ∀ chain, Item.IsChain (.declaration d :: chain) →
        (Item.declaration d :: chain).length ≤ 6 :=
  ⟨by decide,
    (budget_bounds_outline (fun _ => some thenCreationTree) { maxDepth := 3 } thenCreationSource
      "A.java" _ (extractSource_eq_ok_iff.2 ⟨thenCreationTree, rfl, rfl, rfl⟩)).2.1⟩

end JavaOutline

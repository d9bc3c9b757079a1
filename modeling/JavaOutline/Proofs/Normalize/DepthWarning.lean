import JavaOutline.Proofs.Extraction
import JavaOutline.Proofs.Normalize.Budget
import JavaOutline.Proofs.Normalize.MethodCalls

/-!
# The warning about nesting

Extraction warns once when it drops a subtree that is nested too deep.  A budget as large as the
height of the syntax tree drops nothing, since every level of nesting goes down in the tree.  And a
run without the warning dropped nothing, so its outline and its log are those of every larger budget.

## Key results

- `isComplete_unitOf`: a budget as large as the height of the tree drops nothing
- `isComplete_iff_noDepthWarning`: the warning is logged exactly if something was dropped
- `depth_warning_exact`: without the warning a larger budget changes nothing, and a budget as large
  as the height gives no warning
-/

namespace JavaOutline

open Syntax (Node)

/-! ## Height -/

namespace Syntax.Node

mutual

/-- The number of steps from a node down to the farthest node below it. -/
def height : Node → Nat
  | ⟨_, _, _, _, _, _, _, _, _, children⟩ => heightIn children

/-- The height of a node with these children. -/
def heightIn : List Node → Nat
  | [] => 0
  | n :: ns => max (height n + 1) (heightIn ns)

end

/-- A child is lower than its parent. -/
theorem height_lt_of_mem_children {n c : Node} (h : c ∈ n.children) : c.height < n.height := by
  obtain ⟨_, _, _, _, _, _, _, _, _, children⟩ := n
  rw [height]
  replace h : c ∈ children := h
  -- The height goes over all children, so the induction is on them.
  induction children with
  | nil => exact nomatch h
  | cons d ds ih =>
    rw [heightIn]
    rcases List.mem_cons.1 h with rfl | h
    · omega
    · have hlt := ih h
      omega

/-- The first child under a field is lower. -/
theorem height_lt_of_child? {n c : Node} {field : String} (h : c ∈ (n.child? field).toList) :
    c.height < n.height :=
  height_lt_of_mem_children (mem_children_of_child? (Option.mem_toList.1 h))

/-- The content is lower. -/
theorem height_lt_of_mem_content {n c : Node} (h : c ∈ n.content) : c.height < n.height :=
  height_lt_of_mem_children (mem_children_of_mem_content h)

/-- The first content node is lower. -/
theorem height_lt_of_firstContent? {n c : Node} (h : c ∈ n.firstContent?.toList) :
    c.height < n.height :=
  height_lt_of_mem_children (mem_children_of_firstContent? (Option.mem_toList.1 h))

end Syntax.Node

/-! ## Steps that drop nothing -/

@[simp] theorem Noted.isComplete_remark (r : Remark) :
    (Noted.remark r).IsComplete ↔ r.isTooDeep = false := by
  simp [IsComplete]

section

variable (source : Bytes)

@[simp] theorem isComplete_leaveOut (category : Category) (n : Node) :
    (n.leaveOut source category).IsComplete := by
  simp [Node.leaveOut, Remark.isTooDeep]

@[simp] theorem isComplete_leaveOutExpression (n : Node) :
    (leaveOutExpression source n).IsComplete := by
  simp [leaveOutExpression]

@[simp] theorem isComplete_pairExpression (make : String → String → Expression) (n : Node)
    (first second : String) : (pairExpression source make n first second).IsComplete := by
  unfold pairExpression
  cases n.fieldText? source first <;> cases n.fieldText? source second <;> simp

@[simp] theorem isComplete_creationOf (n : Node) : (creationOf source n).IsComplete := by
  unfold creationOf
  cases n.fieldText? source "type" <;> simp

@[simp] theorem isComplete_localVariablesOf (n : Node) :
    (localVariablesOf source n).IsComplete := by
  unfold localVariablesOf
  cases declaratorsOf source n <;> simp

/-- An expression step drops nothing if nothing that it reads is dropped. -/
theorem isComplete_expressionStep {inner : Node → Noted (List Expression)} {n : Node}
    (h : ∀ m ∈ expressionReads source n, (inner m).IsComplete) :
    (expressionStep source inner n).IsComplete := by
  unfold expressionReads at h
  unfold expressionStep
  cases hform : ExpressionForm.ofKind n.kind with
  -- These forms read no other node.
  | literal | name | fieldAccess | arrayAccess | creation | localVariable | typeDecl => simp
  | wrapper => cases hfirst : n.firstContent? <;> simp_all
  | binary =>
    simp only [hform, List.forall_mem_append] at h
    simp only [Noted.isComplete_bind, isComplete_readField]
    exact ⟨h.1, h.2, Noted.isComplete_pure _⟩
  -- The value is read before the target.
  | assignment =>
    simp only [hform, List.forall_mem_append] at h
    simp only [Noted.isComplete_bind, isComplete_readField]
    exact ⟨h.2, h.1, Noted.isComplete_pure _⟩
  | call =>
    cases hname : callName? source n with
    | none => simp
    | some name => cases hlist : n.child? "arguments" <;> simp_all
  -- What is not supported is left out, but its parts are read.
  | unsupported =>
    simp only [hform] at h
    simpa using h

variable {expression : Node → Noted (List Expression)}
  {statement : Node → Noted (List Statement)}

/-- The parts of a body drop nothing if no site of it does. -/
theorem isComplete_partsOf {form : String → PartForm} {ns : List Node}
    (h : ∀ s ∈ ns.flatMap fun c => partSites (form c.kind) c, s.IsComplete expression statement) :
    (partsOf expression statement form ns).IsComplete := by
  induction ns with
  | nil => exact Noted.isComplete_pure _
  | cons n ns ih =>
    rw [List.flatMap_cons, List.forall_mem_append] at h
    -- The first part is complete, as it is at its sites.
    have hhere : (partOf expression statement (form n.kind) n).IsComplete := by
      replace h := h.1
      unfold partSites at h
      unfold partOf
      cases hform : form n.kind with
      | expressionStatement => cases hfirst : n.firstContent? <;> simp_all [Site.IsComplete]
      | localVariable | expression | statement => simp_all [Site.IsComplete]
    rw [partsOf, Noted.isComplete_bind, Noted.isComplete_bind]
    exact ⟨hhere, ih h.2, Noted.isComplete_pure _⟩

/-- A block drops nothing if no site of it does. -/
theorem isComplete_blockOf {n : Node}
    (h : ∀ s ∈ blockSites n, s.IsComplete expression statement) :
    (blockOf expression statement n).IsComplete := by
  rw [blockOf, Noted.isComplete_bind]
  exact ⟨isComplete_partsOf h, Noted.isComplete_pure _⟩

/-- A condition drops nothing if nothing that is read there is dropped.  The remark on a condition
    without operand tells of no dropped subtree. -/
theorem isComplete_conditionOf {n : Node}
    (h : ∀ c ∈ (n.child? "condition").toList, (expression c).IsComplete) :
    (conditionOf source expression n).IsComplete := by
  unfold conditionOf
  cases hc : n.child? "condition" with
  | none => exact Noted.isComplete_pure _
  | some c =>
    have hread := h c (by simp [hc])
    by_cases hempty : (expression c).value = [] <;> simp [hempty, hread, Remark.isTooDeep]

/-- A statement step drops nothing if no site that it reads does. -/
theorem isComplete_statementStep {n : Node}
    (h : ∀ s ∈ statementSites n, s.IsComplete expression statement) :
    (statementStep source expression statement n).IsComplete := by
  unfold statementSites at h
  unfold statementStep
  cases hform : StatementForm.ofKind n.kind with
  -- The branch taken is a block, and the other one a statement of its own.
  | ifThen =>
    simp only [hform, List.forall_mem_append, List.forall_mem_map, List.forall_mem_flatMap] at h
    obtain ⟨⟨hcondition, hotherwise⟩, hthen⟩ := h
    simp only [Noted.isComplete_bind, isComplete_readField]
    exact ⟨isComplete_conditionOf source hcondition, hotherwise,
      fun c hc => ⟨isComplete_blockOf (hthen c hc), Noted.isComplete_pure _⟩,
      Noted.isComplete_pure _⟩
  | returnValue => cases hfirst : n.firstContent? <;> simp_all [Site.IsComplete]
  | doWhile | whileLoop =>
    simp only [hform, List.forall_mem_append, List.forall_mem_map] at h
    simp only [Noted.isComplete_bind, isComplete_readField]
    exact ⟨isComplete_conditionOf source h.1, h.2, Noted.isComplete_pure _⟩
  -- The parts of a loop head are each read in full.
  | forLoop =>
    simp only [hform, List.forall_mem_append, List.forall_mem_map] at h
    obtain ⟨⟨⟨hinit, hcondition⟩, hupdate⟩, hbody⟩ := h
    simp only [Noted.isComplete_bind, isComplete_readField, Noted.isComplete_readEach]
    exact ⟨hcondition, hinit, hupdate, hbody, Noted.isComplete_pure _⟩
  | block =>
    simp only [hform] at h
    rw [Noted.isComplete_bind]
    exact ⟨isComplete_blockOf h, Noted.isComplete_pure _⟩
  | tryBlock =>
    simp only [hform, List.forall_mem_map] at h
    simp only [Noted.isComplete_bind, isComplete_readField]
    exact ⟨h, Noted.isComplete_pure _⟩
  -- A type in a body is remarked on, but not for want of budget.
  | typeDecl => simp
  | unsupported =>
    simp only [hform] at h
    have hparts := isComplete_partsOf h
    -- It is left out if it has no parts, and replaced by them otherwise.
    by_cases hempty : (partsOf expression statement PartForm.ofContainedKind
      n.content).value.expressions = [] <;> simp [hempty, hparts]

/-! ## Reads go down -/

/-- What an expression step reads is lower. -/
theorem height_lt_of_mem_expressionReads {n m : Node} (h : m ∈ expressionReads source n) :
    m.height < n.height := by
  rcases exists_child_of_mem_expressionReads source h with hchild | ⟨c, hc, hchild⟩
  · exact Node.height_lt_of_mem_children hchild
  · exact Nat.lt_trans (Node.height_lt_of_mem_children hchild) (Node.height_lt_of_mem_children hc)

/-- The sites at a node of a body are not higher than the node. -/
theorem height_le_of_mem_partSites {form : PartForm} {n : Node} {s : Site}
    (h : s ∈ partSites form n) : s.node.height ≤ n.height := by
  unfold partSites at h
  split at h
  · obtain ⟨c, hc, rfl⟩ := List.mem_map.1 h
    exact Nat.le_of_lt (Node.height_lt_of_firstContent? hc)
  all_goals
    rw [List.mem_singleton] at h
    subst h
    exact Nat.le_refl _

/-- The sites at the content of a node are lower. -/
theorem height_lt_of_mem_contentSites {form : String → PartForm} {n : Node} {s : Site}
    (h : s ∈ n.content.flatMap fun c => partSites (form c.kind) c) : s.node.height < n.height := by
  obtain ⟨c, hc, hs⟩ := List.mem_flatMap.1 h
  exact Nat.lt_of_le_of_lt (height_le_of_mem_partSites hs) (Node.height_lt_of_mem_content hc)

/-- The sites of a block are not higher than the block. -/
theorem height_le_of_mem_blockSites {n : Node} {s : Site} (h : s ∈ blockSites n) :
    s.node.height ≤ n.height := by
  unfold blockSites at h
  split at h
  · exact Nat.le_of_lt (height_lt_of_mem_contentSites h)
  · simp only [List.flatMap_cons, List.flatMap_nil, List.append_nil] at h
    exact height_le_of_mem_partSites h

/-- The sites that a statement step reads are lower. -/
theorem height_lt_of_mem_statementSites {n : Node} {s : Site} (h : s ∈ statementSites n) :
    s.node.height < n.height := by
  -- Most sites are children under a field.
  have hfield : ∀ {field : String} {make : Node → Site}, (∀ c, (make c).node = c) →
      s ∈ (n.child? field).toList.map make → s.node.height < n.height := by
    intro field make hmake hs
    obtain ⟨c, hc, rfl⟩ := List.mem_map.1 hs
    rw [hmake]
    exact Node.height_lt_of_child? hc
  have hfields : ∀ {field : String}, s ∈ (n.childrenAt field).map .expression →
      s.node.height < n.height := by
    intro field hs
    obtain ⟨c, hc, rfl⟩ := List.mem_map.1 hs
    exact Node.height_lt_of_mem_children (Node.mem_children_of_mem_childrenAt hc)
  unfold statementSites at h
  cases hform : StatementForm.ofKind n.kind with
  | ifThen =>
    simp only [hform, List.mem_append] at h
    rcases h with (h | h) | h
    · exact hfield (fun _ => rfl) h
    · exact hfield (fun _ => rfl) h
    · obtain ⟨c, hc, hs⟩ := List.mem_flatMap.1 h
      exact Nat.lt_of_le_of_lt (height_le_of_mem_blockSites hs) (Node.height_lt_of_child? hc)
  | returnValue =>
    simp only [hform] at h
    obtain ⟨c, hc, rfl⟩ := List.mem_map.1 h
    exact Node.height_lt_of_firstContent? hc
  | doWhile | whileLoop =>
    simp only [hform, List.mem_append] at h
    rcases h with h | h <;> exact hfield (fun _ => rfl) h
  | forLoop =>
    simp only [hform, List.mem_append] at h
    rcases h with ((h | h) | h) | h
    · exact hfields h
    · exact hfield (fun _ => rfl) h
    · exact hfields h
    · exact hfield (fun _ => rfl) h
  | block =>
    -- Only a node of this kind is a block statement, so its sites are those of its content.
    have hkind : n.kind = "block" := by
      unfold StatementForm.ofKind at hform
      split at hform
      · exact nomatch hform
      · split at hform <;> simp_all
    simp only [hform] at h
    unfold blockSites at h
    rw [if_pos (by simp [hkind])] at h
    exact height_lt_of_mem_contentSites h
  | tryBlock =>
    simp only [hform] at h
    exact hfield (fun _ => rfl) h
  | typeDecl =>
    simp only [hform] at h
    exact nomatch h
  | unsupported =>
    simp only [hform] at h
    exact height_lt_of_mem_contentSites h

/-! ## Budgets as large as the height -/

/-- A budget larger than the height of an expression drops nothing of it. -/
theorem isComplete_expressionOf {budget : Nat} {n : Node} (h : n.height < budget) :
    (expressionOf source budget n).IsComplete := by
  induction budget generalizing n with
  | zero => exact absurd h (Nat.not_lt_zero _)
  | succ budget ih =>
    rw [expressionOf]
    apply isComplete_expressionStep
    intro m hm
    have hlt := height_lt_of_mem_expressionReads source hm
    exact ih (by omega)

/-- A budget larger than the height of a statement drops nothing of it. -/
theorem isComplete_statementOf {budget : Nat} {n : Node} (h : n.height < budget) :
    (statementOf source budget n).IsComplete := by
  induction budget generalizing n with
  | zero => exact absurd h (Nat.not_lt_zero _)
  | succ budget ih =>
    rw [statementOf]
    apply isComplete_statementStep
    intro s hs
    -- What is read at a site is lower than the statement.
    have hlt : s.node.height < budget := by
      have hlt := height_lt_of_mem_statementSites hs
      omega
    cases s with
    | expression m | condition m => exact isComplete_expressionOf source hlt
    | statement m => exact ih hlt

/-- A budget as large as the height of a method drops nothing of it. -/
theorem isComplete_methodOf {budget : Nat} {n : Node} (h : n.height ≤ budget) :
    (methodOf source budget n).IsComplete := by
  -- The body is lower than the method, and so is everything in it.
  have hbody : (bodyOf source budget n).IsComplete := by
    unfold bodyOf
    cases hchild : n.child? "body" with
    | none => exact Noted.isComplete_pure _
    | some body =>
      have hlt := Node.height_lt_of_mem_children (Node.mem_children_of_child? hchild)
      apply isComplete_partsOf
      intro s hs
      have hle : s.node.height < budget := by
        have hle := height_le_of_mem_blockSites hs
        omega
      cases s with
      | expression m | condition m => exact isComplete_expressionOf source hle
      | statement m => exact isComplete_statementOf source hle
  rw [methodOf_eq]
  cases n.fieldText? source "name" <;> simp [hbody]

mutual

/-- The members of a body drop nothing if its methods and nested declarations do not. -/
theorem isComplete_membersOf {budget : Nat} {declaration : Node → Noted (List TypeDecl)}
    (hdeclaration : ∀ m, m.height < budget → (declaration m).IsComplete) :
    (n : Node) → n.height ≤ budget →
      (membersOf source (methodOf source budget) declaration n).IsComplete
  | ⟨_, _, _, _, _, _, _, _, _, children⟩, h => by
    rw [membersOf]
    rw [Node.height] at h
    exact isComplete_membersIn hdeclaration children h

/-- The members at the nodes of a list drop nothing if methods and nested declarations do not. -/
theorem isComplete_membersIn {budget : Nat} {declaration : Node → Noted (List TypeDecl)}
    (hdeclaration : ∀ m, m.height < budget → (declaration m).IsComplete) :
    (ns : List Node) → Node.heightIn ns ≤ budget →
      (membersIn source (methodOf source budget) declaration ns).IsComplete
  | [], _ => Noted.isComplete_pure _
  | n :: ns, h => by
    rw [Node.heightIn] at h
    have hbody := isComplete_membersOf hdeclaration n (by omega)
    -- The first member is as low as the budget asks for, whatever it declares.
    have hhere : (memberAt source (methodOf source budget) declaration n).IsComplete := by
      have hmethod : (methodOf source budget n).IsComplete := isComplete_methodOf source (by omega)
      have hnested : (declaration n).IsComplete := hdeclaration n (by omega)
      unfold memberAt
      cases n.isContent with
      | false => simp
      | true => cases MemberForm.ofKind n.kind <;> simp [hmethod, hnested, hbody]
    rw [membersIn_cons, Noted.isComplete_bind, Noted.isComplete_bind]
    exact ⟨hhere, isComplete_membersIn hdeclaration ns (by omega), Noted.isComplete_pure _⟩

end

/-- A budget larger than the height of a declaration drops nothing of it. -/
theorem isComplete_declarationOf {budget : Nat} {n : Node} (h : n.height < budget) :
    (declarationOf source budget n).IsComplete := by
  induction budget generalizing n with
  | zero => exact absurd h (Nat.not_lt_zero _)
  | succ budget ih =>
    -- The members are lower than the declaration.
    have hbody : (typeBodyOf source budget n).IsComplete := by
      unfold typeBodyOf
      cases hchild : n.child? "body" with
      | none => exact Noted.isComplete_pure _
      | some body =>
        have hlt := Node.height_lt_of_mem_children (Node.mem_children_of_child? hchild)
        exact isComplete_membersOf source (fun m hm => ih hm) body (by omega)
    rw [declarationOf_succ]
    cases n.fieldText? source "name" <;> simp [hbody]

/-- A budget as large as the height of a syntax tree drops nothing of the file. -/
theorem isComplete_unitOf {budget : Nat} {root : Node} (h : root.height ≤ budget) :
    (unitOf source budget root).IsComplete := by
  -- By induction on the items at the top of the file, which are lower than the file.
  have hall : ∀ ns : List Node, (∀ n ∈ ns, n.height < budget) →
      (topLevelOf source (declarationOf source budget) ns).IsComplete := by
    intro ns hns
    induction ns with
    | nil => exact Noted.isComplete_pure _
    | cons n ns ih =>
      rw [List.forall_mem_cons] at hns
      have hhere : (topLevelAt source (declarationOf source budget) n).IsComplete := by
        have hdeclaration := isComplete_declarationOf source hns.1
        unfold topLevelAt
        cases TopLevelForm.ofKind n.kind <;> simp [hdeclaration]
      rw [topLevelOf_cons, Noted.isComplete_bind, Noted.isComplete_bind]
      exact ⟨hhere, ih hns.2, Noted.isComplete_pure _⟩
  exact hall root.content fun n hn => Nat.lt_of_lt_of_le (Node.height_lt_of_mem_content hn) h

end

/-! ## The log -/

namespace Remark

/-- The message of the warning about nesting. -/
def depthWarning : String := "Nesting too deep, dropping subtree"

/-- A remark becomes a warning about nesting if it tells of a dropped subtree. -/
theorem message_event (maxDepth : Nat) (r : Remark) :
    (r.event maxDepth).message = depthWarning ↔ r.isTooDeep = true := by
  cases r <;> simp [event, depthWarning, isTooDeep]

/-- Without a dropped subtree everything is logged. -/
theorem logged_eq_self {rs : List Remark} (h : ∀ r ∈ rs, r.isTooDeep = false) : logged rs = rs := by
  induction rs with
  | nil => rfl
  | cons r rs ih =>
    rw [List.forall_mem_cons] at h
    rw [logged, h.1, ih h.2]
    rfl

/-- The first dropped subtree is logged. -/
theorem exists_mem_logged {rs : List Remark} {r : Remark} (hr : r ∈ rs) (h : r.isTooDeep = true) :
    ∃ r' ∈ logged rs, r'.isTooDeep = true := by
  induction rs with
  | nil => exact nomatch hr
  | cons first rs ih =>
    rw [logged]
    split
    -- The first remark of its sort is logged.
    · rename_i hfirst
      exact ⟨first, List.mem_cons_self, hfirst⟩
    -- Another remark is logged and the search goes on behind it.
    · rename_i hfirst
      rcases List.mem_cons.1 hr with rfl | hr
      · exact absurd h hfirst
      · obtain ⟨r', hr', hdeep⟩ := ih hr
        exact ⟨r', List.mem_cons_of_mem first hr', hdeep⟩

/-- The budget is named by no remark but those on dropped subtrees. -/
theorem event_congr {r : Remark} (h : r.isTooDeep = false) (maxDepth maxDepth' : Nat) :
    r.event maxDepth = r.event maxDepth' := by
  cases r with
  | tooDeep line => exact nomatch h
  | unsupported category kind line | noOperand kind line => rfl

end Remark

/-- Whether no event is a warning about nesting. -/
def NoDepthWarning (events : List Event) : Prop :=
  ∀ e ∈ events, e.message ≠ Remark.depthWarning

instance (events : List Event) : Decidable (NoDepthWarning events) :=
  inferInstanceAs (Decidable (∀ e ∈ events, e.message ≠ Remark.depthWarning))

section

variable {parser : Parser} {options : ExtractOptions} {source origin : String}
  {result : Noted Outline}

/-- Extraction warns about nesting exactly if a subtree was dropped. -/
theorem isComplete_iff_noDepthWarning :
    result.IsComplete ↔ NoDepthWarning (extractionEvents options origin result) := by
  unfold NoDepthWarning extractionEvents
  rw [List.forall_mem_append, List.forall_mem_map]
  constructor
  · intro h
    refine ⟨fun r hr hmessage => ?_, by simp [Remark.depthWarning]⟩
    -- No remark is of this sort, so all of them are logged and none is the warning.
    rw [Remark.logged_eq_self h] at hr
    exact absurd ((Remark.message_event _ _).1 hmessage) (by simp [h r hr])
  · intro h r hr
    -- A refused node would have been logged.
    by_contra hdeep
    obtain ⟨r', hr', hdeep'⟩ := Remark.exists_mem_logged hr (by simpa using hdeep)
    exact h.1 r' hr' ((Remark.message_event _ _).2 hdeep')

/-- What is logged without the warning does not tell the budget. -/
theorem extractionEvents_congr (h : result.IsComplete) (larger : Nat) :
    extractionEvents { options with maxDepth := larger } origin result =
      extractionEvents options origin result := by
  unfold extractionEvents
  rw [Remark.logged_eq_self h]
  congr 1
  exact List.map_congr_left fun r hr => Remark.event_congr (h r hr) _ _

end

/-- Every source that is parsed without an error is extracted.  If no warning about nesting is logged,
    then with any larger budget the outline, the number of omitted nodes and the log stay the same.
    And a budget as large as the height of the syntax tree gives no warning. -/
theorem depth_warning_exact (parser : Parser) (options : ExtractOptions) (source origin : String)
    (root : Node) (hparse : parser source = some root) (herror : root.hasError = false) :
    ∃ result, extractNoted parser options source origin = .ok result ∧
      (NoDepthWarning (extractEvents parser options source origin) →
        ∀ larger, options.maxDepth ≤ larger →
          ∃ result', extractNoted parser { options with maxDepth := larger } source origin =
              .ok result' ∧
            result'.value = result.value ∧
            Remark.unsupportedCount result'.remarks = Remark.unsupportedCount result.remarks ∧
            extractEvents parser { options with maxDepth := larger } source origin =
              extractEvents parser options source origin) ∧
      (root.height ≤ options.maxDepth →
        NoDepthWarning (extractEvents parser options source origin)) := by
  -- A file without errors is extracted with any budget.
  have hall : ∀ options : ExtractOptions, extractNoted parser options source origin =
      .ok (unitOf (utf8 source) options.maxDepth root) := fun options =>
    extractNoted_eq_ok_iff.2 ⟨root, hparse, herror, rfl⟩
  have hevents : ∀ options : ExtractOptions, extractEvents parser options source origin =
      extractionEvents options origin (unitOf (utf8 source) options.maxDepth root) := by
    intro options
    rw [extractEvents, hall]
  refine ⟨_, hall options, fun hwarning larger hle => ⟨_, hall _, ?_⟩, fun hheight => ?_⟩
  -- Without the warning nothing was refused, so a larger budget changes nothing.
  · rw [hevents, ← isComplete_iff_noDepthWarning] at hwarning
    have hsame := unitOf_eq_of_le (utf8 source) hwarning hle
    rw [hevents, hevents]
    show (unitOf (utf8 source) larger root).value = _ ∧ _ ∧ _
    rw [hsame]
    exact ⟨rfl, rfl, extractionEvents_congr hwarning larger⟩
  -- In a tree that is low enough nothing is refused.
  · rw [hevents, ← isComplete_iff_noDepthWarning]
    exact isComplete_unitOf (utf8 source) hheight

/-- The call inside a call of `nestedCallSource` is dropped with a warning at a budget of two.  At
    its height, nine, nothing is, and a tenth level changes nothing. -/
theorem depth_warning_exact_nestedCall :
    let parser : Parser := fun _ => some nestedCallTree
    let events (depth : Nat) := extractEvents parser { maxDepth := depth } nestedCallSource "A.java"
    nestedCallTree.height = 9 ∧ ¬ NoDepthWarning (events 2) ∧ NoDepthWarning (events 9) ∧
      events 10 = events 9 := by
  obtain ⟨_, -, hsame, hheight⟩ := depth_warning_exact (fun _ => some nestedCallTree)
    { maxDepth := 9 } nestedCallSource "A.java" nestedCallTree rfl rfl
  have hnone := hheight (by decide)
  obtain ⟨_, -, -, -, hevents⟩ := hsame hnone 10 (by decide)
  exact ⟨by decide, by decide, hnone, hevents⟩

end JavaOutline

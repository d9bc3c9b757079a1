import JavaOutline.Proofs.Normalize.Operands
import JavaOutline.Proofs.Normalize.Provenance

/-!
# Raising the budget

A normalization that drops no subtree does not see its budget: with any larger budget it gives the
same result and makes the same remarks.  Every step depends only on the nodes that it reads, so this
passes from expressions to statements, members, declarations and whole files.

## Key results

- `statementStep_congr`: a statement step depends on the sites that it reads and on no others
- `statementOf_eq_of_le`, `declarationOf_eq_of_le`: a budget at which nothing is dropped can be raised
- `unitOf_eq_of_le`: the same for the syntax tree of a file
-/

namespace JavaOutline

open Syntax (Node)

/-! ## Statement steps -/

section

variable {expression expression' : Node → Noted (List Expression)}
  {statement statement' : Node → Noted (List Statement)}

/-- Whether two ways of reading agree at a site. -/
def Site.Agree (expression expression' : Node → Noted (List Expression))
    (statement statement' : Node → Noted (List Statement)) : Site → Prop
  | .expression n | .condition n => expression n = expression' n
  | .statement n => statement n = statement' n

/-- A part of a body depends on its sites only. -/
theorem partOf_congr {form : PartForm} {n : Node}
    (h : ∀ s ∈ partSites form n, s.Agree expression expression' statement statement') :
    partOf expression statement form n = partOf expression' statement' form n := by
  unfold partSites at h
  unfold partOf
  cases form with
  -- The sites of a part are the nodes that it reads, so both readers agree there.
  | expressionStatement =>
    cases hfirst : n.firstContent? with
    | none => rfl
    | some inner =>
      have hinner : expression inner = expression' inner := h (.expression inner) (by simp [hfirst])
      simp only [hinner]
  | localVariable | expression =>
    have hn : expression n = expression' n := h (.expression n) (by simp)
    simp only [hn]
  | statement =>
    have hn : statement n = statement' n := h (.statement n) (by simp)
    simp only [hn]

/-- The parts of a body depend on its sites only. -/
theorem partsOf_congr {form : String → PartForm} {ns : List Node}
    (h : ∀ s ∈ ns.flatMap fun c => partSites (form c.kind) c,
      s.Agree expression expression' statement statement') :
    partsOf expression statement form ns = partsOf expression' statement' form ns := by
  induction ns with
  | nil => rfl
  | cons n ns ih =>
    rw [List.flatMap_cons, List.forall_mem_append] at h
    rw [partsOf, partsOf, partOf_congr h.1, ih h.2]

/-- The parts of a block depend on its sites only. -/
theorem blockParts_congr {n : Node}
    (h : ∀ s ∈ blockSites n, s.Agree expression expression' statement statement') :
    blockParts expression statement n = blockParts expression' statement' n :=
  partsOf_congr h

/-- The same for the block as one statement. -/
theorem blockOf_congr {n : Node}
    (h : ∀ s ∈ blockSites n, s.Agree expression expression' statement statement') :
    blockOf expression statement n = blockOf expression' statement' n := by
  rw [blockOf, blockOf, blockParts_congr h]

variable (source : Bytes)

/-- A condition depends on what is read there. -/
theorem conditionOf_congr {n : Node}
    (h : ∀ c ∈ (n.child? "condition").toList, expression c = expression' c) :
    conditionOf source expression n = conditionOf source expression' n := by
  unfold conditionOf
  cases hc : n.child? "condition" with
  | none => rfl
  | some c => simp only [h c (by simp [hc])]

/-- A statement step depends on the sites that it reads and on no others. -/
theorem statementStep_congr {n : Node}
    (h : ∀ s ∈ statementSites n, s.Agree expression expression' statement statement') :
    statementStep source expression statement n =
      statementStep source expression' statement' n := by
  unfold statementSites at h
  unfold statementStep
  -- Each form reads at its own sites, and there the two readers agree.
  cases hform : StatementForm.ofKind n.kind with
  | ifThen =>
    simp only [hform, List.forall_mem_append, List.forall_mem_map, List.forall_mem_flatMap] at h
    obtain ⟨⟨hcondition, hotherwise⟩, hthen⟩ := h
    -- The branch is read as a block, so the readers agree on what is in it.
    have hconsequence : readField (fun c => do return [← blockOf expression statement c]) n
          "consequence" =
        readField (fun c => do return [← blockOf expression' statement' c]) n "consequence" :=
      readField_congr fun c hc => by rw [blockOf_congr (hthen c hc)]
    simp only [conditionOf_congr source hcondition, readField_congr hotherwise, hconsequence]
  -- Only the first expression is read.
  | returnValue =>
    cases hfirst : n.firstContent? with
    | none => rfl
    | some value =>
      have hvalue : expression value = expression' value :=
        h (.expression value) (by simp [hform, hfirst])
      simp only [hvalue]
  | doWhile | whileLoop =>
    simp only [hform, List.forall_mem_append, List.forall_mem_map] at h
    simp only [conditionOf_congr source h.1, readField_congr h.2]
  | forLoop =>
    simp only [hform, List.forall_mem_append, List.forall_mem_map] at h
    obtain ⟨⟨⟨hinit, hcondition⟩, hupdate⟩, hbody⟩ := h
    simp only [readEach_congr hinit, readField_congr hcondition, readEach_congr hupdate,
      readField_congr hbody]
  | block =>
    simp only [hform] at h
    simp only [blockOf_congr h]
  | tryBlock =>
    simp only [hform, List.forall_mem_map] at h
    simp only [readField_congr h]
  -- A type in a body is not read at all.
  | typeDecl => rfl
  | unsupported =>
    simp only [hform] at h
    simp only [partsOf_congr h]

end

section

variable (source : Bytes) {budget larger : Nat}

/-! ## Method bodies -/

/-- What agrees at a site where nothing is dropped. -/
theorem Site.agree_of_isComplete {s : Site}
    (hexpression : ∀ n, (expressionOf source budget n).IsComplete →
      expressionOf source larger n = expressionOf source budget n)
    (hstatement : ∀ n, (statementOf source budget n).IsComplete →
      statementOf source larger n = statementOf source budget n)
    (h : s.IsComplete (expressionOf source budget) (statementOf source budget)) :
    s.Agree (expressionOf source larger) (expressionOf source budget) (statementOf source larger)
      (statementOf source budget) := by
  cases s with
  | expression n | condition n => exact hexpression n h
  | statement n => exact hstatement n h

/-- A budget at which nothing is dropped can be raised without any effect. -/
theorem statementOf_eq_of_le {n : Node} (h : (statementOf source budget n).IsComplete)
    (hle : budget ≤ larger) : statementOf source larger n = statementOf source budget n := by
  induction budget generalizing n larger with
  -- Without budget nothing is complete.
  | zero => exact absurd h (not_isComplete_refuse source n)
  | succ budget ih =>
    obtain ⟨larger, rfl⟩ : ∃ k, larger = k + 1 := ⟨larger - 1, by omega⟩
    rw [statementOf, statementOf]
    apply statementStep_congr
    intro s hs
    -- A complete statement is complete at all of its sites.
    have hsite := isComplete_of_statementStep source _ _ h s hs
    exact Site.agree_of_isComplete source
      (fun m hm => expressionOf_eq_of_le source hm (by omega)) (fun m hm => ih hm (by omega)) hsite

/-- The body of a method from which nothing is dropped. -/
theorem bodyOf_eq_of_le {n : Node} (h : (bodyOf source budget n).IsComplete)
    (hle : budget ≤ larger) : bodyOf source larger n = bodyOf source budget n := by
  unfold bodyOf at h ⊢
  cases hbody : n.child? "body" with
  | none => rfl
  | some body =>
    simp only [hbody] at h ⊢
    -- The parts of a body are complete at their sites, so a larger budget reads the same there.
    apply blockParts_congr
    intro s hs
    have hsite := isComplete_of_partsOf _ _ h s hs
    exact Site.agree_of_isComplete source (fun m hm => expressionOf_eq_of_le source hm hle)
      (fun m hm => statementOf_eq_of_le source hm hle) hsite

/-! ## Methods and members -/

/-- A method that is made of its parts and its body. -/
theorem methodOf_eq (budget : Nat) (n : Node) :
    methodOf source budget n =
      match n.fieldText? source "name" with
      | some name => do
        let body ← bodyOf source budget n
        return [{ name := name
                  returnType := ⟨(n.fieldText? source "type").getD "" ++
                    (n.fieldText? source "dimensions").getD "", .other⟩
                  modifiers := modifiersOf source n
                  arguments := parametersOf source n
                  bodyContent := body.expressions
                  statements := body.statements }]
      | none => do
        n.leaveOut source .member
        return [] := by
  unfold methodOf methodStep bodyOf
  cases n.fieldText? source "name" with
  | none => rfl
  | some name => cases n.child? "body" <;> rfl

/-- A method from whose body nothing is dropped. -/
theorem methodOf_eq_of_le {n : Node} (h : (methodOf source budget n).IsComplete)
    (hle : budget ≤ larger) : methodOf source larger n = methodOf source budget n := by
  rw [methodOf_eq] at h
  rw [methodOf_eq, methodOf_eq]
  split at h
  · rw [bodyOf_eq_of_le source ((Noted.isComplete_bind _ _).1 h).1 hle]
  · rfl

section

variable {declaration declaration' : Node → Noted (List TypeDecl)}

/-- The members at a node from which nothing is dropped, if it is so inside the body of an enum. -/
theorem memberAt_eq_of_le {n : Node} (hle : budget ≤ larger)
    (hdeclaration : ∀ m, (declaration m).IsComplete → declaration' m = declaration m)
    (hbody : (membersOf source (methodOf source budget) declaration n).IsComplete →
      membersOf source (methodOf source larger) declaration' n =
        membersOf source (methodOf source budget) declaration n)
    (h : (memberAt source (methodOf source budget) declaration n).IsComplete) :
    memberAt source (methodOf source larger) declaration' n =
      memberAt source (methodOf source budget) declaration n := by
  unfold memberAt at h ⊢
  split
  · rename_i hcontent
    cases hform : MemberForm.ofKind n.kind with
    -- Methods and types need a budget, and so does what stands in an enum body.
    | method =>
      simp only [hcontent, hform, if_true, Noted.isComplete_map] at h
      simp only [methodOf_eq_of_le source h hle]
    | enumBody =>
      simp only [hcontent, hform, if_true] at h
      exact hbody h
    | typeDecl =>
      simp only [hcontent, hform, if_true, Noted.isComplete_map] at h
      simp only [hdeclaration n h]
    -- The other members are read without one.
    | field | enumConstant | unsupported => rfl
  · rfl

mutual

/-- The members of a body from which nothing is dropped. -/
theorem membersOf_eq_of_le (hle : budget ≤ larger)
    (hdeclaration : ∀ m, (declaration m).IsComplete → declaration' m = declaration m) :
    (n : Node) → (membersOf source (methodOf source budget) declaration n).IsComplete →
      membersOf source (methodOf source larger) declaration' n =
        membersOf source (methodOf source budget) declaration n
  | ⟨_, _, _, _, _, _, _, _, _, children⟩, h => by
    rw [membersOf] at h ⊢
    rw [membersOf]
    exact membersIn_eq_of_le hle hdeclaration children h

/-- The members at the nodes of a list from which nothing is dropped. -/
theorem membersIn_eq_of_le (hle : budget ≤ larger)
    (hdeclaration : ∀ m, (declaration m).IsComplete → declaration' m = declaration m) :
    (ns : List Node) → (membersIn source (methodOf source budget) declaration ns).IsComplete →
      membersIn source (methodOf source larger) declaration' ns =
        membersIn source (methodOf source budget) declaration ns
  | [], _ => rfl
  | n :: ns, h => by
    rw [membersIn_cons, Noted.isComplete_bind, Noted.isComplete_bind] at h
    rw [membersIn_cons, membersIn_cons,
      memberAt_eq_of_le source hle hdeclaration (membersOf_eq_of_le hle hdeclaration n) h.1,
      membersIn_eq_of_le hle hdeclaration ns h.2.1]

end

end

/-! ## Declarations and files -/

/-- The members of the body of a type; a type without a body has none. -/
def typeBodyOf (budget : Nat) (n : Node) : Noted Members :=
  match n.child? "body" with
  | some body => membersOf source (methodOf source budget) (declarationOf source budget) body
  | none => pure {}

/-- A declaration is made of its parts and its body. -/
theorem declarationOf_succ (budget : Nat) (n : Node) :
    declarationOf source (budget + 1) n =
      match n.fieldText? source "name" with
      | some name => do
        let members ← typeBodyOf source budget n
        return [{ name := name
                  kind := (DeclShape.of n).kind
                  modifiers := modifiersOf source n
                  fields := members.fields
                  methods := members.methods
                  nested := members.nested }]
      | none => do
        n.leaveOut source .declaration
        return [] := by
  rw [declarationOf]
  unfold declarationStep typeBodyOf
  cases n.fieldText? source "name" with
  | none => rfl
  | some name => cases n.child? "body" <;> rfl

/-- A budget at which nothing is dropped from a declaration can be raised. -/
theorem declarationOf_eq_of_le {n : Node} (h : (declarationOf source budget n).IsComplete)
    (hle : budget ≤ larger) : declarationOf source larger n = declarationOf source budget n := by
  induction budget generalizing n larger with
  | zero => exact absurd h (not_isComplete_refuse source n)
  | succ budget ih =>
    obtain ⟨larger, rfl⟩ : ∃ k, larger = k + 1 := ⟨larger - 1, by omega⟩
    rw [declarationOf_succ] at h
    rw [declarationOf_succ, declarationOf_succ]
    split at h
    · -- The body is read with one level less on both sides.
      have hbody : typeBodyOf source larger n = typeBodyOf source budget n := by
        replace h := ((Noted.isComplete_bind _ _).1 h).1
        unfold typeBodyOf at h ⊢
        cases hchild : n.child? "body" with
        | none => rfl
        | some body =>
          simp only [hchild] at h ⊢
          exact membersOf_eq_of_le source (by omega) (fun m hm => ih hm (by omega)) body h
      rw [hbody]
    · rfl

/-- A budget at which nothing is dropped at the top of a file can be raised. -/
theorem topLevelOf_eq_of_le {ns : List Node}
    (h : (topLevelOf source (declarationOf source budget) ns).IsComplete) (hle : budget ≤ larger) :
    topLevelOf source (declarationOf source larger) ns =
      topLevelOf source (declarationOf source budget) ns := by
  induction ns with
  | nil => rfl
  | cons n ns ih =>
    rw [topLevelOf_cons, Noted.isComplete_bind, Noted.isComplete_bind] at h
    -- The first item is complete, and of the items only types need a budget.
    have hhere : topLevelAt source (declarationOf source larger) n =
        topLevelAt source (declarationOf source budget) n := by
      replace h := h.1
      unfold topLevelAt at h ⊢
      cases hform : TopLevelForm.ofKind n.kind with
      | typeDecl =>
        simp only [hform, Noted.isComplete_map] at h
        simp only [declarationOf_eq_of_le source h hle]
      | importName | package | unsupported => rfl
    rw [topLevelOf_cons, topLevelOf_cons, hhere, ih h.2.1]

/-- A budget at which nothing is dropped from a file can be raised. -/
theorem unitOf_eq_of_le {root : Node} (h : (unitOf source budget root).IsComplete)
    (hle : budget ≤ larger) : unitOf source larger root = unitOf source budget root :=
  topLevelOf_eq_of_le source h hle

end

end JavaOutline

import JavaOutline.Proofs.Extraction
import JavaOutline.Proofs.Normalize.Budget
import JavaOutline.Proofs.Syntax.Comments

/-!
# Comments never matter

Whatever normalization reads of a node it also reads of the node without its comments.  This is shown
once for each reader, in the order in which they build on each other: modifiers and declarators,
expressions, statements, members, declarations, files and imports.  Two trees that differ in comments
only have the same tree without comments, so the same is extracted from both.

## Key results

- `expressionOf_uncommented`, `statementOf_uncommented`: method bodies without their comments
- `unitOf_uncommented`, `importsOf_uncommented`: files without their comments
- `extraction_eq_of_sheds`: deleting comments changes no answer of an extraction
-/

namespace JavaOutline

open Syntax (Node)
open Syntax.Node

section

variable (source : Bytes)

/-! ## Signatures -/

@[simp] theorem annotationArgument_uncommented (n : Node) :
    annotationArgument source n.uncommented = annotationArgument source n := by
  simp [annotationArgument]

@[simp] theorem annotationOf_uncommented (n : Node) :
    annotationOf source n.uncommented = annotationOf source n := by
  cases h : n.child? "arguments" <;> simp [annotationOf, h, Function.comp_def]

@[simp] theorem modifierOf_uncommented (n : Node) :
    modifierOf source n.uncommented = modifierOf source n := by
  simp [modifierOf]

/-- A comment is neither the list of modifiers nor a modifier in it. -/
@[simp] theorem modifiersOf_uncommented (n : Node) :
    modifiersOf source n.uncommented = modifiersOf source n := by
  have hskips : Skips (·.kind == "modifiers") := .kind (by decide)
  unfold modifiersOf
  rw [children_uncommented, hskips.find?_uncommentedIn]
  cases n.children.find? (·.kind == "modifiers") with
  | none => rfl
  | some list =>
    simp only [Option.map_some, children_uncommented, Skips.not_isExtra.filter_uncommentedIn]
    simp [Function.comp_def]

@[simp] theorem declaratorOf?_uncommented (type : String) (n : Node) :
    declaratorOf? source type n.uncommented = declaratorOf? source type n := by
  simp [declaratorOf?]

@[simp] theorem declaratorsOf_uncommented (n : Node) :
    declaratorsOf source n.uncommented = declaratorsOf source n := by
  simp [declaratorsOf, List.filterMap_map]

@[simp] theorem spreadParameterOf?_uncommented (n : Node) :
    spreadParameterOf? source n.uncommented = spreadParameterOf? source n := by
  simp only [spreadParameterOf?, content_uncommented, List.find?_map, Option.bind_eq_bind,
    Option.bind_map, Function.comp_def, kind_uncommented, text_uncommented, modifiersOf_uncommented,
    fieldText?_uncommented, ne_eq, String.reduceEq, not_false_eq_true]

@[simp] theorem parameterOf?_uncommented (n : Node) :
    parameterOf? source n.uncommented = parameterOf? source n := by
  simp [parameterOf?]

@[simp] theorem parametersOf_uncommented (n : Node) :
    parametersOf source n.uncommented = parametersOf source n := by
  cases h : n.child? "parameters" <;> simp [parametersOf, h, List.filterMap_map]

@[simp] theorem fieldsOf_uncommented (n : Node) :
    fieldsOf source n.uncommented = fieldsOf source n := by
  simp [fieldsOf]

@[simp] theorem DeclShape.of_uncommented (n : Node) :
    DeclShape.of n.uncommented = DeclShape.of n := by
  simp [DeclShape.of]

@[simp] theorem leaveOut_uncommented (category : Category) (n : Node) :
    n.uncommented.leaveOut source category = n.leaveOut source category := by
  simp [leaveOut]

/-! ## Expressions -/

@[simp] theorem refuse_uncommented {α : Type} (n : Node) :
    (refuse source n.uncommented : Noted (List α)) = refuse source n := by
  simp [refuse]

@[simp] theorem leaveOutExpression_uncommented (n : Node) :
    leaveOutExpression source n.uncommented = leaveOutExpression source n := by
  simp [leaveOutExpression]

@[simp] theorem callName?_uncommented (n : Node) :
    callName? source n.uncommented = callName? source n := by
  simp [callName?]

@[simp] theorem pairExpression_uncommented (make : String → String → Expression) (n : Node)
    {first second : String} (hfirst : first ≠ "") (hsecond : second ≠ "") :
    pairExpression source make n.uncommented first second =
      pairExpression source make n first second := by
  simp [pairExpression, hfirst, hsecond]

@[simp] theorem creationOf_uncommented (n : Node) :
    creationOf source n.uncommented = creationOf source n := by
  cases h : n.child? "arguments" <;> simp [creationOf, h, Function.comp_def]

@[simp] theorem localVariablesOf_uncommented (n : Node) :
    localVariablesOf source n.uncommented = localVariablesOf source n := by
  simp [localVariablesOf]

section

variable {α : Type} {read : Node → Noted (List α)} (hread : ∀ n, read n.uncommented = read n)
include hread

theorem readField_uncommented (n : Node) {field : String} (h : field ≠ "") :
    readField read n.uncommented field = readField read n field := by
  cases hchild : n.child? field <;> simp [readField, h, hchild, hread]

theorem flatMap_uncommented (ns : List Node) :
    readEach read (ns.map uncommented) = readEach read ns := by
  induction ns with
  | nil => rfl
  | cons n ns ih => rw [List.map_cons, readEach, readEach, hread, ih]

end

/-- An expression step ignores comments if the steps below it do. -/
theorem expressionStep_uncommented {inner : Node → Noted (List Expression)}
    (hinner : ∀ n, inner n.uncommented = inner n) (n : Node) :
    expressionStep source inner n.uncommented = expressionStep source inner n := by
  unfold expressionStep
  rw [kind_uncommented]
  -- The form is told by the kind, which stays; the parts are read without their comments.
  cases ExpressionForm.ofKind n.kind with
  | wrapper => cases h : n.firstContent? <;> simp [h, hinner]
  | call =>
    cases h : n.child? "arguments" <;> simp [h, flatMap_uncommented hinner]
  | binary | assignment => simp [readField_uncommented hinner]
  | unsupported => simp [flatMap_uncommented hinner]
  | literal | name | fieldAccess | arrayAccess | creation | localVariable | typeDecl => simp

/-- The expressions at a node do not depend on comments below it. -/
@[simp] theorem expressionOf_uncommented (budget : Nat) (n : Node) :
    expressionOf source budget n.uncommented = expressionOf source budget n := by
  induction budget generalizing n with
  | zero => exact refuse_uncommented source n
  | succ budget ih => exact expressionStep_uncommented source ih n

/-! ## Statements -/

section

variable {expression : Node → Noted (List Expression)} {statement : Node → Noted (List Statement)}
  (hexpression : ∀ n, expression n.uncommented = expression n)
  (hstatement : ∀ n, statement n.uncommented = statement n)
include hexpression hstatement

theorem partOf_uncommented (form : PartForm) (n : Node) :
    partOf expression statement form n.uncommented = partOf expression statement form n := by
  cases form with
  | expressionStatement => cases h : n.firstContent? <;> simp [partOf, h, hexpression]
  | localVariable | expression => simp [partOf, hexpression]
  | statement => simp [partOf, hstatement]

theorem partsOf_uncommented (form : String → PartForm) (ns : List Node) :
    partsOf expression statement form (ns.map uncommented) =
      partsOf expression statement form ns := by
  induction ns with
  | nil => rfl
  | cons n ns ih =>
    rw [List.map_cons, partsOf, partsOf, kind_uncommented, ih,
      partOf_uncommented hexpression hstatement]

theorem blockParts_uncommented (n : Node) :
    blockParts expression statement n.uncommented = blockParts expression statement n := by
  unfold blockParts
  rw [kind_uncommented, content_uncommented]
  split
  · exact partsOf_uncommented hexpression hstatement _ n.content
  · exact partsOf_uncommented hexpression hstatement _ [n]

theorem blockOf_uncommented (n : Node) :
    blockOf expression statement n.uncommented = blockOf expression statement n := by
  rw [blockOf, blockOf, blockParts_uncommented hexpression hstatement]

omit hstatement in
theorem conditionOf_uncommented (n : Node) :
    conditionOf source expression n.uncommented = conditionOf source expression n := by
  cases h : n.child? "condition" <;> simp [conditionOf, h, hexpression]

/-- A statement step ignores comments if the steps below it do. -/
theorem statementStep_uncommented (n : Node) :
    statementStep source expression statement n.uncommented =
      statementStep source expression statement n := by
  unfold statementStep
  rw [kind_uncommented]
  cases StatementForm.ofKind n.kind with
  | ifThen =>
    -- The branch is a block, and its parts are the same without comments.
    have hconsequence : readField (fun c => do return [← blockOf expression statement c])
          n.uncommented "consequence" =
        readField (fun c => do return [← blockOf expression statement c]) n "consequence" :=
      readField_uncommented (fun c => by rw [blockOf_uncommented hexpression hstatement]) n
        (by decide)
    rw [hconsequence]
    simp [conditionOf_uncommented source hexpression, readField_uncommented hstatement]
  | returnValue => cases h : n.firstContent? <;> simp [h, hexpression]
  | doWhile | whileLoop =>
    simp [conditionOf_uncommented source hexpression, readField_uncommented hstatement]
  | forLoop =>
    simp [readField_uncommented hexpression, readField_uncommented hstatement,
      flatMap_uncommented hexpression]
  | block => simp [blockOf_uncommented hexpression hstatement]
  | tryBlock => simp [readField_uncommented hstatement]
  | typeDecl => simp
  | unsupported => simp [partsOf_uncommented hexpression hstatement]

end

/-- The statements at a node do not depend on comments below it. -/
@[simp] theorem statementOf_uncommented (budget : Nat) (n : Node) :
    statementOf source budget n.uncommented = statementOf source budget n := by
  induction budget generalizing n with
  | zero => exact refuse_uncommented source n
  | succ budget ih =>
    exact statementStep_uncommented source (expressionOf_uncommented source budget) ih n

/-! ## Methods and members -/

@[simp] theorem bodyOf_uncommented (budget : Nat) (n : Node) :
    bodyOf source budget n.uncommented = bodyOf source budget n := by
  have hparts := blockParts_uncommented (expressionOf_uncommented source budget)
    (statementOf_uncommented source budget)
  cases h : n.child? "body" <;> simp [bodyOf, h, hparts]

@[simp] theorem methodOf_uncommented (budget : Nat) (n : Node) :
    methodOf source budget n.uncommented = methodOf source budget n := by
  simp [methodOf_eq]

section

variable {declaration : Node → Noted (List TypeDecl)} (budget : Nat)

/-- A member whose body ignores comments, as a declaration does. -/
theorem memberAt_uncommented (hdeclaration : ∀ n, declaration n.uncommented = declaration n)
    {n : Node} (hbody : membersOf source (methodOf source budget) declaration n.uncommented =
      membersOf source (methodOf source budget) declaration n) :
    memberAt source (methodOf source budget) declaration n.uncommented =
      memberAt source (methodOf source budget) declaration n := by
  simp [memberAt, hdeclaration, hbody]

mutual

/-- The members of a body do not depend on comments in it. -/
theorem membersOf_uncommented (hdeclaration : ∀ n, declaration n.uncommented = declaration n) :
    (n : Node) → membersOf source (methodOf source budget) declaration n.uncommented =
      membersOf source (methodOf source budget) declaration n
  | ⟨_, _, _, _, _, _, _, _, _, children⟩ => by
    rw [uncommented, membersOf, membersOf]
    exact membersIn_uncommentedIn hdeclaration children

/-- Nor do the members at the nodes of a list depend on comments among them. -/
theorem membersIn_uncommentedIn (hdeclaration : ∀ n, declaration n.uncommented = declaration n) :
    (ns : List Node) → membersIn source (methodOf source budget) declaration (uncommentedIn ns) =
      membersIn source (methodOf source budget) declaration ns
  | [] => rfl
  | n :: ns => by
    rw [uncommentedIn, membersIn_cons, ← membersIn_uncommentedIn hdeclaration ns]
    cases hcomment : n.isComment with
    | true =>
      -- A comment is no content, and there are no members at it.
      have hnone : memberAt source (methodOf source budget) declaration n = pure {} := by
        rw [memberAt, Skips.isContent.isComment n hcomment]
        rfl
      simp [hnone, Members.append]
    | false =>
      have hhere := memberAt_uncommented source budget hdeclaration
        (membersOf_uncommented hdeclaration n)
      rw [if_neg Bool.false_ne_true, membersIn_cons, hhere]

end

end

/-! ## Declarations and files -/

/-- The declaration at a node does not depend on comments below it. -/
@[simp] theorem declarationOf_uncommented (budget : Nat) (n : Node) :
    declarationOf source budget n.uncommented = declarationOf source budget n := by
  induction budget generalizing n with
  | zero => exact refuse_uncommented source n
  | succ budget ih =>
    have hbody : typeBodyOf source budget n.uncommented = typeBodyOf source budget n := by
      cases h : n.child? "body" <;> simp [typeBodyOf, h, membersOf_uncommented source budget ih]
    simp [declarationOf_succ, hbody]

@[simp] theorem importName?_uncommented (n : Node) :
    importName? source n.uncommented = importName? source n := by
  simp only [importName?, content_uncommented, List.find?_map, Option.bind_eq_bind, Option.bind_map,
    Function.comp_def, kind_uncommented, text?_uncommented]

@[simp] theorem topLevelAt_uncommented (budget : Nat) (n : Node) :
    topLevelAt source (declarationOf source budget) n.uncommented =
      topLevelAt source (declarationOf source budget) n := by
  simp [topLevelAt]

theorem topLevelOf_uncommented (budget : Nat) (ns : List Node) :
    topLevelOf source (declarationOf source budget) (ns.map uncommented) =
      topLevelOf source (declarationOf source budget) ns := by
  induction ns with
  | nil => rfl
  | cons n ns ih =>
    rw [List.map_cons, topLevelOf_cons, topLevelOf_cons, topLevelAt_uncommented, ih]

/-- The outline of a file and the remarks on it do not depend on comments. -/
theorem unitOf_uncommented (budget : Nat) (root : Node) :
    unitOf source budget root.uncommented = unitOf source budget root := by
  rw [unitOf, unitOf, content_uncommented, topLevelOf_uncommented]

/-! ## Imports -/

mutual

/-- The imports of a file do not depend on comments. -/
theorem importsOf_uncommented :
    (n : Node) → importsOf source n.uncommented = importsOf source n
  | ⟨_, _, _, _, _, _, _, _, _, children⟩ => by
    rw [uncommented, importsOf, importsOf]
    exact importsIn_uncommentedIn children

/-- Nor do the imports among the nodes of a list. -/
theorem importsIn_uncommentedIn :
    (ns : List Node) → importsIn source (uncommentedIn ns) = importsIn source ns
  | [] => rfl
  | n :: ns => by
    rw [uncommentedIn, importsIn, ← importsIn_uncommentedIn ns]
    cases hcomment : n.isComment with
    | true => simp [Skips.isContent.isComment n hcomment]
    | false =>
      rw [if_neg Bool.false_ne_true, importsIn]
      simp [importsOf_uncommented n]

end

end

/-! ## Extraction -/

/-- Deleting comments from the tree of a source without an error changes nothing about its outline,
    the remarks and events of its extraction, and whether it is benchmark code. -/
theorem extraction_eq_of_sheds {parser parser' : Parser} {source : String} {root root' : Node}
    (hroot : parser source = some root) (hroot' : parser' source = some root')
    (hsheds : root.Sheds root') (herror : root.hasError = false) (options : ExtractOptions)
    (origin : String) :
    extractNoted parser' options source origin = extractNoted parser options source origin ∧
    extractSource parser' options source origin = extractSource parser options source origin ∧
    extractEvents parser' options source origin = extractEvents parser options source origin ∧
    isCandidate parser' options source origin = isCandidate parser options source origin := by
  -- Both trees are the same once all their comments are deleted.
  have hunit : unitOf (utf8 source) options.maxDepth root' =
      unitOf (utf8 source) options.maxDepth root := by
    rw [← unitOf_uncommented, hsheds.uncommented_eq, unitOf_uncommented]
  have himports : importsOf (utf8 source) root' = importsOf (utf8 source) root := by
    rw [← importsOf_uncommented, hsheds.uncommented_eq, importsOf_uncommented]
  -- Deleting comments does not touch the root itself.
  have herror' : root'.hasError = false := by
    cases hsheds
    exact herror
  have hnoted : extractNoted parser' options source origin =
      extractNoted parser options source origin := by
    rw [extractNoted_eq_ok_iff.2 ⟨root', hroot', herror', rfl⟩,
      extractNoted_eq_ok_iff.2 ⟨root, hroot, herror, rfl⟩, hunit]
  have hcandidate : isCandidate parser' options source origin =
      isCandidate parser options source origin := by
    rw [isCandidate_eq_ok_iff.2 ⟨root', hroot', rfl⟩, isCandidate_eq_ok_iff.2 ⟨root, hroot, rfl⟩,
      himports]
  refine ⟨hnoted, ?_, ?_, hcandidate⟩
  · rw [extractSource, extractSource, hnoted]
  · rw [extractEvents, extractEvents, hnoted]

/-- The tree of `import /*jmh*/ a;`, or of what is left of it, with these nodes in the place of the
    comment. -/
def importTreeWith (comments : List Node) : Node :=
  { kind := "program", stop := 17, isNamed := true
    children := [
      { kind := "import_declaration", stop := 17, isNamed := true
        children := { kind := "import", stop := 6 } :: comments ++ [
          { kind := "identifier", start := 15, stop := 16, isNamed := true },
          { kind := ";", start := 16, stop := 17 }] }] }

/-- A comment inside an import that mentions the marker is not part of the imported name. -/
theorem extraction_eq_of_sheds_import :
    let comment : Node :=
      { kind := "block_comment", start := 7, stop := 14, isNamed := true, isExtra := true }
    let treeOf (comments : List Node) : Parser := fun _ => some (importTreeWith comments)
    (importTreeWith [comment]).Sheds (importTreeWith []) ∧
    extractSource (treeOf []) {} "import /*jmh*/ a;" "A.java" =
      extractSource (treeOf [comment]) {} "import /*jmh*/ a;" "A.java" ∧
    isCandidate (treeOf []) {} "import /*jmh*/ a;" "A.java" =
      isCandidate (treeOf [comment]) {} "import /*jmh*/ a;" "A.java" ∧
    isCandidate (treeOf [comment]) {} "import /*jmh*/ a;" "A.java" = .ok false := by
  intro comment treeOf
  have hroot (cs : List Node) : treeOf cs "import /*jmh*/ a;" = some (importTreeWith cs) := rfl
  -- The comment stands in the import, so the import is kept without it.
  have hsheds : (importTreeWith [comment]).Sheds (importTreeWith []) :=
    .node (.keep (.node (.keep (.refl _) (.delete (by decide) (.refl _)))) .nil)
  obtain ⟨-, hsource, -, hcandidate⟩ :=
    extraction_eq_of_sheds (hroot [comment]) (hroot []) hsheds rfl {} "A.java"
  exact ⟨hsheds, hsource, hcandidate, by decide⟩

end JavaOutline

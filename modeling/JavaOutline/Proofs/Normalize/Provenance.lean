import JavaOutline.Normalize.Unit
import JavaOutline.Outline.Query
import JavaOutline.Proofs.Syntax.Preorder

/-!
# Where the members of an outline come from

Every method of an outline is what `methodOf` makes of one node of the syntax tree, and every field
is read from one node.  So a property of all fields and methods of an outline follows from the same
property of `fieldsOf` and `methodOf`, whatever way leads to the declarations that hold them.

## Key results

- `readFrom_membersOf`: the members of a body come from nodes of the body
- `readFrom_declarationOf`: the members of a declaration come from nodes of the declaration
- `readFrom_unitOf`: the members of a file come from nodes of the file
-/

namespace JavaOutline

open Syntax (Node)

section

variable (source : Bytes)

/-- A declaration whose fields and methods come from the nodes of a list; what was left out of the
    methods is among the remarks. -/
structure TypeDecl.ReadFrom (nodes : List Node) (remarks : List Remark) (d : TypeDecl) : Prop where
  fields : ∀ f ∈ d.fields, ∃ n ∈ nodes, f ∈ fieldsOf source n
  methods : ∀ m ∈ d.methods, ∃ n ∈ nodes, MemberForm.ofKind n.kind = .method ∧
    ∃ budget, (methodOf source budget n).value = [m] ∧
      (methodOf source budget n).remarks ⊆ remarks

/-- More nodes and more remarks do no harm. -/
theorem TypeDecl.ReadFrom.mono {nodes nodes' : List Node} {remarks remarks' : List Remark}
    {d : TypeDecl} (h : d.ReadFrom source nodes remarks) (hnodes : nodes ⊆ nodes')
    (hremarks : remarks ⊆ remarks') : d.ReadFrom source nodes' remarks' where
  fields f hf := by
    obtain ⟨n, hn, hfield⟩ := h.fields f hf
    exact ⟨n, hnodes hn, hfield⟩
  methods m hm := by
    obtain ⟨n, hn, hform, budget, hvalue, hsub⟩ := h.methods m hm
    exact ⟨n, hnodes hn, hform, budget, hvalue, fun r hr => hremarks (hsub hr)⟩

/-! ## Methods -/

/-- The parts of the body of a method; a method without a body has none. -/
def bodyOf (budget : Nat) (n : Node) : Noted Parts :=
  match n.child? "body" with
  | some body => blockParts (expressionOf source budget) (statementOf source budget) body
  | none => pure {}

/-- A method that comes from a node is all that comes from it, and its body is the body of the
    node. -/
theorem methodOf_spec {budget : Nat} {n : Node} {m : Method}
    (h : m ∈ (methodOf source budget n).value) :
    (methodOf source budget n).value = [m] ∧
      (methodOf source budget n).remarks = (bodyOf source budget n).remarks ∧
      m.returnType.kind = .other ∧ m.arguments = parametersOf source n ∧
      m.bodyContent = (bodyOf source budget n).value.expressions ∧
      m.statements = (bodyOf source budget n).value.statements := by
  unfold methodOf methodStep at h ⊢
  unfold bodyOf
  split at h
  · cases hbody : n.child? "body" with
    | none =>
      simp only [hbody, Noted.value_bind, Noted.value_pure, List.mem_singleton] at h
      subst h
      exact ⟨rfl, rfl, rfl, rfl, rfl, rfl⟩
    | some body =>
      simp only [hbody, Noted.value_bind, Noted.value_pure, List.mem_singleton] at h
      subst h
      simp
  -- A method without a name gives nothing.
  · exact nomatch h

/-! ## Bodies of types -/

section

variable {m : Type → Type} [Monad m] [MonadLiftT Noted m] (method : Node → m (List Method))
  (declaration : Node → m (List TypeDecl))

/-- The members at one node of the body of a type. -/
def memberAt (n : Node) : m Members :=
  if n.isContent then
    match MemberForm.ofKind n.kind with
    | .method => (fun ms => { methods := ms }) <$> method n
    | .field => pure { fields := fieldsOf source n }
    | .enumConstant => pure {}
    | .enumBody => membersOf source method declaration n
    | .typeDecl => (fun ds => { nested := ds }) <$> declaration n
    | .unsupported => (fun _ => {}) <$> monadLift (n.leaveOut source .member)
  else pure {}

/-- The members of a list are those of its first node in front of those of the others. -/
theorem membersIn_cons (n : Node) (ns : List Node) :
    membersIn source method declaration (n :: ns) = do
      let here ← memberAt source method declaration n
      return here.append (← membersIn source method declaration ns) := by
  rw [membersIn]
  unfold memberAt
  split
  · cases MemberForm.ofKind n.kind <;> rfl
  · rfl

end

section

variable (budget : Nat) (declaration : Node → Noted (List TypeDecl))

/-- Members that come from the nodes of a list. -/
structure Members.ReadFrom (nodes : List Node) (x : Noted Members) : Prop where
  fields : ∀ f ∈ x.value.fields, ∃ n ∈ nodes, f ∈ fieldsOf source n
  methods : ∀ m ∈ x.value.methods, ∃ n ∈ nodes, MemberForm.ofKind n.kind = .method ∧
    m ∈ (methodOf source budget n).value ∧ (methodOf source budget n).remarks ⊆ x.remarks
  nested : ∀ d ∈ x.value.nested, ∃ n ∈ nodes, d ∈ (declaration n).value ∧
    (declaration n).remarks ⊆ x.remarks

/-- No members come from anywhere. -/
theorem Members.readFrom_empty (nodes : List Node) (remarks : List Remark) :
    Members.ReadFrom source budget declaration nodes ⟨{}, remarks⟩ where
  fields _ hf := nomatch hf
  methods _ hm := nomatch hm
  nested _ hd := nomatch hd

/-- More nodes and more remarks do no harm. -/
theorem Members.ReadFrom.mono {nodes nodes' : List Node} {x x' : Noted Members}
    (h : Members.ReadFrom source budget declaration nodes x) (hnodes : nodes ⊆ nodes')
    (hvalue : x'.value = x.value) (hremarks : x.remarks ⊆ x'.remarks) :
    Members.ReadFrom source budget declaration nodes' x' where
  fields f hf := by
    obtain ⟨n, hn, hfield⟩ := h.fields f (hvalue ▸ hf)
    exact ⟨n, hnodes hn, hfield⟩
  methods m hm := by
    obtain ⟨n, hn, hform, hmethod, hsub⟩ := h.methods m (hvalue ▸ hm)
    exact ⟨n, hnodes hn, hform, hmethod, List.Subset.trans hsub hremarks⟩
  nested d hd := by
    obtain ⟨n, hn, hdeclaration, hsub⟩ := h.nested d (hvalue ▸ hd)
    exact ⟨n, hnodes hn, hdeclaration, List.Subset.trans hsub hremarks⟩

/-- Members in front of others come from the nodes of both. -/
theorem Members.ReadFrom.append {as bs : List Node} {x y : Noted Members}
    (hx : Members.ReadFrom source budget declaration as x)
    (hy : Members.ReadFrom source budget declaration bs y) :
    Members.ReadFrom source budget declaration (as ++ bs) (do return (← x).append (← y)) := by
  -- Both parts keep their remarks, so a member comes from its own part as before.
  have hleft : x.remarks ⊆ (do return (← x).append (← y) : Noted Members).remarks := by simp
  have hright : y.remarks ⊆ (do return (← x).append (← y) : Noted Members).remarks := by simp
  constructor
  case fields =>
    intro f hf
    rcases List.mem_append.1 hf with hf | hf
    · obtain ⟨n, hn, hfield⟩ := hx.fields f hf
      exact ⟨n, List.mem_append_left _ hn, hfield⟩
    · obtain ⟨n, hn, hfield⟩ := hy.fields f hf
      exact ⟨n, List.mem_append_right _ hn, hfield⟩
  case methods =>
    intro m hm
    rcases List.mem_append.1 hm with hm | hm
    · obtain ⟨n, hn, hform, hvalue, hsub⟩ := hx.methods m hm
      exact ⟨n, List.mem_append_left _ hn, hform, hvalue, List.Subset.trans hsub hleft⟩
    · obtain ⟨n, hn, hform, hvalue, hsub⟩ := hy.methods m hm
      exact ⟨n, List.mem_append_right _ hn, hform, hvalue, List.Subset.trans hsub hright⟩
  case nested =>
    intro d hd
    rcases List.mem_append.1 hd with hd | hd
    · obtain ⟨n, hn, hvalue, hsub⟩ := hx.nested d hd
      exact ⟨n, List.mem_append_left _ hn, hvalue, List.Subset.trans hsub hleft⟩
    · obtain ⟨n, hn, hvalue, hsub⟩ := hy.nested d hd
      exact ⟨n, List.mem_append_right _ hn, hvalue, List.Subset.trans hsub hright⟩

/-- The members at a node come from the nodes there, if those of the body of an enum do. -/
theorem readFrom_memberAt {n : Node}
    (hbody : Members.ReadFrom source budget declaration n.preorder
      (membersOf source (methodOf source budget) declaration n)) :
    Members.ReadFrom source budget declaration n.preorder
      (memberAt source (methodOf source budget) declaration n) := by
  unfold memberAt
  split
  · cases hform : MemberForm.ofKind n.kind with
    -- A member of this sort is the only one that the node gives.
    | method =>
      exact {
        fields _ hf := nomatch hf
        methods m hm := ⟨n, n.mem_preorder_self, hform, hm, by simp⟩
        nested _ hd := nomatch hd }
    | field =>
      exact {
        fields f hf := ⟨n, n.mem_preorder_self, hf⟩
        methods _ hm := nomatch hm
        nested _ hd := nomatch hd }
    | typeDecl =>
      exact {
        fields _ hf := nomatch hf
        methods _ hm := nomatch hm
        nested d hd := ⟨n, n.mem_preorder_self, hd, by simp⟩ }
    -- Behind the constants there are more members.
    | enumBody => exact hbody
    | enumConstant | unsupported => exact Members.readFrom_empty source budget declaration _ _
  · exact Members.readFrom_empty source budget declaration _ _

mutual

/-- The members of a body come from nodes of the body. -/
theorem readFrom_membersOf : (n : Node) →
    Members.ReadFrom source budget declaration n.preorder
      (membersOf source (methodOf source budget) declaration n)
  | ⟨_, _, _, _, _, _, _, _, _, children⟩ => by
    rw [membersOf, Node.preorder]
    exact (readFrom_membersIn children).mono source budget declaration (List.subset_cons_self _ _)
      rfl (List.Subset.refl _)

/-- The members of a list of nodes come from these nodes. -/
theorem readFrom_membersIn : (ns : List Node) →
    Members.ReadFrom source budget declaration (Node.preorderIn ns)
      (membersIn source (methodOf source budget) declaration ns)
  | [] => Members.readFrom_empty source budget declaration _ _
  | n :: ns => by
    rw [membersIn_cons, Node.preorderIn]
    have hhere := readFrom_memberAt source budget declaration (readFrom_membersOf n)
    exact hhere.append source budget declaration (readFrom_membersIn ns)

end

end

/-! ## Declarations and files -/

/-- The declarations of joined lists. -/
theorem TypeDecl.preorderList_append (ds es : List TypeDecl) :
    preorderList (ds ++ es) = preorderList ds ++ preorderList es := by
  induction ds with
  | nil => rw [preorderList]; rfl
  | cons d ds ih => rw [List.cons_append, preorderList, preorderList, ih, List.append_assoc]

/-- A declaration inside the declarations of a list is inside one of them. -/
theorem TypeDecl.exists_of_mem_preorderList {d : TypeDecl} {ds : List TypeDecl}
    (h : d ∈ preorderList ds) : ∃ e ∈ ds, d = e ∨ d ∈ preorderList e.nested := by
  induction ds with
  | nil =>
    rw [preorderList] at h
    exact nomatch h
  | cons e ds ih =>
    rw [preorderList, List.mem_append] at h
    rcases h with h | h
    -- It is in the first declaration or in one of the others.
    · refine ⟨e, List.mem_cons_self, ?_⟩
      obtain ⟨⟩ := e
      simpa [preorder] using h
    · obtain ⟨f, hf, hd⟩ := ih h
      exact ⟨f, List.mem_cons_of_mem e hf, hd⟩

/-- What is inside a declaration of a list is inside the list. -/
theorem TypeDecl.mem_preorderList_of_mem {d e : TypeDecl} {ds : List TypeDecl} (he : e ∈ ds)
    (h : d = e ∨ d ∈ preorderList e.nested) : d ∈ preorderList ds := by
  induction ds with
  | nil => exact nomatch he
  | cons f ds ih =>
    rw [preorderList, List.mem_append]
    rcases List.mem_cons.1 he with rfl | he
    · left
      obtain ⟨⟩ := e
      simpa [preorder] using h
    · exact .inr (ih he)

/-- A declaration that comes from a node has the members of the node's body. -/
theorem declarationOf_spec {budget : Nat} {n : Node} {d : TypeDecl}
    (h : d ∈ (declarationOf source (budget + 1) n).value) :
    Members.ReadFrom source budget (declarationOf source budget) n.preorder
      ⟨⟨d.fields, d.methods, d.nested⟩, (declarationOf source (budget + 1) n).remarks⟩ := by
  rw [declarationOf] at h ⊢
  unfold declarationStep at h ⊢
  split at h
  · cases hbody : n.child? "body" with
    | none =>
      simp only [hbody, Noted.value_bind, Noted.value_pure, List.mem_singleton] at h
      subst h
      exact Members.readFrom_empty source budget _ _ _
    -- The members stand below the type, in its body.
    | some body =>
      simp only [hbody, Noted.value_bind, Noted.value_pure, List.mem_singleton] at h
      subst h
      have hbelow := Node.preorder_subset_of_mem_children (Node.mem_children_of_child? hbody)
      exact (readFrom_membersOf source budget (declarationOf source budget) body).mono source budget
        (declarationOf source budget) hbelow rfl (by simp)
  -- A type without a name gives nothing.
  · exact nomatch h

/-- The members of a declaration, and of those nested in it, come from nodes of the
    declaration. -/
theorem readFrom_declarationOf {budget : Nat} {n : Node} {d : TypeDecl}
    (h : d ∈ TypeDecl.preorderList (declarationOf source budget n).value) :
    d.ReadFrom source n.preorder (declarationOf source budget n).remarks := by
  -- Each level of nesting takes one from the budget, so the induction is on the budget.
  induction budget generalizing n d with
  | zero =>
    rw [declarationOf, refuse, TypeDecl.preorderList] at h
    exact nomatch h
  | succ budget ih =>
    obtain ⟨e, he, hd⟩ := TypeDecl.exists_of_mem_preorderList h
    have hread := declarationOf_spec source he
    rcases hd with rfl | hd
    · constructor
      case fields => exact hread.fields
      case methods =>
        intro m hm
        obtain ⟨c, hc, hform, hmethod, hsub⟩ := hread.methods m hm
        exact ⟨c, hc, hform, budget, (methodOf_spec source hmethod).1, hsub⟩
    · -- A nested declaration comes from a node of the body, with all that is nested in it.
      obtain ⟨f, hf, hdf⟩ := TypeDecl.exists_of_mem_preorderList hd
      obtain ⟨c, hc, hfc, hsub⟩ := hread.nested f hf
      have hbelow : d ∈ TypeDecl.preorderList (declarationOf source budget c).value :=
        TypeDecl.mem_preorderList_of_mem hfc hdf
      exact (ih hbelow).mono source (Node.preorder_subset_of_mem_preorder hc) hsub

section

variable {m : Type → Type} [Monad m] [MonadLiftT Noted m] (declaration : Node → m (List TypeDecl))

/-- What one node at the top of a file gives. -/
def topLevelAt (n : Node) : m Outline :=
  match TopLevelForm.ofKind n.kind with
  | .importName => pure { imports := (importName? source n).toList }
  | .package => pure {}
  | .typeDecl => (fun ds => { namespaces := ds }) <$> declaration n
  | .unsupported => (fun _ => {}) <$> monadLift (n.leaveOut source .declaration)

/-- The outline of a list of nodes is that of the first in front of that of the others. -/
theorem topLevelOf_cons (n : Node) (ns : List Node) :
    topLevelOf source declaration (n :: ns) = do
      let here ← topLevelAt source declaration n
      let rest ← topLevelOf source declaration ns
      return ⟨here.imports ++ rest.imports, here.namespaces ++ rest.namespaces⟩ := by
  rw [topLevelOf]
  unfold topLevelAt
  cases TopLevelForm.ofKind n.kind <;> rfl

end

/-- The members of the declarations at the top of a file come from the nodes there. -/
theorem readFrom_topLevelOf {budget : Nat} {ns : List Node} {d : TypeDecl}
    (h : d ∈ TypeDecl.preorderList
      (topLevelOf source (declarationOf source budget) ns).value.namespaces) :
    d.ReadFrom source (Node.preorderIn ns)
      (topLevelOf source (declarationOf source budget) ns).remarks := by
  induction ns with
  | nil =>
    rw [topLevelOf, Noted.value_pure, TypeDecl.preorderList] at h
    exact nomatch h
  | cons n ns ih =>
    rw [topLevelOf_cons] at h ⊢
    simp only [Noted.value_bind, Noted.value_pure, TypeDecl.preorderList_append,
      List.mem_append] at h
    simp only [Noted.remarks_bind, Noted.remarks_pure, List.append_nil, Node.preorderIn]
    -- The declaration is in the first item or in another one.
    rcases h with h | h
    · have hhere : d.ReadFrom source n.preorder
          (topLevelAt source (declarationOf source budget) n).remarks := by
        unfold topLevelAt at h ⊢
        cases hform : TopLevelForm.ofKind n.kind with
        | typeDecl =>
          simp only [hform, Noted.value_map, Noted.remarks_map] at h ⊢
          exact readFrom_declarationOf source h
        -- Nothing but a type declaration gives a declaration.
        | importName | package | unsupported =>
          simp only [hform, Noted.value_pure, Noted.value_map, TypeDecl.preorderList] at h
          exact nomatch h
      exact hhere.mono source (List.subset_append_left _ _) (List.subset_append_left _ _)
    · exact (ih h).mono source (List.subset_append_right _ _) (List.subset_append_right _ _)

/-- The members of a file come from nodes of the file. -/
theorem readFrom_unitOf {budget : Nat} {root : Node} {d : TypeDecl}
    (h : d ∈ TypeDecl.preorderList (unitOf source budget root).value.namespaces) :
    d.ReadFrom source root.preorder (unitOf source budget root).remarks := by
  refine (readFrom_topLevelOf source h).mono source ?_ (List.Subset.refl _)
  intro m hm
  rw [Node.preorderIn_eq_flatMap] at hm
  obtain ⟨c, hc, hm⟩ := List.mem_flatMap.1 hm
  exact Node.preorder_subset_of_mem_children (Node.mem_children_of_mem_content hc) hm

end

end JavaOutline

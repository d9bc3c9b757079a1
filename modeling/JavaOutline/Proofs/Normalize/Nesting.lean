import JavaOutline.Proofs.Extraction
import JavaOutline.Proofs.Normalize.Budget
import JavaOutline.Proofs.Normalize.Signature
import JavaOutline.Proofs.Syntax.Places
import Mathlib.Data.List.Induction

/-!
# Nesting of declarations

The declarations of an outline are nested like the type declarations of the source, down to the
level that the budget allows.  A type is declared in a scope, which is the top of the file, the body
of a declared type, or the part of an enum body behind its constants.  The types that are declared
there are listed by `topTypes` and `typesBelow`, with their paths in the syntax tree, so that every
address in the outline has one place in the tree.

## Key results

- `declaredType_of_typeAt?`, `DeclaredType.exists_typeAt?`: the declared types of a file are those at
  the addresses of its forest of types
- `itemAt?_declarationsOf`: the declaration at an address comes from the type at this address
- `declarations_mirror_nesting`: declarations correspond to declared types, in order and with their
  parents, and a larger budget adds only deeper ones
-/

namespace JavaOutline

open Syntax (Node)

/-! ## Declared types -/

/-- Whether a node declares a type that has a name. -/
def Syntax.Node.declaresType (n : Node) : Bool :=
  n.kind ∈ typeDeclKinds && (n.child? "name").isSome

mutual

/-- The nodes in which types of the next level are declared.  `owner` is the path of the type around
    the scope, `level` its level, and `place` the path of the scope itself. -/
inductive Scope (root : Node) : (owner : List Nat) → (level : Nat) → (place : List Nat) → Node → Prop
  | file : Scope root [] 0 [] root
  | body {owner path : List Nat} {level j : Nat} {n b : Node}
      (declared : DeclaredType root owner level path n) (body : n.place? "body" = some (b, j)) :
      Scope root path level (path ++ [j]) b
  | enumBody {owner place : List Nat} {level i : Nat} {s e : Node}
      (scope : Scope root owner level place s) (inside : 0 < level)
      (child : s.children[i]? = some e) (content : e.isContent = true)
      (kind : e.kind = Node.enumBodyKind) : Scope root owner level (place ++ [i]) e

/-- The nodes that declare a named type in a scope.  `owner` is the path of the type around it and
    `path` its own. -/
inductive DeclaredType (root : Node) :
    (owner : List Nat) → (level : Nat) → (path : List Nat) → Node → Prop
  | intro {owner place : List Nat} {level i : Nat} {s n : Node}
      (scope : Scope root owner level place s) (child : s.children[i]? = some n)
      (content : n.isContent = true) (declares : n.declaresType = true) :
      DeclaredType root owner (level + 1) (place ++ [i]) n

end

/-- A declared type has a name. -/
theorem DeclaredType.declaresType {root : Node} {owner path : List Nat} {level : Nat} {n : Node}
    (h : DeclaredType root owner level path n) : n.declaresType = true := by
  cases h with
  | intro _ _ _ declares => exact declares

/-! ## The forest of types -/

/-- The members of a type with their paths; a type without a body has none. -/
def Syntax.Node.bodyMembers (n : Node) : List (List Nat × Node) :=
  match n.place? "body" with
  | some (b, j) => b.members.map fun m => (j :: m.1, m.2)
  | none => []

/-- The named types that are declared at the top of a file, with their paths. -/
def topTypes (root : Node) : List (List Nat × Node) :=
  (root.children.zipIdx.filter fun p => p.1.isContent && p.1.declaresType).map fun p =>
    ([p.2], p.1)

/-- The named types that are declared directly in a type, with their paths. -/
def typesBelow (t : List Nat × Node) : List (List Nat × Node) :=
  (t.2.bodyMembers.filter fun m => m.2.declaresType).map fun m => (t.1 ++ m.1, m.2)

/-- The type at an address, with its path. -/
def typeAt? (root : Node) (address : List Nat) : Option (List Nat × Node) :=
  Forest.itemAt? typesBelow (topTypes root) address

/-- The path of the type at an address; the file itself is at the empty one. -/
def siteOf (root : Node) (address : List Nat) : List Nat :=
  ((typeAt? root address).map Prod.fst).getD []

theorem siteOf_nil (root : Node) : siteOf root [] = [] := by
  rw [siteOf, typeAt?, Forest.itemAt?_nil]
  rfl

theorem siteOf_eq {root : Node} {address : List Nat} {t : List Nat × Node}
    (h : typeAt? root address = some t) : siteOf root address = t.1 := by
  rw [siteOf, h]
  rfl

/-- A declaration of a type is no inner part of an enum body. -/
theorem kind_ne_of_declaresType {n : Node} (h : n.declaresType = true) :
    n.kind ≠ Node.enumBodyKind := by
  intro hkind
  simp [Node.declaresType, hkind, Node.enumBodyKind, typeDeclKinds] at h

/-- A member of a type stands in its body. -/
theorem mem_bodyMembers {n : Node} {m : List Nat × Node} :
    m ∈ n.bodyMembers ↔
      ∃ b j, n.place? "body" = some (b, j) ∧ ∃ m' ∈ b.members, m = (j :: m'.1, m'.2) := by
  unfold Node.bodyMembers
  cases hplace : n.place? "body" with
  | none => simp
  | some p =>
    obtain ⟨b, j⟩ := p
    simp [eq_comm]

/-- The types at the top of a file are listed in source order. -/
theorem pairwise_precedes_topTypes (root : Node) :
    (topTypes root).Pairwise fun a b => Precedes a.1 b.1 := by
  have hall : root.children.zipIdx.Pairwise fun p q => p.2 < q.2 := by
    rw [List.pairwise_iff_getElem]
    intro i j hi hj hij
    simpa using hij
  rw [topTypes, List.pairwise_map]
  exact (hall.sublist List.filter_sublist).imp fun h => Precedes.of_lt h [] []

/-- The types in a type are listed in source order, on paths that go on from the path of that
    type. -/
theorem growsDown_typesBelow : Forest.GrowsDown typesBelow Prod.fst := by
  intro t
  constructor
  -- The members stand in the body in source order, and so do those among them that are types.
  · have hall : t.2.bodyMembers.Pairwise fun a b => Precedes a.1 b.1 := by
      unfold Node.bodyMembers
      split
      · rename_i b j _
        rw [List.pairwise_map]
        exact (Node.pairwise_precedes_members b).imp fun h => h.append_left [j]
      · exact List.Pairwise.nil
    rw [typesBelow, List.pairwise_map]
    exact (hall.sublist List.filter_sublist).imp fun h => h.append_left t.1
  -- A type in a type goes down into its body.
  · intro u hu
    obtain ⟨m, hm, rfl⟩ := List.mem_map.1 hu
    obtain ⟨b, j, -, m', -, rfl⟩ := mem_bodyMembers.1 (List.mem_filter.1 hm).1
    exact ⟨j :: m'.1, List.cons_ne_nil _ _, rfl⟩

/-! ## Addresses and declared types -/

section

variable {root : Node}

/-- A member of a scope inside a type that declares a type is a declared type. -/
theorem declaredType_of_mem_members {owner place q : List Nat} {level : Nat} {s n : Node}
    (hscope : Scope root owner level place s) (hlevel : 0 < level) (hm : (q, n) ∈ s.members)
    (hn : n.declaresType = true) : DeclaredType root owner (level + 1) (place ++ q) n := by
  -- Every inner part of an enum body on the way is a scope, so the induction is on the path.
  induction q generalizing place s with
  | nil => exact absurd rfl (Node.ne_nil_of_mem_members hm)
  | cons i q ih =>
    obtain ⟨j, c, hchild, hcontent, ⟨-, heq⟩ | ⟨hkind, ⟨q', n'⟩, hm', heq⟩⟩ := Node.mem_members.1 hm
    · obtain ⟨⟨rfl, rfl⟩, rfl⟩ : (i = j ∧ q = []) ∧ n = c := by simpa using heq
      exact .intro hscope hchild hcontent hn
    · obtain ⟨⟨rfl, rfl⟩, rfl⟩ : (i = j ∧ q = q') ∧ n = n' := by simpa using heq
      have hinner := ih (.enumBody hscope hlevel hchild hcontent hkind) hm'
      rwa [List.append_assoc] at hinner

/-- The type at an address is a declared type, its owner the type at the address without the last
    position. -/
theorem declaredType_of_typeAt? {address : List Nat} {t : List Nat × Node}
    (h : typeAt? root address = some t) :
    DeclaredType root (siteOf root address.dropLast) address.length t.1 t.2 := by
  induction address using List.reverseRecOn generalizing t with
  -- There is no type at the empty address.
  | nil =>
    rw [typeAt?, Forest.itemAt?_nil] at h
    exact nomatch h
  | append_singleton address k ih =>
    rw [List.dropLast_concat, List.length_append, List.length_singleton]
    by_cases htop : address = []
    -- An address of one position names a type at the top of the file.
    · subst htop
      rw [typeAt?, List.nil_append, Forest.itemAt?_singleton] at h
      obtain ⟨⟨c, i⟩, hmem, rfl⟩ := List.mem_map.1 (List.mem_of_getElem? h)
      obtain ⟨hchild, hboth⟩ := List.mem_filter.1 hmem
      rw [Bool.and_eq_true] at hboth
      rw [siteOf_nil]
      show DeclaredType root [] (0 + 1) ([] ++ [i]) c
      exact .intro .file (List.mem_zipIdx_iff_getElem?.1 hchild) hboth.1 hboth.2
    -- Any other one names a member in the body of the type before.
    · rw [typeAt?, Forest.itemAt?_concat _ htop] at h
      obtain ⟨u, hu, h⟩ := Option.bind_eq_some_iff.1 h
      obtain ⟨m, hm, rfl⟩ := List.mem_map.1 (List.mem_of_getElem? h)
      obtain ⟨hmember, hdeclares⟩ := List.mem_filter.1 hm
      obtain ⟨b, j, hplace, m', hm', rfl⟩ := mem_bodyMembers.1 hmember
      have hpositive : 0 < address.length := List.length_pos_iff.2 htop
      have hdeclared := declaredType_of_mem_members (.body (ih hu) hplace) hpositive hm' hdeclares
      rw [siteOf_eq hu]
      rwa [List.append_assoc] at hdeclared

/-- Only the file itself is a scope around which there is no type. -/
theorem Scope.eq_file {owner place : List Nat} {s : Node} (h : Scope root owner 0 place s) :
    owner = [] ∧ place = [] ∧ s = root := by
  cases h with
  | file => exact ⟨rfl, rfl, rfl⟩
  | body declared => exact nomatch declared
  | enumBody _ inside => exact absurd inside (Nat.lt_irrefl 0)

mutual

/-- The members of a scope inside a type are members of the type. -/
theorem Scope.exists_typeAt? {owner place : List Nat} {level : Nat} {s : Node} :
    Scope root owner level place s → 0 < level →
      ∃ address n, typeAt? root address = some (owner, n) ∧ address.length = level ∧
        ∀ m ∈ s.members, ∃ m' ∈ n.bodyMembers, place ++ m.1 = owner ++ m'.1 ∧ m.2 = m'.2
  | .file, h => absurd h (Nat.lt_irrefl 0)
  | .body (n := n) (b := b) (j := j) declared hplace, _ => by
    -- The scope is the body of a type, and its members are those of the type.
    obtain ⟨address, htype, hlength, -⟩ := declared.exists_typeAt?
    refine ⟨address, n, htype, hlength, fun m hm => ?_⟩
    exact ⟨(j :: m.1, m.2), mem_bodyMembers.2 ⟨b, j, hplace, m, hm, rfl⟩, by simp, rfl⟩
  | .enumBody (i := i) (e := e) scope inside child content kind, h => by
    -- The scope is a part of an enum body, whose members count for the enum.
    obtain ⟨address, n, htype, hlength, hmembers⟩ := scope.exists_typeAt? inside
    refine ⟨address, n, htype, hlength, fun m hm => ?_⟩
    have houter := Node.mem_members.2 ⟨i, e, child, content, .inr ⟨kind, m, hm, rfl⟩⟩
    obtain ⟨m', hm', hpath, hnode⟩ := hmembers _ houter
    exact ⟨m', hm', by rw [List.append_assoc]; exact hpath, hnode⟩

/-- Every declared type has an address. -/
theorem DeclaredType.exists_typeAt? {owner path : List Nat} {level : Nat} {n : Node} :
    DeclaredType root owner level path n →
      ∃ address, typeAt? root address = some (path, n) ∧ address.length = level ∧
        siteOf root address.dropLast = owner
  | .intro (i := i) (s := s) scope child content declares => by
    rename_i place level
    have hscope := scope.exists_typeAt?
    cases level with
    | zero =>
      -- The type is declared at the top of the file.
      obtain ⟨rfl, rfl, rfl⟩ := scope.eq_file
      have hmem : ([i], n) ∈ topTypes s := by
        refine List.mem_map.2 ⟨(n, i), List.mem_filter.2 ⟨?_, ?_⟩, rfl⟩
        · exact List.mem_zipIdx_iff_getElem?.2 child
        · simp [content, declares]
      obtain ⟨k, hk⟩ := List.mem_iff_getElem?.1 hmem
      exact ⟨[k], by rwa [typeAt?, Forest.itemAt?_singleton], rfl, siteOf_nil s⟩
    | succ level =>
      -- The type is declared in another one, which has an address by induction.
      obtain ⟨address, t, htype, hlength, hmembers⟩ := hscope (Nat.succ_pos level)
      have hinner : ([i], n) ∈ s.members := Node.mem_members.2
        ⟨i, n, child, content, .inl ⟨kind_ne_of_declaresType declares, rfl⟩⟩
      obtain ⟨m, hm, hpath, hnode⟩ := hmembers _ hinner
      have hmem : (place ++ [i], n) ∈ typesBelow (owner, t) := by
        refine List.mem_map.2 ⟨m, List.mem_filter.2 ⟨hm, ?_⟩, ?_⟩
        · rw [← hnode]
          exact declares
        · exact Prod.ext hpath.symm hnode.symm
      obtain ⟨k, hk⟩ := List.mem_iff_getElem?.1 hmem
      have hne : address ≠ [] := by
        rintro rfl
        exact nomatch hlength
      refine ⟨address ++ [k], ?_, by simp [hlength], ?_⟩
      · rw [typeAt?] at htype ⊢
        rw [Forest.itemAt?_concat _ hne, htype]
        exact hk
      · rw [List.dropLast_concat, siteOf_eq htype]

end

end

/-! ## Members -/

/-- A method without its body. -/
def Method.signature (m : Method) : Method :=
  { m with bodyContent := [], statements := [] }

section

variable (source : Bytes)

/-- The declarators of the fields that a member declares, each with the declaration. -/
def Syntax.Node.fieldDeclarators (n : Node) : List (Node × Node) :=
  if n.kind = "field_declaration" ∨ n.kind = "constant_declaration" then n.declarators else []

/-- Members that are declared by the nodes of a list, in this order. -/
structure Members.MadeOf (declaration : Node → Noted (List TypeDecl)) (ns : List Node)
    (x : Members) : Prop where
  fields : Readings (IsField source) (ns.flatMap Node.fieldDeclarators) x.fields
  methods : Readings (IsMethod source) ns x.methods
  nested : x.nested = (ns.filter Node.declaresType).flatMap fun n => (declaration n).value

/-- Only the inner part of an enum body is opened. -/
theorem MemberForm.ofKind_eq_enumBody_iff {kind : String} :
    ofKind kind = .enumBody ↔ kind = Node.enumBodyKind := by
  constructor
  · intro h
    unfold ofKind at h
    split at h
    · exact nomatch h
    · split at h <;> cases h
      rfl
  · rintro rfl
    decide

/-- The kinds that declare a type do so among the members of a type. -/
theorem MemberForm.ofKind_eq_typeDecl_iff {kind : String} :
    ofKind kind = .typeDecl ↔ kind ∈ typeDeclKinds := by
  constructor
  · intro h
    unfold ofKind at h
    split at h
    · assumption
    · split at h <;> exact nomatch h
  · intro h
    exact if_pos h

/-- The same at the top of a file. -/
theorem TopLevelForm.ofKind_eq_typeDecl_iff {kind : String} :
    ofKind kind = .typeDecl ↔ kind ∈ typeDeclKinds := by
  constructor
  · intro h
    unfold ofKind at h
    split at h
    · assumption
    · split at h <;> exact nomatch h
  · intro h
    exact if_pos h

/-- The kinds that declare fields. -/
theorem MemberForm.ofKind_eq_field_iff {kind : String} :
    ofKind kind = .field ↔ kind = "field_declaration" ∨ kind = "constant_declaration" := by
  constructor
  · intro h
    unfold ofKind at h
    split at h
    · exact nomatch h
    · split at h <;> cases h <;> simp
  · rintro (rfl | rfl) <;> decide

/-- The kinds that declare a method. -/
theorem MemberForm.ofKind_eq_method_iff {kind : String} :
    ofKind kind = .method ↔
      kind = "method_declaration" ∨ kind = "annotation_type_element_declaration" := by
  constructor
  · intro h
    unfold ofKind at h
    split at h
    · exact nomatch h
    · split at h <;> cases h <;> simp
  · rintro (rfl | rfl) <;> decide

/-- A node of another kind declares no field. -/
theorem fieldDeclarators_eq_nil {n : Node} (h : MemberForm.ofKind n.kind ≠ .field) :
    n.fieldDeclarators = [] :=
  if_neg (mt MemberForm.ofKind_eq_field_iff.2 h)

/-- A node of another kind declares no method. -/
theorem not_isMethod {n : Node} (h : MemberForm.ofKind n.kind ≠ .method) (m : Method) :
    ¬ IsMethod source n m :=
  fun hm => h (MemberForm.ofKind_eq_method_iff.2 hm.kind)

/-- The signature of a method is told by its node. -/
theorem IsMethod.signature_eq {n : Node} {m m' : Method} (h : IsMethod source n m)
    (h' : IsMethod source n m') : m.signature = m'.signature := by
  have hname : m.name = m'.name := Option.some.inj (h.name.symm.trans h'.name)
  have hmodifiers : m.modifiers = m'.modifiers :=
    ((modifiersOf_eq_iff source).2 h.modifiers).symm.trans
      ((modifiersOf_eq_iff source).2 h'.modifiers)
  have harguments : m.arguments = m'.arguments :=
    ((parametersOf_eq_iff source).2 h.arguments).symm.trans
      ((parametersOf_eq_iff source).2 h'.arguments)
  have htype := h.returnType.trans h'.returnType.symm
  rw [Method.signature, Method.signature, hname, htype, hmodifiers, harguments]

/-- The method at a node has the signature that the node declares, however much of its body is
    read. -/
theorem readings_methodOf {budget : Nat} {n : Node} (h : MemberForm.ofKind n.kind = .method) :
    Readings (IsMethod source) [n] (methodOf source budget n).value := by
  rw [methodOf_eq]
  cases hname : n.fieldText? source "name" with
  | none => exact .pass (fun m hm => nomatch hname.symm.trans hm.name) .nil
  | some name =>
    refine .take ⟨MemberForm.ofKind_eq_method_iff.1 h, hname, rfl, ?_, ?_⟩ .nil
    · exact (modifiersOf_eq_iff source).1 rfl
    · exact (parametersOf_eq_iff source).1 rfl

section

variable {budget : Nat} {declaration : Node → Noted (List TypeDecl)}

/-- Members in front of others. -/
theorem Members.MadeOf.append {ns ms : List Node} {x y : Members}
    (hx : x.MadeOf source declaration ns) (hy : y.MadeOf source declaration ms) :
    (x.append y).MadeOf source declaration (ns ++ ms) where
  fields := by
    rw [List.flatMap_append]
    exact hx.fields.append hy.fields
  methods := hx.methods.append hy.methods
  nested := by simp [Members.append, hx.nested, hy.nested]

/-- The nested declarations at a node: none without a name. -/
theorem value_declaration_eq (hunnamed : ∀ n, n.child? "name" = none → (declaration n).value = [])
    {n : Node} (h : n.kind ∈ typeDeclKinds) :
    (declaration n).value =
      ([n].filter Node.declaresType).flatMap fun n => (declaration n).value := by
  cases hname : n.child? "name" with
  -- A type without a name is neither declared nor listed.
  | none =>
    have hnot : n.declaresType = false := by simp [Node.declaresType, hname]
    rw [List.filter_cons_of_neg (by simp [hnot]), hunnamed n hname]
    rfl
  | some c =>
    have hdeclares : n.declaresType = true := by simp [Node.declaresType, h, hname]
    rw [List.filter_cons_of_pos hdeclares]
    simp

/-- The members at a child of a body, if it is so inside the body of an enum. -/
theorem madeOf_memberAt {n : Node} (i : Nat)
    (hunnamed : ∀ n, n.child? "name" = none → (declaration n).value = [])
    (hbody : (membersOf source (methodOf source budget) declaration n).value.MadeOf source
      declaration (n.members.map Prod.snd)) :
    (memberAt source (methodOf source budget) declaration n).value.MadeOf source declaration
      ((n.membersAt i).map Prod.snd) := by
  unfold memberAt Node.membersAt
  cases n.isContent with
  | false => exact ⟨.nil, .nil, rfl⟩
  | true =>
    by_cases hkind : n.kind = Node.enumBodyKind
    · -- The inner part of an enum body is opened, and its members take its place.
      have hform := MemberForm.ofKind_eq_enumBody_iff.2 hkind
      have hmap : (n.members.map fun m => (i :: m.1, m.2)).map Prod.snd =
          n.members.map Prod.snd := by
        rw [List.map_map]
        rfl
      simp only [hkind, if_true, hmap]
      rw [hkind] at hform
      simpa only [hform] using hbody
    · have hother : MemberForm.ofKind n.kind ≠ .typeDecl → n.declaresType = false := by
        intro h
        simp [Node.declaresType, mt MemberForm.ofKind_eq_typeDecl_iff.2 h]
      have hfields : MemberForm.ofKind n.kind ≠ .field →
          Readings (IsField source) ([n].flatMap Node.fieldDeclarators) [] := by
        intro h
        rw [List.flatMap_singleton, fieldDeclarators_eq_nil h]
        exact .nil
      have hmethods : MemberForm.ofKind n.kind ≠ .method → Readings (IsMethod source) [n] [] :=
        fun h => .pass (not_isMethod source h) .nil
      simp only [hkind, if_true, if_false, List.map_cons, List.map_nil]
      -- Each form declares members of one sort and none of the others.
      cases hform : MemberForm.ofKind n.kind with
      | enumBody => exact absurd (MemberForm.ofKind_eq_enumBody_iff.1 hform) hkind
      | method =>
        have hnot := hother (by simp [hform])
        exact ⟨hfields (by simp [hform]), readings_methodOf source hform, by simp [hnot]⟩
      | field =>
        have hnot := hother (by simp [hform])
        refine ⟨?_, hmethods (by simp [hform]), by simp [hnot]⟩
        rw [List.flatMap_singleton, Node.fieldDeclarators,
          if_pos (MemberForm.ofKind_eq_field_iff.1 hform)]
        exact (fieldsOf_eq_iff source).1 rfl
      | typeDecl =>
        exact ⟨hfields (by simp [hform]), hmethods (by simp [hform]),
          value_declaration_eq hunnamed (MemberForm.ofKind_eq_typeDecl_iff.1 hform)⟩
      | enumConstant | unsupported =>
        have hnot := hother (by simp [hform])
        exact ⟨hfields (by simp [hform]), hmethods (by simp [hform]), by simp [hnot]⟩

mutual

/-- The members of a body are those that its member nodes declare. -/
theorem madeOf_membersOf (hunnamed : ∀ n, n.child? "name" = none → (declaration n).value = []) :
    (n : Node) →
    (membersOf source (methodOf source budget) declaration n).value.MadeOf source declaration
      (n.members.map Prod.snd)
  | ⟨_, _, _, _, _, _, _, _, _, children⟩ => by
    rw [membersOf, Node.members]
    exact madeOf_membersIn hunnamed 0 children

/-- The same for the nodes of a list. -/
theorem madeOf_membersIn (hunnamed : ∀ n, n.child? "name" = none → (declaration n).value = []) :
    (i : Nat) → (ns : List Node) →
    (membersIn source (methodOf source budget) declaration ns).value.MadeOf source declaration
      ((Node.membersFrom i ns).map Prod.snd)
  | _, [] => by
    rw [membersIn, Node.membersFrom]
    exact ⟨.nil, .nil, rfl⟩
  | i, n :: ns => by
    rw [membersIn_cons, Node.membersFrom, List.map_append]
    exact (madeOf_memberAt source i hunnamed (madeOf_membersOf hunnamed n)).append source
      (madeOf_membersIn hunnamed (i + 1) ns)

end

end

/-! ## Declarations -/

/-- A declaration that tells what the node of a type declares directly: its fields and methods are
    those that the nodes of its body declare, in their order. -/
structure TypeDecl.Mirrors (n : Node) (d : TypeDecl) : Prop where
  name : n.fieldText? source "name" = some d.name
  kind : n.DeclaresKind d.kind
  modifiers : HasModifiers source n d.modifiers
  fields : Readings (IsField source) (n.bodyMembers.flatMap fun m => m.2.fieldDeclarators) d.fields
  methods : Readings (IsMethod source) (n.bodyMembers.map Prod.snd) d.methods

/-- A type without a name gives no declaration. -/
theorem declarationOf_unnamed {budget : Nat} {n : Node} (h : n.child? "name" = none) :
    (declarationOf source budget n).value = [] := by
  cases budget with
  | zero => rfl
  | succ budget =>
    rw [declarationOf_succ, Node.fieldText?, h]
    rfl

/-- The members of a type are those that the nodes of its body declare. -/
theorem madeOf_typeBodyOf (budget : Nat) (n : Node) :
    (typeBodyOf source budget n).value.MadeOf source (declarationOf source budget)
      (n.bodyMembers.map Prod.snd) := by
  have hchild := n.map_fst_place? "body"
  unfold typeBodyOf Node.bodyMembers
  cases hplace : n.place? "body" with
  -- A type without a body has no members.
  | none =>
    rw [hplace] at hchild
    rw [← hchild]
    exact ⟨.nil, .nil, rfl⟩
  | some p =>
    obtain ⟨b, j⟩ := p
    rw [hplace] at hchild
    rw [← hchild]
    show (membersOf source (methodOf source budget) (declarationOf source budget) b).value.MadeOf
      source (declarationOf source budget) ((b.members.map fun m => (j :: m.1, m.2)).map Prod.snd)
    rw [List.map_map]
    exact madeOf_membersOf source (fun n h => declarationOf_unnamed source h) b

/-- The declarations of the types of a list. -/
def declarationsOf (budget : Nat) (types : List (List Nat × Node)) : List TypeDecl :=
  types.flatMap fun t => (declarationOf source budget t.2).value

/-- A type with a name gives one declaration, in which the types of its body are nested with one
    level less. -/
theorem exists_declarationOf {n : Node} (h : n.declaresType = true) (budget : Nat)
    (path : List Nat) : ∃ d, (declarationOf source (budget + 1) n).value = [d] ∧
      d.Mirrors source n ∧ d.nested = declarationsOf source budget (typesBelow (path, n)) := by
  have hname : ∃ name, n.fieldText? source "name" = some name := by
    simp only [Node.declaresType, Bool.and_eq_true, Option.isSome_iff_exists] at h
    obtain ⟨c, hc⟩ := h.2
    exact ⟨c.text source, by rw [Node.fieldText?, hc]; rfl⟩
  -- A declared type has a name, so it gives one declaration.
  obtain ⟨name, hname⟩ := hname
  have hmade := madeOf_typeBodyOf source budget n
  rw [declarationOf_succ, hname]
  -- What the declaration tells is read from the node itself and from its members.
  refine ⟨_, rfl, ⟨hname, declaresKind_kind n, ?_, ?_, hmade.methods⟩, ?_⟩
  · exact (modifiersOf_eq_iff source).1 rfl
  · rw [← List.flatMap_map]
    exact hmade.fields
  -- The types among the members are those below this type, each with its path.
  · refine hmade.nested.trans ?_
    rw [declarationsOf, typesBelow, List.filter_map, List.flatMap_map, List.flatMap_map]
    rfl

/-- Where each item of a list gives one result, the results are where the items are. -/
theorem getElem?_flatMap_eq_some_iff {α β : Type} {f : α → List β} {as : List α}
    (h : ∀ a ∈ as, ∃ b, f a = [b]) {k : Nat} {b : β} :
    (as.flatMap f)[k]? = some b ↔ ∃ a, as[k]? = some a ∧ f a = [b] := by
  induction as generalizing k with
  | nil => simp
  | cons a as ih =>
    rw [List.forall_mem_cons] at h
    obtain ⟨c, hc⟩ := h.1
    -- Each item gives one place of the list.
    rw [List.flatMap_cons, hc, List.singleton_append]
    cases k with
    | zero => simp [hc]
    | succ k => simpa using ih h.2

/-- The declaration at a position of a list of types comes from the type there. -/
theorem getElem?_declarationsOf {budget k : Nat} {types : List (List Nat × Node)} {d : TypeDecl}
    (h : ∀ t ∈ types, t.2.declaresType = true) :
    (declarationsOf source budget types)[k]? = some d ↔
      ∃ t rest, types[k]? = some t ∧ budget = rest + 1 ∧
        (declarationOf source (rest + 1) t.2).value = [d] := by
  cases budget with
  -- Without budget there is no declaration.
  | zero =>
    have hnone : declarationsOf source 0 types = [] := List.flatMap_eq_nil_iff.2 fun t _ => rfl
    simp [hnone]
  | succ budget =>
    have hone : ∀ t ∈ types, ∃ d, (declarationOf source (budget + 1) t.2).value = [d] := by
      intro t ht
      obtain ⟨d, hd, -⟩ := exists_declarationOf source (h t ht) budget []
      exact ⟨d, hd⟩
    rw [declarationsOf, getElem?_flatMap_eq_some_iff hone]
    constructor
    · rintro ⟨t, ht, hd⟩
      exact ⟨t, budget, ht, rfl, hd⟩
    · rintro ⟨t, rest, ht, hrest, hd⟩
      obtain rfl : budget = rest := by omega
      exact ⟨t, ht, hd⟩

theorem declaresType_of_mem_typesBelow {t u : List Nat × Node} (h : u ∈ typesBelow t) :
    u.2.declaresType = true := by
  obtain ⟨m, hm, rfl⟩ := List.mem_map.1 h
  exact (List.mem_filter.1 hm).2

/-- The declaration at an address comes from the type at this address, with as many levels less as
    the address has positions. -/
theorem itemAt?_declarationsOf {budget : Nat} {types : List (List Nat × Node)}
    {address : List Nat} {d : TypeDecl} (h : ∀ t ∈ types, t.2.declaresType = true) :
    Forest.itemAt? TypeDecl.nested (declarationsOf source budget types) address = some d ↔
      ∃ t rest, Forest.itemAt? typesBelow types address = some t ∧
        budget = rest + address.length ∧ (declarationOf source (rest + 1) t.2).value = [d] := by
  induction address generalizing budget types with
  | nil => simp
  | cons k address ih =>
    by_cases hlast : address = []
    · subst hlast
      simpa using getElem?_declarationsOf source h
    · rw [Forest.itemAt?_cons _ hlast, Forest.itemAt?_cons _ hlast, Option.bind_eq_some_iff]
      -- Below the first position both sides go on in the same way.
      have hbelow : ∀ {t : List Nat × Node} {rest : Nat} {e : TypeDecl}, t ∈ types →
          (declarationOf source (rest + 1) t.2).value = [e] →
          e.nested = declarationsOf source rest (typesBelow t) := by
        intro t rest e ht he
        obtain ⟨e', he', -, hnested⟩ := exists_declarationOf source (h t ht) rest t.1
        obtain rfl : e = e' := by simpa using he.symm.trans he'
        exact hnested
      constructor
      · rintro ⟨e, he, hd⟩
        obtain ⟨t, rest, ht, rfl, hvalue⟩ := (getElem?_declarationsOf source h).1 he
        rw [hbelow (List.mem_of_getElem? ht) hvalue] at hd
        obtain ⟨u, rest', hu, rfl, hvalue'⟩ := (ih fun v => declaresType_of_mem_typesBelow).1 hd
        exact ⟨u, rest', by rw [ht]; exact hu, by simp; omega, hvalue'⟩
      · rintro ⟨u, rest, hu, rfl, hd⟩
        obtain ⟨t, ht, hu⟩ := Option.bind_eq_some_iff.1 hu
        obtain ⟨e, he, -⟩ := exists_declarationOf source (h t (List.mem_of_getElem? ht))
          (rest + address.length) t.1
        refine ⟨e, (getElem?_declarationsOf source h).2 ⟨t, _, ht, by simp; omega, he⟩, ?_⟩
        rw [hbelow (List.mem_of_getElem? ht) he]
        exact (ih fun v => declaresType_of_mem_typesBelow).2 ⟨u, rest, hu, rfl, hd⟩

/-! ## Files -/

/-- The declarations of a file are those of the types at its top. -/
theorem namespaces_unitOf (budget : Nat) (root : Node) :
    (unitOf source budget root).value.namespaces =
      declarationsOf source budget (topTypes root) := by
  -- By induction on the items at the top of the file.
  have hall : ∀ ns : List Node,
      (topLevelOf source (declarationOf source budget) ns).value.namespaces =
      (ns.filter Node.declaresType).flatMap fun n => (declarationOf source budget n).value := by
    intro ns
    induction ns with
    | nil => rfl
    | cons n ns ih =>
      have hhere : (topLevelAt source (declarationOf source budget) n).value.namespaces =
          ([n].filter Node.declaresType).flatMap
            fun n => (declarationOf source budget n).value := by
        unfold topLevelAt
        cases hform : TopLevelForm.ofKind n.kind with
        | typeDecl =>
          exact value_declaration_eq (fun n h => declarationOf_unnamed source h)
            (TopLevelForm.ofKind_eq_typeDecl_iff.1 hform)
        -- Imports, packages and what is not supported declare no type.
        | importName | package | unsupported =>
          have hnot : n.declaresType = false := by
            have hkind := mt TopLevelForm.ofKind_eq_typeDecl_iff.2
              (show TopLevelForm.ofKind n.kind ≠ .typeDecl by simp [hform])
            simp [Node.declaresType, hkind]
          simp [hnot]
      rw [topLevelOf_cons, ← List.singleton_append, List.filter_append, List.flatMap_append,
        ← hhere, ← ih]
      rfl
  -- The types at the top without their paths.
  have hcontent : (topTypes root).map Prod.snd = root.content.filter Node.declaresType := by
    have hmap := List.filter_map (f := Prod.fst) (l := root.children.zipIdx)
      (p := fun c : Node => c.isContent && c.declaresType)
    rw [List.zipIdx_map_fst] at hmap
    rw [topTypes, List.map_map, Node.content, List.filter_filter]
    simp only [Bool.and_comm (Node.declaresType _)]
    exact hmap.symm
  rw [unitOf, hall, ← hcontent, List.flatMap_map, declarationsOf]

/-- The imports of a file do not depend on the budget. -/
theorem imports_unitOf (budget larger : Nat) (root : Node) :
    (unitOf source larger root).value.imports = (unitOf source budget root).value.imports := by
  -- An import needs no budget, and the other items give none.
  have hall : ∀ ns : List Node, (topLevelOf source (declarationOf source larger) ns).value.imports =
      (topLevelOf source (declarationOf source budget) ns).value.imports := by
    intro ns
    induction ns with
    | nil => rfl
    | cons n ns ih =>
      have hhere : (topLevelAt source (declarationOf source larger) n).value.imports =
          (topLevelAt source (declarationOf source budget) n).value.imports := by
        unfold topLevelAt
        cases TopLevelForm.ofKind n.kind <;> rfl
      rw [topLevelOf_cons, topLevelOf_cons]
      simp only [Noted.value_bind, Noted.value_pure]
      rw [hhere, ih]
  exact hall root.content

end

/-! ## Skeletons -/

namespace TypeDecl

mutual

/-- A declaration without the bodies of its methods and those of the declarations in it. -/
def skeleton : TypeDecl → TypeDecl
  | ⟨name, kind, modifiers, fields, methods, nested⟩ =>
    ⟨name, kind, modifiers, fields, methods.map Method.signature, skeletons nested⟩

/-- The declarations of a list without the bodies of methods. -/
def skeletons : List TypeDecl → List TypeDecl
  | [] => []
  | d :: ds => skeleton d :: skeletons ds

end

/-- Declarations down to a level. -/
def truncate : (level : Nat) → List TypeDecl → List TypeDecl
  | 0, _ => []
  | level + 1, ds => ds.map fun d => { d with nested := truncate level d.nested }

/-- The skeletons of a list, one after the other. -/
theorem skeletons_eq_map (ds : List TypeDecl) : skeletons ds = ds.map skeleton := by
  induction ds with
  | nil => rw [skeletons]; rfl
  | cons d ds ih => rw [skeletons, ih]; rfl

/-- The parts of a skeleton. -/
theorem skeleton_eq (d : TypeDecl) :
    d.skeleton = { d with methods := d.methods.map Method.signature
                          nested := skeletons d.nested } := by
  cases d
  rw [skeleton]

/-- Two declarations for one node differ below it only. -/
theorem Mirrors.skeleton_eq {source : Bytes} {n : Node} {d e : TypeDecl}
    (hd : d.Mirrors source n) (he : e.Mirrors source n) {nested : List TypeDecl}
    (h : skeletons d.nested = nested) : d.skeleton = { e.skeleton with nested := nested } := by
  -- The node tells everything of a declaration but its methods' bodies and what is nested in it.
  have hname : d.name = e.name := Option.some.inj (hd.name.symm.trans he.name)
  have hkind := hd.kind.unique he.kind
  have hmodifiers : d.modifiers = e.modifiers :=
    ((modifiersOf_eq_iff source).2 hd.modifiers).symm.trans
      ((modifiersOf_eq_iff source).2 he.modifiers)
  have hfields : d.fields = e.fields :=
    hd.fields.unique (fun _ _ _ => IsField.unique source) he.fields
  have hmethods : d.methods.map Method.signature = e.methods.map Method.signature :=
    hd.methods.map_eq_map (fun _ _ _ => IsMethod.signature_eq source) he.methods
  rw [TypeDecl.skeleton_eq, TypeDecl.skeleton_eq, hname, hkind, hmodifiers, hfields, hmethods, h]

end TypeDecl

/-- With a smaller budget a file has the same declarations, down to the level that the budget
    allows. -/
theorem skeletons_declarationsOf (source : Bytes) {budget larger : Nat} (hle : budget ≤ larger)
    {types : List (List Nat × Node)} (h : ∀ t ∈ types, t.2.declaresType = true) :
    TypeDecl.skeletons (declarationsOf source budget types) =
      TypeDecl.truncate budget (TypeDecl.skeletons (declarationsOf source larger types)) := by
  induction budget generalizing larger types with
  | zero =>
    have hnone : declarationsOf source 0 types = [] := List.flatMap_eq_nil_iff.2 fun t _ => rfl
    rw [hnone, TypeDecl.truncate, TypeDecl.skeletons]
  | succ budget ih =>
    obtain ⟨larger, rfl⟩ : ∃ k, larger = k + 1 := ⟨larger - 1, by omega⟩
    rw [TypeDecl.truncate, TypeDecl.skeletons_eq_map, TypeDecl.skeletons_eq_map]
    -- Each type gives one declaration on both sides.
    induction types with
    | nil => rfl
    | cons t types iht =>
      rw [List.forall_mem_cons] at h
      obtain ⟨d, hd, hdn, hdnested⟩ := exists_declarationOf source h.1 budget t.1
      obtain ⟨e, he, hen, henested⟩ := exists_declarationOf source h.1 larger t.1
      have hbelow : TypeDecl.skeletons d.nested =
          TypeDecl.truncate budget e.skeleton.nested := by
        rw [TypeDecl.skeleton_eq, hdnested, henested]
        exact ih (by omega) fun u hu => declaresType_of_mem_typesBelow hu
      have hhere := hdn.skeleton_eq hen hbelow
      have hrest := iht h.2
      simp only [declarationsOf, List.flatMap_cons, hd, he, List.map_append, List.map_cons,
        List.map_nil] at hrest ⊢
      rw [hhere, hrest]

/-- The types at the top of a file have names. -/
theorem declaresType_of_mem_topTypes {root : Node} {t : List Nat × Node} (h : t ∈ topTypes root) :
    t.2.declaresType = true := by
  obtain ⟨p, hp, rfl⟩ := List.mem_map.1 h
  have hboth := (List.mem_filter.1 hp).2
  rw [Bool.and_eq_true] at hboth
  exact hboth.2

/-- Every source that is parsed without an error is extracted.  The declarations at the addresses of
    its outline and the declared types of its syntax tree down to the level of the budget correspond
    one to one and in source order.  Corresponding ones have the same parent, and the declaration
    tells what the type declares directly.  With another budget the imports are the same, and with
    a larger one so is the skeleton down to this level. -/
theorem declarations_mirror_nesting (parser : Parser) (options : ExtractOptions)
    (source origin : String) (root : Node) (hparse : parser source = some root)
    (herror : root.hasError = false) :
    ∃ o, extractSource parser options source origin = .ok o ∧
      (∃ site : List Nat → List Nat, site [] = [] ∧
        (∀ address d, Forest.itemAt? TypeDecl.nested o.namespaces address = some d →
          address.length ≤ options.maxDepth ∧
          ∃ n, DeclaredType root (site address.dropLast) address.length (site address) n ∧
            d.Mirrors (utf8 source) n) ∧
        (∀ owner level path n, DeclaredType root owner level path n → level ≤ options.maxDepth →
          ∃ address d, Forest.itemAt? TypeDecl.nested o.namespaces address = some d ∧
            address.length = level ∧ site address.dropLast = owner ∧ site address = path ∧
            d.Mirrors (utf8 source) n) ∧
        ∀ a b d e, Forest.itemAt? TypeDecl.nested o.namespaces a = some d →
          Forest.itemAt? TypeDecl.nested o.namespaces b = some e → (a < b ↔ site a < site b)) ∧
      ∀ depth, ∃ o', extractSource parser { options with maxDepth := depth } source origin =
          .ok o' ∧
        o'.imports = o.imports ∧
        (options.maxDepth ≤ depth → TypeDecl.skeletons o.namespaces =
          TypeDecl.truncate options.maxDepth (TypeDecl.skeletons o'.namespaces)) := by
  -- A file without errors is extracted with any budget.
  have hall : ∀ options : ExtractOptions, extractSource parser options source origin =
      .ok (unitOf (utf8 source) options.maxDepth root).value := fun options =>
    extractSource_eq_ok_iff.2 ⟨root, hparse, herror, rfl⟩
  have hnamed : ∀ t ∈ topTypes root, t.2.declaresType = true := fun t =>
    declaresType_of_mem_topTypes
  refine ⟨_, hall options, ?_, fun depth => ⟨_, hall _, imports_unitOf _ _ _ _, fun hle => ?_⟩⟩
  · rw [namespaces_unitOf]
    -- A declaration at an address comes from the type at this address, with the budget that is
    -- left.
    simp only [itemAt?_declarationsOf (utf8 source) hnamed]
    -- So declarations are told apart by addresses, and each address has its place in the tree.
    refine ⟨siteOf root, siteOf_nil root, ?_, ?_, ?_⟩
    -- A declaration of the outline has its place.
    · rintro address d ⟨t, rest, ht, hdepth, hd⟩
      have hdeclared := declaredType_of_typeAt? ht
      rw [siteOf_eq ht]
      refine ⟨by omega, t.2, hdeclared, ?_⟩
      obtain ⟨d', hd', hmirrors, -⟩ := exists_declarationOf (utf8 source)
        hdeclared.declaresType rest []
      obtain rfl : d = d' := by simpa using hd.symm.trans hd'
      exact hmirrors
    -- A declared type has an address, and the budget reaches down to its level.
    · intro owner level path n hdeclared hlevel
      obtain ⟨address, ht, hlength, howner⟩ := hdeclared.exists_typeAt?
      obtain ⟨d, hd, hmirrors, -⟩ := exists_declarationOf (utf8 source) hdeclared.declaresType
        (options.maxDepth - level) []
      exact ⟨address, d, ⟨(path, n), options.maxDepth - level, ht, by omega, hd⟩, hlength, howner,
        siteOf_eq ht, hmirrors⟩
    -- Paths go on from the path of the type around, so their order is that of the addresses.
    · rintro a b d e ⟨t, -, ht, -⟩ ⟨u, -, hu, -⟩
      rw [siteOf_eq ht, siteOf_eq hu]
      exact Forest.lt_iff_of_itemAt? typesBelow growsDown_typesBelow
        (pairwise_precedes_topTypes root) ht hu
  -- With a larger budget every type has the same declaration, and more of them are reached.
  · rw [namespaces_unitOf, namespaces_unitOf]
    exact skeletons_declarationsOf (utf8 source) hle hnamed

/-- A class in the part of an enum body behind its constants, the enum in a class.  The inner class
    has modifiers, fields and a method. -/
def innerTypeSource : String :=
  "class A \x7b enum B \x7b X; @K(v = 1) static class C<T> \x7b private int a, b[]; " ++
    "T m(final int p, T... q) \x7b \x7d \x7d \x7d class D \x7b \x7d \x7d"

/-- A named node. -/
def namedNode (kind field : String) (start stop : Nat) (children : List Node := []) : Node :=
  { kind, field, start, stop, isNamed := true, children }

/-- The declaration of the fields of `C` in `innerTypeSource`. -/
def innerFieldNode : Node :=
  namedNode "field_declaration" "" 52 71 [
    namedNode "modifiers" "" 52 59 [{ kind := "private", start := 52, stop := 59 }],
    namedNode "integral_type" "type" 60 63,
    namedNode "variable_declarator" "declarator" 64 65 [namedNode "identifier" "name" 64 65],
    namedNode "variable_declarator" "declarator" 67 70 [namedNode "identifier" "name" 67 68,
      namedNode "dimensions" "dimensions" 68 70]]

/-- The declaration of the method of `C`. -/
def innerMethodNode : Node :=
  namedNode "method_declaration" "" 72 100 [
    namedNode "type_identifier" "type" 72 73,
    namedNode "identifier" "name" 74 75,
    namedNode "formal_parameters" "parameters" 75 96 [
      namedNode "formal_parameter" "" 76 87 [
        namedNode "modifiers" "" 76 81 [{ kind := "final", start := 76, stop := 81 }],
        namedNode "integral_type" "type" 82 85, namedNode "identifier" "name" 86 87],
      namedNode "spread_parameter" "" 89 95 [
        namedNode "type_identifier" "" 89 90,
        namedNode "variable_declarator" "" 94 95 [namedNode "identifier" "name" 94 95]]],
    namedNode "block" "body" 97 100]

/-- The node of `C`. -/
def innerTypeNode : Node :=
  namedNode "class_declaration" "" 22 102 [
    namedNode "modifiers" "" 22 38 [
      namedNode "annotation" "" 22 31 [
        namedNode "identifier" "name" 23 24,
        namedNode "annotation_argument_list" "arguments" 24 31 [
          namedNode "element_value_pair" "" 25 30 [
            namedNode "identifier" "key" 25 26,
            namedNode "decimal_integer_literal" "value" 29 30]]],
      { kind := "static", start := 32, stop := 38 }],
    namedNode "identifier" "name" 45 46,
    namedNode "type_parameters" "type_parameters" 46 49 [
      namedNode "type_parameter" "" 47 48 [namedNode "type_identifier" "" 47 48]],
    namedNode "class_body" "body" 50 102 [innerFieldNode, innerMethodNode]]

/-- The syntax tree of `innerTypeSource`. -/
def innerTypeTree : Node :=
  namedNode "program" "" 0 118 [
    namedNode "class_declaration" "" 0 118 [
      namedNode "identifier" "name" 6 7,
      namedNode "class_body" "body" 8 118 [
        namedNode "enum_declaration" "" 10 104 [
          namedNode "identifier" "name" 15 16,
          namedNode "enum_body" "body" 17 104 [
            namedNode "enum_constant" "" 19 20 [namedNode "identifier" "name" 19 20],
            namedNode "enum_body_declarations" "" 20 102 [
              { kind := ";", start := 20, stop := 21 }, innerTypeNode]]],
        namedNode "class_declaration" "" 105 116 [
          namedNode "identifier" "name" 111 112, namedNode "class_body" "body" 113 116]]]]

/-- The signature of the method of `C`. -/
def innerMethodSignature : Method where
  name := "m"
  returnType := ⟨"T", .other⟩
  arguments := [.typed "p" "int" [.keyword .final "final"], .typed "q" "T..." []]

/-- The node of the method declares this signature. -/
theorem isMethod_innerMethodNode :
    IsMethod (utf8 innerTypeSource) innerMethodNode innerMethodSignature where
  kind := .inl rfl
  name := by decide
  returnType := by decide
  modifiers := (modifiersOf_eq_iff _).1 (by decide)
  arguments := (parametersOf_eq_iff _).1 (by decide)

/-- What a declaration for the node of `C` tells. -/
theorem parts_of_mirrors_innerTypeNode {d : TypeDecl}
    (h : d.Mirrors (utf8 innerTypeSource) innerTypeNode) :
    d.name = "C" ∧ d.kind = .generic ∧
      d.modifiers = [.annotated "K" ["v 1"], .keyword .static "static"] ∧
      d.fields = [.typed "a" "int" [.visibility .privateAccess],
        .typed "b" "int[]" [.visibility .privateAccess]] ∧
      d.methods.map Method.signature = [innerMethodSignature] := by
  have hname : innerTypeNode.fieldText? (utf8 innerTypeSource) "name" = some "C" := by decide
  have hkind : (DeclShape.of innerTypeNode).kind = .generic := by decide
  have hmodifiers : modifiersOf (utf8 innerTypeSource) innerTypeNode =
      [.annotated "K" ["v 1"], .keyword .static "static"] := by decide
  have hfields : fieldsOf (utf8 innerTypeSource) innerFieldNode =
      [.typed "a" "int" [.visibility .privateAccess],
        .typed "b" "int[]" [.visibility .privateAccess]] := by decide
  -- The declaration of the fields stands in front of the method and declares none.
  have hmethods : Readings (IsMethod (utf8 innerTypeSource)) [innerFieldNode, innerMethodNode]
      [innerMethodSignature] :=
    .pass (not_isMethod _ (by decide)) (.take isMethod_innerMethodNode .nil)
  refine ⟨Option.some.inj (h.name.symm.trans hname), ?kind, ?modifiers, ?fields, ?methods⟩
  case kind => exact (DeclShape.kind_eq_iff.2 h.kind).symm.trans hkind
  case modifiers => exact ((modifiersOf_eq_iff _).2 h.modifiers).symm.trans hmodifiers
  case fields => exact ((fieldsOf_eq_iff _).2 h.fields).symm.trans hfields
  case methods => exact h.methods.map_eq_map (fun _ _ _ => IsMethod.signature_eq _) hmethods

/-- `C` is declared in the enum, at the third level.  With a budget of three it has its place in the
    outline, with its kind, modifiers, fields and method, and the outline is also the one for a
    budget of four down to this level. -/
theorem declarations_mirror_nesting_innerType :
    let parser : Parser := fun _ => some innerTypeTree
    DeclaredType innerTypeTree [0, 1, 0] 3 [0, 1, 0, 1, 1, 1] innerTypeNode ∧
      ∃ o, extractSource parser { maxDepth := 3 } innerTypeSource "A.java" = .ok o ∧
        (∃ address d, Forest.itemAt? TypeDecl.nested o.namespaces address = some d ∧
          address.length = 3 ∧ d.Mirrors (utf8 innerTypeSource) innerTypeNode ∧
          d.name = "C" ∧ d.kind = .generic ∧
          d.modifiers = [.annotated "K" ["v 1"], .keyword .static "static"] ∧
          d.fields = [.typed "a" "int" [.visibility .privateAccess],
            .typed "b" "int[]" [.visibility .privateAccess]] ∧
          d.methods.map Method.signature = [innerMethodSignature]) ∧
        ∃ o', extractSource parser { maxDepth := 4 } innerTypeSource "A.java" = .ok o' ∧
          TypeDecl.skeletons o.namespaces =
            TypeDecl.truncate 3 (TypeDecl.skeletons o'.namespaces) := by
  -- The class, the enum in it, and the class in the part of the enum body.
  have hA : DeclaredType innerTypeTree [] 1 [0] _ :=
    .intro .file rfl rfl (by decide)
  have hB : DeclaredType innerTypeTree [0] 2 [0, 1, 0] _ :=
    .intro (.body hA rfl) rfl rfl (by decide)
  have hC : DeclaredType innerTypeTree [0, 1, 0] 3 [0, 1, 0, 1, 1, 1] innerTypeNode :=
    .intro (.enumBody (.body hB rfl) (by decide) rfl rfl rfl) rfl rfl (by decide)
  obtain ⟨o, ho, ⟨_, -, -, honto, -⟩, hlarger⟩ := declarations_mirror_nesting
    (fun _ => some innerTypeTree) { maxDepth := 3 } innerTypeSource "A.java" innerTypeTree rfl rfl
  obtain ⟨address, d, hd, hlength, -, -, hmirrors⟩ := honto _ _ _ _ hC (by decide)
  obtain ⟨o', ho', -, htruncate⟩ := hlarger 4
  exact ⟨hC, o, ho, ⟨address, d, hd, hlength, hmirrors, parts_of_mirrors_innerTypeNode hmirrors⟩,
    o', ho', htruncate (by decide)⟩

end JavaOutline

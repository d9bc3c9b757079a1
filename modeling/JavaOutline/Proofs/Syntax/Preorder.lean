import JavaOutline.Syntax.Node

/-!
# All nodes of a syntax tree

`Node.preorder` lists a node and every node below it, each before the nodes below it.  What is read
of a node are children of it, or children of children, so what is found there is found in the
preorder of the node.

## Key results

- `preorder_eq`: a node, then the preorders of its children
- `preorder_subset_of_mem_children`: what lies below a child lies below the node
- `mem_children_of_child?`, `mem_children_of_mem_content` and the like: the nodes that are read by
  field or by being content are children
-/

namespace JavaOutline.Syntax.Node

mutual

/-- A node followed by all nodes below it. -/
def preorder : Node → List Node
  | n@⟨_, _, _, _, _, _, _, _, _, children⟩ => n :: preorderIn children

/-- The nodes of a list, each followed by all nodes below it. -/
def preorderIn : List Node → List Node
  | [] => []
  | n :: ns => preorder n ++ preorderIn ns

end

/-- The children of a node are smaller than the node. -/
theorem sizeOf_lt_of_mem_children {n c : Node} (h : c ∈ n.children) :
    sizeOf c < sizeOf n := by
  obtain ⟨_, _, _, _, _, _, _, _, _, children⟩ := n
  have hlt : sizeOf c < sizeOf children := List.sizeOf_lt_of_mem h
  simp only [Node.mk.sizeOf_spec]
  omega

/-- The preorder of a list is that of its nodes, one after the other. -/
theorem preorderIn_eq_flatMap (ns : List Node) : preorderIn ns = ns.flatMap preorder := by
  induction ns with
  | nil => rw [preorderIn, List.flatMap_nil]
  | cons n ns ih => rw [preorderIn, ih, List.flatMap_cons]

/-- A node comes first, then what lies below each of its children. -/
theorem preorder_eq (n : Node) : n.preorder = n :: n.children.flatMap preorder := by
  cases n
  rw [preorder, preorderIn_eq_flatMap]

/-- A node is one of its own nodes. -/
@[simp] theorem mem_preorder_self (n : Node) : n ∈ n.preorder := by
  rw [preorder_eq]
  exact List.mem_cons_self

/-- What lies below a child lies below the node. -/
theorem preorder_subset_of_mem_children {n c : Node} (h : c ∈ n.children) :
    c.preorder ⊆ n.preorder := by
  intro m hm
  rw [preorder_eq n]
  exact List.mem_cons_of_mem n (List.mem_flatMap.2 ⟨c, h, hm⟩)

/-- A child is a node below its parent. -/
theorem mem_preorder_of_mem_children {n c : Node} (h : c ∈ n.children) : c ∈ n.preorder :=
  preorder_subset_of_mem_children h c.mem_preorder_self

mutual

/-- What lies below a node of a tree lies in the tree. -/
theorem preorder_subset_of_mem_preorder {m : Node} : {n : Node} → m ∈ n.preorder →
    m.preorder ⊆ n.preorder
  | ⟨_, _, _, _, _, _, _, _, _, children⟩, h => by
    rw [preorder] at h
    rcases List.mem_cons.1 h with rfl | h
    · exact List.Subset.refl _
    · rw [preorder]
      exact List.subset_cons_of_subset _ (preorder_subset_of_mem_preorderIn h)

/-- What lies below a node of some trees lies in these trees. -/
theorem preorder_subset_of_mem_preorderIn {m : Node} : {ns : List Node} → m ∈ preorderIn ns →
    m.preorder ⊆ preorderIn ns
  | n :: ns, h => by
    rw [preorderIn] at h ⊢
    rcases List.mem_append.1 h with h | h
    · exact List.subset_append_of_subset_left _ (preorder_subset_of_mem_preorder h)
    · exact List.subset_append_of_subset_right _ (preorder_subset_of_mem_preorderIn h)

end

/-! ## Nodes that are read -/

/-- The first child under a field is a child. -/
theorem mem_children_of_child? {n c : Node} {field : String} (h : n.child? field = some c) :
    c ∈ n.children :=
  List.mem_of_find?_eq_some h

/-- A child under a field is a child. -/
theorem mem_children_of_mem_childrenAt {n c : Node} {field : String} (h : c ∈ n.childrenAt field) :
    c ∈ n.children :=
  (List.mem_filter.1 h).1

/-- Content nodes are children. -/
theorem mem_children_of_mem_content {n c : Node} (h : c ∈ n.content) : c ∈ n.children :=
  (List.mem_filter.1 h).1

/-- The first content node is a child. -/
theorem mem_children_of_firstContent? {n c : Node} (h : n.firstContent? = some c) :
    c ∈ n.children :=
  List.mem_of_find?_eq_some h

end JavaOutline.Syntax.Node

import JavaOutline.Syntax.Node

/-!
# Comments in a syntax tree

A comment may stand between any two tokens, so it can be a child of any node.  `Sheds` relates a
node to what is left of it when some of the comments below it are deleted, and `uncommented` deletes
them all.  Whichever comments are deleted first, the same tree is left in the end, and the children
that are read of a node, by being content, by field or by kind, are those that are read of it
without its comments.

## Key results

- `Sheds.uncommented_eq`: deleting some comments and then all is deleting all
- `Skips.filter_uncommentedIn`, `Skips.find?_uncommentedIn`: a test that skips comments finds the
  same children
- `content_uncommented`, `firstContent?_uncommented`, `child?_uncommented`,
  `childrenAt_uncommented`: the ways to the children of a node
-/

namespace JavaOutline.Syntax.Node

/-- The kinds of comments. -/
def commentKinds : List String :=
  ["line_comment", "block_comment"]

/-- Whether a node is a comment: an extra node of such a kind that hangs under no field. -/
def isComment (n : Node) : Bool :=
  n.isExtra && n.kind ∈ commentKinds && n.field == ""

/-! ## Deleting comments -/

mutual

/-- Some comments below a node are deleted, each with everything below it.  All other nodes stay
    as they are. -/
inductive Sheds : Node → Node → Prop
  | node {n : Node} {children : List Node} (h : ShedsIn n.children children) :
    Sheds n { n with children := children }

/-- Some comments among and below the nodes of a list are deleted. -/
inductive ShedsIn : List Node → List Node → Prop
  | nil : ShedsIn [] []
  | keep {n m : Node} {ns ms : List Node} (h : Sheds n m) (hs : ShedsIn ns ms) :
    ShedsIn (n :: ns) (m :: ms)
  | delete {n : Node} {ns ms : List Node} (h : n.isComment = true) (hs : ShedsIn ns ms) :
    ShedsIn (n :: ns) ms

end

mutual

/-- It is possible to delete none. -/
theorem Sheds.refl : (n : Node) → n.Sheds n
  | ⟨_, _, _, _, _, _, _, _, _, children⟩ => .node (ShedsIn.refl children)

/-- The same for the nodes of a list. -/
theorem ShedsIn.refl : (ns : List Node) → ShedsIn ns ns
  | [] => .nil
  | n :: ns => .keep (Sheds.refl n) (ShedsIn.refl ns)

end

mutual

/-- What is left of a node when all comments below it are deleted. -/
def uncommented : Node → Node
  | ⟨kind, field, start, stop, isNamed, isExtra, isMissing, isError, hasError, children⟩ =>
    ⟨kind, field, start, stop, isNamed, isExtra, isMissing, isError, hasError,
      uncommentedIn children⟩

/-- What is left of the nodes of a list. -/
def uncommentedIn : List Node → List Node
  | [] => []
  | n :: ns => if n.isComment then uncommentedIn ns else uncommented n :: uncommentedIn ns

end

/-- The nodes of a list that are no comments are left. -/
theorem uncommentedIn_eq (ns : List Node) :
    uncommentedIn ns = (ns.filter (!·.isComment)).map uncommented := by
  induction ns with
  | nil => rfl
  | cons n ns ih =>
    rw [uncommentedIn, List.filter_cons]
    cases n.isComment with
    | true => exact ih
    | false => exact congrArg (n.uncommented :: ·) ih

/-- Only the children of a node change. -/
theorem uncommented_eq (n : Node) :
    n.uncommented = { n with children := uncommentedIn n.children } := by
  cases n
  rfl

mutual

/-- Deleting some comments and then all is deleting all. -/
theorem Sheds.uncommented_eq {n m : Node} (h : n.Sheds m) : m.uncommented = n.uncommented := by
  match h with
  | .node hs => rw [Node.uncommented_eq, Node.uncommented_eq n, hs.uncommentedIn_eq]

/-- The same for the nodes of a list. -/
theorem ShedsIn.uncommentedIn_eq {ns ms : List Node} (h : ShedsIn ns ms) :
    uncommentedIn ms = uncommentedIn ns := by
  match h with
  | .nil => rfl
  | .keep (n := n) (m := m) h hs =>
    -- A comment may also be kept for now; it is still one.
    have hcomment : m.isComment = n.isComment := by
      cases h
      rfl
    rw [uncommentedIn, uncommentedIn, hcomment, h.uncommented_eq, hs.uncommentedIn_eq]
  | .delete h hs => rw [uncommentedIn, if_pos h, hs.uncommentedIn_eq]

end

/-! ## What is unchanged about a node -/

section

variable (n : Node)

@[simp] theorem kind_uncommented : n.uncommented.kind = n.kind := by
  rw [uncommented_eq]

@[simp] theorem field_uncommented : n.uncommented.field = n.field := by
  rw [uncommented_eq]

@[simp] theorem isExtra_uncommented : n.uncommented.isExtra = n.isExtra := by
  rw [uncommented_eq]

@[simp] theorem isContent_uncommented : n.uncommented.isContent = n.isContent := by
  rw [uncommented_eq]
  rfl

@[simp] theorem children_uncommented : n.uncommented.children = uncommentedIn n.children := by
  rw [uncommented_eq]

@[simp] theorem text_uncommented (source : Bytes) :
    n.uncommented.text source = n.text source := by
  rw [uncommented_eq]
  rfl

@[simp] theorem text?_uncommented (source : Bytes) :
    n.uncommented.text? source = n.text? source := by
  rw [uncommented_eq]
  rfl

@[simp] theorem line_uncommented (source : Bytes) :
    n.uncommented.line source = n.line source := by
  rw [uncommented_eq]
  rfl

end

/-! ## Finding children -/

/-- A test that finds no comment and looks at nothing below a node. -/
structure Skips (p : Node → Bool) : Prop where
  isComment : ∀ n, n.isComment = true → p n = false
  uncommented : ∀ n, p n.uncommented = p n

namespace Skips

/-- Content is no comment. -/
theorem isContent : Skips isContent where
  isComment n h := by
    simp only [Node.isComment, Bool.and_eq_true] at h
    simp [Node.isContent, h.1.1]
  uncommented := isContent_uncommented

/-- Nothing extra is wanted. -/
theorem not_isExtra : Skips (!·.isExtra) where
  isComment n h := by
    simp only [Node.isComment, Bool.and_eq_true] at h
    simp [h.1.1]
  uncommented n := by rw [isExtra_uncommented]

/-- A comment is under no field. -/
theorem field {field : String} (h : field ≠ "") : Skips (·.field == field) where
  isComment n hn := by
    simp only [Node.isComment, Bool.and_eq_true, beq_iff_eq] at hn
    simp [hn.2, h.symm]
  uncommented n := by rw [field_uncommented]

/-- A comment has the kind of a comment. -/
theorem kind {kind : String} (h : kind ∉ commentKinds) : Skips (·.kind == kind) where
  isComment n hn := by
    simp only [Node.isComment, Bool.and_eq_true, decide_eq_true_eq] at hn
    rw [beq_eq_false_iff_ne]
    rintro rfl
    exact h hn.1.2
  uncommented n := by rw [kind_uncommented]

variable {p : Node → Bool}

/-- The same nodes are found when the comments are deleted. -/
theorem filter_uncommentedIn (hp : Skips p) (ns : List Node) :
    (uncommentedIn ns).filter p = (ns.filter p).map Node.uncommented := by
  have hcongr : p ∘ Node.uncommented = p := funext hp.uncommented
  have hskip : ∀ n, (p n && !n.isComment) = p n := by
    intro n
    cases hn : n.isComment with
    | true => rw [hp.isComment n hn, Bool.false_and]
    | false => rw [Bool.not_false, Bool.and_true]
  rw [uncommentedIn_eq, List.filter_map, hcongr, List.filter_filter]
  simp only [hskip]

/-- The same node is found first. -/
theorem find?_uncommentedIn (hp : Skips p) (ns : List Node) :
    (uncommentedIn ns).find? p = (ns.find? p).map Node.uncommented := by
  rw [← List.head?_filter, ← List.head?_filter, hp.filter_uncommentedIn, List.head?_map]

end Skips

section

variable (n : Node)

@[simp] theorem content_uncommented : n.uncommented.content = n.content.map uncommented := by
  rw [content, children_uncommented, Skips.isContent.filter_uncommentedIn]
  rfl

@[simp] theorem firstContent?_uncommented :
    n.uncommented.firstContent? = n.firstContent?.map uncommented := by
  rw [firstContent?, children_uncommented, Skips.isContent.find?_uncommentedIn]
  rfl

@[simp] theorem child?_uncommented {field : String} (h : field ≠ "") :
    n.uncommented.child? field = (n.child? field).map uncommented := by
  rw [child?, children_uncommented, (Skips.field h).find?_uncommentedIn]
  rfl

@[simp] theorem childrenAt_uncommented {field : String} (h : field ≠ "") :
    n.uncommented.childrenAt field = (n.childrenAt field).map uncommented := by
  rw [childrenAt, children_uncommented, (Skips.field h).filter_uncommentedIn]
  rfl

@[simp] theorem fieldText?_uncommented (source : Bytes) {field : String} (h : field ≠ "") :
    n.uncommented.fieldText? source field = n.fieldText? source field := by
  rw [fieldText?, child?_uncommented n h, Option.map_map, fieldText?]
  congr 1
  funext c
  exact c.text_uncommented source

end

end JavaOutline.Syntax.Node

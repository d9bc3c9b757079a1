import JavaOutline.Text.Utf8

/-! # Syntax trees

A `Syntax.Node` is a node of the concrete syntax tree of one source: its kind, the field it hangs
under, the bytes it covers, and its children, comments and punctuation included.  The tree itself
comes from a Java parser, which is not part of this library.

`Node.ofPreorder?` rebuilds a tree from the flat list of its nodes.
-/

namespace JavaOutline.Syntax

/-- A node of a syntax tree. -/
structure Node where
  kind : String
  /-- The field under which the node hangs below its parent, empty for none. -/
  field : String := ""
  /-- The first byte. -/
  start : Nat := 0
  /-- The byte behind the last one. -/
  stop : Nat := 0
  isNamed : Bool := false
  /-- A comment, which may stand anywhere. -/
  isExtra : Bool := false
  /-- Inserted by the parser to go on. -/
  isMissing : Bool := false
  /-- Holds input that the parser could not place. -/
  isError : Bool := false
  /-- Whether the node or one below it is an error or missing. -/
  hasError : Bool := false
  children : List Node := []
deriving Inhabited

namespace Node

/-! ## Children -/

/-- Whether a node counts as content: named and no comment. -/
def isContent (n : Node) : Bool :=
  n.isNamed && !n.isExtra

/-- The named children without comments. -/
def content (n : Node) : List Node :=
  n.children.filter isContent

/-- The first named child that is no comment. -/
def firstContent? (n : Node) : Option Node :=
  n.children.find? isContent

/-- The first child under `field`. -/
def child? (n : Node) (field : String) : Option Node :=
  n.children.find? (·.field == field)

/-- All children under `field`. -/
def childrenAt (n : Node) (field : String) : List Node :=
  n.children.filter (·.field == field)

/-! ## Texts and positions -/

/-- The bytes that a node covers. -/
def bytes (source : Bytes) (n : Node) : Bytes :=
  (source.drop n.start).take (n.stop - n.start)

/-- The text that a node covers, if its bytes are one. -/
def text? (source : Bytes) (n : Node) : Option String :=
  ofUtf8? (n.bytes source)

/-- The text that a node covers, empty if its bytes are none. -/
def text (source : Bytes) (n : Node) : String :=
  (n.text? source).getD ""

/-- The text of the first child under `field`. -/
def fieldText? (source : Bytes) (n : Node) (field : String) : Option String :=
  (n.child? field).map (text source)

/-- The line on which a node starts, from one. -/
def line (source : Bytes) (n : Node) : Nat :=
  (source.take n.start).count 0x0a + 1

/-- The column at which a node starts, in bytes and from one. -/
def column (source : Bytes) (n : Node) : Nat :=
  ((source.take n.start).reverse.takeWhile (· != 0x0a)).length + 1

/-! ## Errors -/

mutual

/-- The first node in pre-order that is an error or missing.  Subtrees that report no error are
    not searched. -/
def firstError? : Node → Option Node
  | n@⟨_, _, _, _, _, _, isMissing, isError, hasError, children⟩ =>
    if isError || isMissing then some n
    else if hasError then firstErrorIn? children
    else none

/-- The first error among the nodes of a list. -/
def firstErrorIn? : List Node → Option Node
  | [] => none
  | n :: ns =>
    match firstError? n with
    | some e => some e
    | none => firstErrorIn? ns

end

/-! ## Flat form -/

/-- One node of a flat tree: what the node says of itself, and how many children follow. -/
structure Entry where
  node : Node
  childCount : Nat

/-- Puts a node on top of the trees that follow it, taking its children from them. -/
def Entry.build? (e : Entry) (trees : List Node) : Option (List Node) :=
  if e.childCount ≤ trees.length then
    some ({ e.node with children := trees.take e.childCount } :: trees.drop e.childCount)
  else none

/-- The tree whose nodes in pre-order are `entries`. -/
def ofPreorder? (entries : List Entry) : Option Node :=
  match entries.foldr (fun e trees => trees.bind e.build?) (some []) with
  | some [root] => some root
  | _ => none

end Node

end JavaOutline.Syntax

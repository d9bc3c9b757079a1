import JavaOutline.Syntax.Node
import Mathlib.Data.List.Lex

/-!
# Places in trees

A node of a syntax tree is told from its twins by its path, the positions of the children on the way
to it.  Source order is the lexicographic order of paths.

An item of a forest is told by its address in the same way: the position in the list where it
stands, behind the address of the item below which that list is.  Addresses and paths have the same
order if each list is in source order and paths grow downwards.

## Key results

- `Forest.lt_of_itemAt?`: addresses and paths have the same order
- `Syntax.Node.mem_members`: the members of a body, the inner part of an enum body opened
- `Syntax.Node.pairwise_precedes_members`: members are listed in source order
-/

namespace JavaOutline

/-! ## Paths -/

/-- Whether one path branches off to a place in front of another. -/
def Precedes (p q : List Nat) : Prop :=
  ∃ shared i p' j q', p = shared ++ i :: p' ∧ q = shared ++ j :: q' ∧ i < j

namespace Precedes

variable {p q : List Nat}

/-- Below different branches. -/
theorem of_lt {i j : Nat} (h : i < j) (p q : List Nat) : Precedes (i :: p) (j :: q) :=
  ⟨[], i, p, j, q, rfl, rfl, h⟩

/-- A shared start does not matter. -/
theorem append_left (h : Precedes p q) (shared : List Nat) :
    Precedes (shared ++ p) (shared ++ q) := by
  obtain ⟨first, i, p', j, q', rfl, rfl, hlt⟩ := h
  exact ⟨shared ++ first, i, p', j, q', by simp, by simp, hlt⟩

/-- Whatever follows, a path that branches off in front is smaller. -/
theorem lt (h : Precedes p q) (r s : List Nat) : p ++ r < q ++ s := by
  obtain ⟨shared, i, p', j, q', rfl, rfl, hlt⟩ := h
  rw [List.append_assoc, List.append_assoc]
  exact List.append_left_lt (List.cons_lt_cons_iff.2 (.inl hlt))

end Precedes

/-! ## Forests -/

namespace Forest

variable {α : Type} (below : α → List α)

/-- The item at an address, where `below` lists the items that stand directly below an item. -/
def itemAt? : List α → List Nat → Option α
  | _, [] => none
  | items, k :: address =>
    items[k]?.bind fun a => if address = [] then some a else itemAt? (below a) address

@[simp] theorem itemAt?_nil (items : List α) : itemAt? below items [] = none := by
  rw [itemAt?]

/-- The item at one position is an item of the list. -/
@[simp] theorem itemAt?_singleton (items : List α) (k : Nat) :
    itemAt? below items [k] = items[k]? := by
  rw [itemAt?]
  simp

/-- An address with more than one position goes on below the item at the first. -/
theorem itemAt?_cons {items : List α} {k : Nat} {address : List Nat} (h : address ≠ []) :
    itemAt? below items (k :: address) =
      items[k]?.bind fun a => itemAt? below (below a) address := by
  rw [itemAt?]
  simp [h]

/-- The last position of an address is one in the list below the item in front of it. -/
theorem itemAt?_concat {items : List α} {address : List Nat} (h : address ≠ []) (k : Nat) :
    itemAt? below items (address ++ [k]) =
      (itemAt? below items address).bind fun a => (below a)[k]? := by
  induction address generalizing items with
  | nil => exact absurd rfl h
  | cons first address ih =>
    by_cases hlast : address = []
    -- An address of one number: the item itself, whose children are asked next.
    · subst hlast
      simp [itemAt?_cons below (List.cons_ne_nil k [])]
    · rw [List.cons_append, itemAt?_cons below (by simp), itemAt?_cons below hlast,
        Option.bind_assoc]
      congr 1
      funext a
      exact ih hlast

variable {path : α → List Nat}

/-- Whether what stands below an item comes in source order, on paths that go on from its own. -/
def GrowsDown (path : α → List Nat) : Prop :=
  ∀ a, (below a).Pairwise (fun b c => Precedes (path b) (path c)) ∧
    ∀ b ∈ below a, ∃ q, q ≠ [] ∧ path b = path a ++ q

/-- What is found below an item has a longer path. -/
theorem exists_path_of_itemAt? (h : GrowsDown below path) {a b : α} {address : List Nat}
    (hb : itemAt? below (below a) address = some b) : ∃ q, q ≠ [] ∧ path b = path a ++ q := by
  induction address generalizing a with
  | nil =>
    rw [itemAt?_nil] at hb
    exact nomatch hb
  | cons k address ih =>
    by_cases hlast : address = []
    -- One step down makes the path longer.
    · subst hlast
      rw [itemAt?_singleton] at hb
      exact (h a).2 b (List.mem_of_getElem? hb)
    -- A longer address is one step down and then, by induction, a longer path again.
    · rw [itemAt?_cons below hlast] at hb
      obtain ⟨c, hc, hb⟩ := Option.bind_eq_some_iff.1 hb
      obtain ⟨q, hq, hpath⟩ := (h a).2 c (List.mem_of_getElem? hc)
      obtain ⟨r, -, hpath'⟩ := ih hb
      exact ⟨q ++ r, by simp [hq], by rw [hpath', hpath, List.append_assoc]⟩

/-- The first item on the way to an address. -/
theorem exists_first_of_itemAt? (h : GrowsDown below path) {items : List α} {a : α} {k : Nat}
    {address : List Nat} (ha : itemAt? below items (k :: address) = some a) :
    ∃ first q, items[k]? = some first ∧ path a = path first ++ q ∧
      (address = [] → a = first) ∧
      (address ≠ [] → q ≠ [] ∧ itemAt? below (below first) address = some a) := by
  by_cases hlast : address = []
  -- The item is the first one itself, and nothing is added to its path.
  · subst hlast
    rw [itemAt?_singleton] at ha
    exact ⟨a, [], ha, by simp, fun _ => rfl, fun hne => absurd rfl hne⟩
  -- The item lies below the first one, on a proper extension of its path.
  · rw [itemAt?_cons below hlast] at ha
    obtain ⟨first, hfirst, ha⟩ := Option.bind_eq_some_iff.1 ha
    obtain ⟨q, hq, hpath⟩ := exists_path_of_itemAt? below h ha
    exact ⟨first, q, hfirst, hpath, fun he => absurd he hlast, fun _ => ⟨hq, ha⟩⟩

/-- Addresses and paths have the same order. -/
theorem lt_of_itemAt? (h : GrowsDown below path) {items : List α}
    (hitems : items.Pairwise fun b c => Precedes (path b) (path c)) {a b : α} {s t : List Nat}
    (ha : itemAt? below items s = some a) (hb : itemAt? below items t = some b) (hlt : s < t) :
    path a < path b := by
  induction s generalizing items t with
  | nil =>
    rw [itemAt?_nil] at ha
    exact nomatch ha
  | cons k s ih =>
    cases t with
    | nil =>
      rw [itemAt?_nil] at hb
      exact nomatch hb
    | cons l t =>
      obtain ⟨x, p, hx, hpa, haend, hago⟩ := exists_first_of_itemAt? below h ha
      obtain ⟨y, q, hy, hpb, hbend, hbgo⟩ := exists_first_of_itemAt? below h hb
      rcases List.cons_lt_cons_iff.1 hlt with hkl | ⟨rfl, hst⟩
      · -- Both go down from different items of the list.
        obtain ⟨hk, rfl⟩ := List.getElem?_eq_some_iff.1 hx
        obtain ⟨hl, rfl⟩ := List.getElem?_eq_some_iff.1 hy
        rw [hpa, hpb]
        exact (List.pairwise_iff_getElem.1 hitems k l hk hl hkl).lt p q
      · obtain rfl : x = y := Option.some.inj (hx.symm.trans hy)
        have ht : t ≠ [] := by
          rintro rfl
          exact List.not_lt_nil s hst
        obtain ⟨hq, hb⟩ := hbgo ht
        by_cases hs : s = []
        · -- The first is the item itself, the second stands below it.
          obtain ⟨i, q, rfl⟩ := List.exists_cons_of_ne_nil hq
          have hlonger : path x ++ [] < path x ++ i :: q :=
            List.append_left_lt (List.nil_lt_cons i q)
          rw [haend hs, hpb]
          rwa [List.append_nil] at hlonger
        · exact ih (h x).1 (hago hs).2 hb hst

/-- Addresses are as ordered as paths. -/
theorem lt_iff_of_itemAt? (h : GrowsDown below path) {items : List α}
    (hitems : items.Pairwise fun b c => Precedes (path b) (path c)) {a b : α} {s t : List Nat}
    (ha : itemAt? below items s = some a) (hb : itemAt? below items t = some b) :
    s < t ↔ path a < path b := by
  refine ⟨lt_of_itemAt? below h hitems ha hb, fun hlt => ?_⟩
  rcases lt_trichotomy s t with hst | rfl | hst
  · exact hst
  · obtain rfl : a = b := Option.some.inj (ha.symm.trans hb)
    exact absurd hlt (List.lt_irrefl _)
  · exact absurd (lt_of_itemAt? below h hitems hb ha hst) (List.lt_asymm hlt)

end Forest

/-! ## Members of bodies -/

namespace Syntax.Node

/-- The first child under `field` with its position. -/
def place? (n : Node) (field : String) : Option (Node × Nat) :=
  n.children.zipIdx.find? (·.1.field == field)

/-- Without its position it is the first child under `field`. -/
theorem map_fst_place? (n : Node) (field : String) :
    (n.place? field).map Prod.fst = n.child? field := by
  have hmap := List.find?_map (p := fun c : Node => c.field == field) (f := Prod.fst)
    (l := n.children.zipIdx)
  rw [List.zipIdx_map_fst] at hmap
  exact hmap.symm

/-- The kind of the part of an enum body that is behind its constants. -/
def enumBodyKind : String := "enum_body_declarations"

mutual

/-- The members of a body with their paths: its content, where the part of an enum body behind the
    constants gives way to its own members. -/
def members : Node → List (List Nat × Node)
  | ⟨_, _, _, _, _, _, _, _, _, children⟩ => membersFrom 0 children

/-- The members at the nodes of a list, the first of which is the child at position `i`. -/
def membersFrom (i : Nat) : List Node → List (List Nat × Node)
  | [] => []
  | n :: ns =>
    (if n.isContent then
      if n.kind = enumBodyKind then (members n).map fun m => (i :: m.1, m.2) else [([i], n)]
    else []) ++ membersFrom (i + 1) ns

end

/-- The members at the child at position `i`. -/
def membersAt (c : Node) (i : Nat) : List (List Nat × Node) :=
  if c.isContent then
    if c.kind = enumBodyKind then c.members.map fun m => (i :: m.1, m.2) else [([i], c)]
  else []

/-- The members of a list are those at its nodes, one after the other. -/
theorem membersFrom_eq_flatMap (i : Nat) (ns : List Node) :
    membersFrom i ns = (ns.zipIdx i).flatMap fun p => membersAt p.1 p.2 := by
  induction ns generalizing i with
  | nil => rw [membersFrom]; rfl
  | cons n ns ih => rw [membersFrom, ih, List.zipIdx_cons, List.flatMap_cons]; rfl

/-- The members of a body are those at its children, one after the other. -/
theorem members_eq_flatMap (n : Node) :
    n.members = n.children.zipIdx.flatMap fun p => membersAt p.1 p.2 := by
  cases n
  rw [members, membersFrom_eq_flatMap]

/-- The path of a member at a child starts with the position of the child. -/
theorem exists_cons_of_mem_membersAt {c : Node} {i : Nat} {m : List Nat × Node}
    (h : m ∈ c.membersAt i) : ∃ q, m.1 = i :: q := by
  unfold membersAt at h
  split at h
  · split at h
    · obtain ⟨m', -, rfl⟩ := List.mem_map.1 h
      exact ⟨m'.1, rfl⟩
    · rw [List.mem_singleton] at h
      exact ⟨[], by rw [h]⟩
  · exact nomatch h

/-- A member stands at a child that is content: it is the child, or a member of the child if that
    is the inner part of an enum body. -/
theorem mem_members {n : Node} {m : List Nat × Node} :
    m ∈ n.members ↔ ∃ i c, n.children[i]? = some c ∧ c.isContent = true ∧
      (c.kind ≠ enumBodyKind ∧ m = ([i], c) ∨
        c.kind = enumBodyKind ∧ ∃ m' ∈ c.members, m = (i :: m'.1, m'.2)) := by
  rw [members_eq_flatMap, List.mem_flatMap]
  constructor
  -- From the list: a content child gives its own members if it is an enum body, and else itself.
  · rintro ⟨⟨c, i⟩, hc, hm⟩
    refine ⟨i, c, List.mem_zipIdx_iff_getElem?.1 hc, ?_⟩
    unfold membersAt at hm
    split at hm
    · rename_i hcontent
      split at hm
      · rename_i hkind
        obtain ⟨m', hm', rfl⟩ := List.mem_map.1 hm
        exact ⟨hcontent, .inr ⟨hkind, m', hm', rfl⟩⟩
      · rename_i hkind
        exact ⟨hcontent, .inl ⟨hkind, List.mem_singleton.1 hm⟩⟩
    · exact nomatch hm
  -- Back: either case is an element of the list at that child.
  · rintro ⟨i, c, hc, hcontent, ⟨hkind, rfl⟩ | ⟨hkind, m', hm', rfl⟩⟩
    · exact ⟨(c, i), List.mem_zipIdx_iff_getElem?.2 hc, by simp [membersAt, hcontent, hkind]⟩
    · refine ⟨(c, i), List.mem_zipIdx_iff_getElem?.2 hc, ?_⟩
      simp only [membersAt, hcontent, hkind, if_true]
      exact List.mem_map.2 ⟨m', hm', rfl⟩

/-- No member is at its body itself. -/
theorem ne_nil_of_mem_members {n : Node} {m : List Nat × Node} (h : m ∈ n.members) :
    m.1 ≠ [] := by
  obtain ⟨i, c, -, -, ⟨-, rfl⟩ | ⟨-, m', -, rfl⟩⟩ := mem_members.1 h <;> simp

mutual

/-- Members are listed in source order. -/
theorem pairwise_precedes_members : (n : Node) →
    n.members.Pairwise fun a b => Precedes a.1 b.1
  | ⟨_, _, _, _, _, _, _, _, _, children⟩ => by
    rw [members]
    exact pairwise_precedes_membersFrom 0 children

/-- The members at the nodes of a list are listed in source order. -/
theorem pairwise_precedes_membersFrom : (i : Nat) → (ns : List Node) →
    (membersFrom i ns).Pairwise fun a b => Precedes a.1 b.1
  | i, [] => by
    rw [membersFrom]
    exact List.Pairwise.nil
  | i, n :: ns => by
    have hhere : (n.membersAt i).Pairwise fun a b => Precedes a.1 b.1 := by
      unfold membersAt
      split
      · split
        · rw [List.pairwise_map]
          exact (pairwise_precedes_members n).imp fun h => h.append_left [i]
        · exact List.pairwise_singleton _ _
      · exact List.Pairwise.nil
    rw [membersFrom, List.pairwise_append]
    refine ⟨hhere, pairwise_precedes_membersFrom (i + 1) ns, fun a ha b hb => ?_⟩
    -- What comes later stands at a child with a larger position.
    obtain ⟨p, hp⟩ := exists_cons_of_mem_membersAt (show a ∈ n.membersAt i from ha)
    rw [membersFrom_eq_flatMap] at hb
    obtain ⟨⟨c, j⟩, hc, hb⟩ := List.mem_flatMap.1 hb
    obtain ⟨q, hq⟩ := exists_cons_of_mem_membersAt hb
    have hle := List.le_snd_of_mem_zipIdx hc
    rw [hp, hq]
    exact Precedes.of_lt (by omega) p q

end

end Syntax.Node

end JavaOutline

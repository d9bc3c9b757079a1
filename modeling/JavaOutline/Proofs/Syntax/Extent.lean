import JavaOutline.Proofs.Syntax.Preorder

/-!
# The bytes that nodes cover

A node covers the bytes from its start to its stop.  In an ordered tree the children of a node lie
within it, one behind the other, so whatever lies below a node lies within it too, and the preorder
of the tree is in source order.

## Key results

- `IsOrdered.within`: a node below another one lies within it
- `IsOrdered.pairwise_preorder`: no node starts in front of one that comes before it in preorder
-/

namespace JavaOutline.Syntax.Node

/-- Whether the children of a node lie within it, one behind the other.  A node may cover no byte
    at all. -/
structure Ordered (n : Node) : Prop where
  start_le_stop : n.start ≤ n.stop
  within : ∀ c ∈ n.children, n.start ≤ c.start ∧ c.stop ≤ n.stop
  siblings : n.children.Pairwise fun a b => a.stop ≤ b.start

instance (n : Node) : Decidable n.Ordered :=
  decidable_of_iff (n.start ≤ n.stop ∧ (∀ c ∈ n.children, n.start ≤ c.start ∧ c.stop ≤ n.stop) ∧
      n.children.Pairwise fun a b => a.stop ≤ b.start)
    ⟨fun ⟨hstop, hwithin, hsiblings⟩ => ⟨hstop, hwithin, hsiblings⟩,
      fun h => ⟨h.start_le_stop, h.within, h.siblings⟩⟩

/-- A tree all of whose nodes have their children within them, one behind the other. -/
def IsOrdered (n : Node) : Prop :=
  ∀ m ∈ n.preorder, m.Ordered

instance (n : Node) : Decidable n.IsOrdered :=
  inferInstanceAs (Decidable (∀ m ∈ n.preorder, m.Ordered))

namespace IsOrdered

/-- The root of an ordered tree is ordered. -/
theorem ordered {n : Node} (h : n.IsOrdered) : n.Ordered :=
  h n n.mem_preorder_self

/-- The trees below an ordered one are ordered. -/
theorem child {n c : Node} (h : n.IsOrdered) (hc : c ∈ n.children) : c.IsOrdered :=
  fun m hm => h m (preorder_subset_of_mem_children hc hm)

/-- What lies below a node lies within it. -/
theorem within {n m : Node} (h : n.IsOrdered) (hm : m ∈ n.preorder) :
    n.start ≤ m.start ∧ m.start ≤ m.stop ∧ m.stop ≤ n.stop := by
  rw [preorder_eq] at hm
  rcases List.mem_cons.1 hm with rfl | hm
  · exact ⟨Nat.le_refl _, h.ordered.start_le_stop, Nat.le_refl _⟩
  · obtain ⟨c, hc, hm⟩ := List.mem_flatMap.1 hm
    have hbelow := (h.child hc).within hm
    have hchild := h.ordered.within c hc
    omega
termination_by sizeOf n
decreasing_by exact sizeOf_lt_of_mem_children hc

/-- What lies below different siblings lies one behind the other. -/
theorem stop_le_start {a b x y : Node} (ha : a.IsOrdered) (hb : b.IsOrdered)
    (hab : a.stop ≤ b.start) (hx : x ∈ a.preorder) (hy : y ∈ b.preorder) : x.stop ≤ y.start :=
  Nat.le_trans (Nat.le_trans (ha.within hx).2.2 hab) (hb.within hy).1

mutual

/-- The preorder of an ordered tree is in source order. -/
theorem pairwise_preorder : (n : Node) → n.IsOrdered →
    n.preorder.Pairwise fun a b => a.start ≤ b.start
  | ⟨_, _, _, _, _, _, _, _, _, children⟩, h => by
    have hbelow := pairwise_preorderIn children (fun c hc => h.child hc) h.ordered.siblings
    rw [preorder, List.pairwise_cons]
    refine ⟨fun m hm => (h.within ?_).1, hbelow⟩
    rw [preorder]
    exact List.mem_cons_of_mem _ hm

/-- So is that of ordered trees one behind the other. -/
theorem pairwise_preorderIn : (ns : List Node) → (∀ n ∈ ns, n.IsOrdered) →
    (ns.Pairwise fun a b => a.stop ≤ b.start) →
    (preorderIn ns).Pairwise fun a b => a.start ≤ b.start
  | [], _, _ => by
    rw [preorderIn]
    exact .nil
  | n :: ns, h, hsiblings => by
    rw [List.forall_mem_cons] at h
    rw [List.pairwise_cons] at hsiblings
    rw [preorderIn, List.pairwise_append]
    refine ⟨pairwise_preorder n h.1, pairwise_preorderIn ns h.2 hsiblings.2, ?_⟩
    -- A node below the first sibling and one below a later sibling: the siblings do not overlap.
    intro x hx y hy
    rw [preorderIn_eq_flatMap] at hy
    obtain ⟨m, hm, hy⟩ := List.mem_flatMap.1 hy
    have hdisjoint := stop_le_start h.1 (h.2 m hm) (hsiblings.1 m hm) hx hy
    exact Nat.le_trans (h.1.within hx).2.1 hdisjoint

end

end IsOrdered

end JavaOutline.Syntax.Node

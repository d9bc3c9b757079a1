import JavaOutline.Outline.Query
import Mathlib.Data.List.TakeWhile

/-!
# Declarations in pre-order

The declarations of an outline are found by an iteration with a stack: a call takes the last pending
declaration off and puts the declarations nested in it on, the first of them last.  The iteration
ends, and what it yields is the pre-order by plain recursion: every declaration once, in front of
the ones nested in it, and siblings in the order of the source.

The benchmark methods are found on the way.  An annotation counts by the last part of its name.

## Key results

- `yields_iff`: what the iteration yields from any stack
- `isBenchmark_iff`: which methods are benchmarks
- `declarations_in_preorder`: the declarations and the benchmark methods of an outline
-/

namespace JavaOutline

/-! ## Iterating with a stack -/

namespace TypeDecl

/-- One call of an iteration: the declaration it yields and the stack it leaves.  The top of the
    stack is its last element. -/
def next? (stack : List TypeDecl) : Option (TypeDecl × List TypeDecl) :=
  stack.getLast?.map fun d => (d, stack.dropLast ++ d.nested.reverse)

/-- An iteration from `stack` yields these declarations, one with each call, and then it ends. -/
inductive Yields : (stack ds : List TypeDecl) → Prop where
  | done {stack : List TypeDecl} (h : next? stack = none) : Yields stack []
  | call {stack rest ds : List TypeDecl} {d : TypeDecl} (h : next? stack = some (d, rest))
      (hrest : Yields rest ds) : Yields stack (d :: ds)

/-- Nothing is pending on an empty stack. -/
theorem next?_nil : next? [] = none := rfl

/-- With the top of the stack in front, its nested declarations take its place there. -/
theorem next?_reverse_cons (d : TypeDecl) (stack : List TypeDecl) :
    next? (d :: stack).reverse = some (d, (d.nested ++ stack).reverse) := by
  simp [next?]

/-- A declaration comes in front of what is nested in it. -/
theorem preorder_eq (d : TypeDecl) : d.preorder = d :: preorderList d.nested := by
  obtain ⟨_, _, _, _, _, _⟩ := d
  rw [preorder]

/-- The pre-order of a forest is that of its trees, one behind the other. -/
theorem preorderList_eq_flatMap (ds : List TypeDecl) : preorderList ds = ds.flatMap preorder := by
  induction ds with
  | nil => rw [preorderList]; rfl
  | cons d ds ih => rw [preorderList, ih, List.flatMap_cons]

/-- A walk with a stack visits the pending declarations in pre-order. -/
theorem walkStack_eq_preorderList (stack : List TypeDecl) :
    walkStack stack = preorderList stack := by
  -- The recursion is that of the walk: the stack may get longer, but fewer declarations are left.
  induction stack using walkStack.induct with
  | case1 => rw [walkStack, preorderList]
  | case2 d stack ih =>
    calc walkStack (d :: stack)
        = d :: walkStack (d.nested ++ stack) := by rw [walkStack]
      _ = d :: (preorderList d.nested ++ preorderList stack) := by
          rw [ih, preorderList_eq_flatMap, List.flatMap_append, ← preorderList_eq_flatMap,
            ← preorderList_eq_flatMap]
      _ = d.preorder ++ preorderList stack := by rw [preorder_eq, List.cons_append]
      _ = preorderList (d :: stack) := by rw [preorderList]

/-- A walk from one declaration visits it and what is nested in it. -/
theorem walk_eq_preorder (d : TypeDecl) : d.walk = d.preorder := by
  rw [walk, walkStack_eq_preorderList, preorderList_eq_flatMap, List.flatMap_singleton]

/-- An iteration ends, having yielded the pending declarations in pre-order. -/
theorem yields_preorderList (stack : List TypeDecl) :
    Yields stack.reverse (preorderList stack) := by
  rw [← walkStack_eq_preorderList]
  induction stack using walkStack.induct with
  | case1 =>
    rw [walkStack]
    exact .done next?_nil
  | case2 d stack ih =>
    rw [walkStack]
    exact .call (next?_reverse_cons d stack) ih

/-- A stack yields one list only, as each call has one result. -/
theorem Yields.unique {stack ds es : List TypeDecl} (hds : Yields stack ds)
    (hes : Yields stack es) : ds = es := by
  induction hds generalizing es with
  -- Whether the stack is at its end is a matter of the stack, so the two runs end together.
  | done h =>
    cases hes with
    | done => rfl
    | call h' => exact nomatch h.symm.trans h'
  | call h _ ih =>
    cases hes with
    | done h' => exact nomatch h.symm.trans h'
    | call h' hrest' =>
      -- And a call takes the same declaration off in both.
      cases h.symm.trans h'
      rw [ih hrest']

/-- What an iteration yields, from any stack. -/
theorem yields_iff {stack ds : List TypeDecl} :
    Yields stack.reverse ds ↔ ds = preorderList stack := by
  constructor
  · exact fun h => h.unique (yields_preorderList stack)
  · rintro rfl
    exact yields_preorderList stack

end TypeDecl

/-! ## Annotations by the last part of their names -/

/-- `part` is what a dotted name ends in: the text behind its last dot, or all of it without one. -/
def IsLastPart (part name : String) : Prop :=
  '.' ∉ part.toList ∧ (name = part ∨ ∃ qualifier, name = qualifier ++ "." ++ part)

/-- A list ends in the longest part of its end without `c`; in front of this part stands `c`, if
    anything does. -/
theorem reverse_takeWhile_reverse_eq_iff {c : Char} {cs part : List Char} :
    (cs.reverse.takeWhile (· != c)).reverse = part ↔
      c ∉ part ∧ (cs = part ∨ ∃ before, cs = before ++ c :: part) := by
  constructor
  · rintro rfl
    refine ⟨fun hmem => ?_, ?_⟩
    · have hne := List.mem_takeWhile_imp (List.mem_reverse.1 hmem)
      simp at hne
    · -- What is dropped from the end is empty or starts with the character.
      have hsplit : cs.reverse.takeWhile (· != c) ++ cs.reverse.dropWhile (· != c) = cs.reverse :=
        List.takeWhile_append_dropWhile
      cases hdrop : cs.reverse.dropWhile (· != c) with
      | nil =>
        left
        rw [hdrop, List.append_nil] at hsplit
        rw [hsplit, List.reverse_reverse]
      | cons d ds =>
        right
        have hd : d = c := by
          have hhead := List.head?_dropWhile_not (· != c) cs.reverse
          simpa [hdrop] using hhead
        subst hd
        refine ⟨ds.reverse, ?_⟩
        calc cs = cs.reverse.reverse := cs.reverse_reverse.symm
          _ = (cs.reverse.takeWhile (· != d) ++ d :: ds).reverse := by rw [← hdrop, hsplit]
          _ = _ := by simp
  · rintro ⟨hnot, rfl | ⟨before, rfl⟩⟩
    · have hall : ∀ x ∈ cs.reverse, (x != c) = true := by
        intro x hx
        simpa using fun hxc : x = c => hnot (hxc ▸ List.mem_reverse.1 hx)
      rw [List.takeWhile_eq_self_iff.2 hall, List.reverse_reverse]
    · have hall : ∀ x ∈ part.reverse, (x != c) = true := by
        intro x hx
        simpa using fun hxc : x = c => hnot (hxc ▸ List.mem_reverse.1 hx)
      rw [List.reverse_append, List.reverse_cons, List.append_assoc,
        List.takeWhile_append_of_pos hall]
      simp

/-- The simple name is the last part. -/
theorem simpleName_eq_iff {part name : String} :
    simpleName name = part ↔ IsLastPart part name := by
  have htext : simpleName name = part ↔
      (name.toList.reverse.takeWhile (· != '.')).reverse = part.toList := by
    rw [simpleName, ← String.toList_inj, String.toList_ofList]
  -- A dotted name as text and as characters.
  have hdot : ∀ q : String, name = q ++ "." ++ part ↔ name.toList = q.toList ++ '.' :: part.toList := by
    intro q
    rw [← String.toList_inj]
    simp
  rw [htext, reverse_takeWhile_reverse_eq_iff, IsLastPart, String.toList_inj]
  -- The characters behind the last dot are those of the part, or there is no dot at all.
  refine and_congr_right fun _ => or_congr_right ⟨?_, ?_⟩
  · rintro ⟨before, h⟩
    exact ⟨String.ofList before, (hdot _).2 (by rw [String.toList_ofList, h])⟩
  · rintro ⟨q, h⟩
    exact ⟨q.toList, (hdot q).1 h⟩

namespace Method

/-- Whether a method has an annotation whose name ends in the one that marks a benchmark. -/
def IsMarked (m : Method) : Prop :=
  ∃ name pairs, .annotated name pairs ∈ m.modifiers ∧ IsLastPart benchmarkMark name

/-- The annotations of a method by name. -/
theorem mem_annotationNames {m : Method} {name : String} :
    name ∈ m.annotationNames ↔ ∃ pairs, .annotated name pairs ∈ m.modifiers := by
  unfold annotationNames
  rw [List.mem_filterMap]
  constructor
  · rintro ⟨modifier, hmem, hname⟩
    -- Only an annotation has a name; the other modifiers are passed over.
    cases modifier with
    | annotated full pairs =>
      cases hname
      exact ⟨pairs, hmem⟩
    | visibility | keyword | other => exact nomatch hname
  · rintro ⟨pairs, hmem⟩
    exact ⟨_, hmem, rfl⟩

/-- Which methods are benchmarks. -/
theorem isBenchmark_iff (m : Method) : m.isBenchmark = true ↔ m.IsMarked := by
  -- The mark has no dot, so a name that is the mark in full ends in it, too.
  have hfull : simpleName benchmarkMark = benchmarkMark := by decide
  have hname : ∀ name, (name == benchmarkMark || simpleName name == benchmarkMark) = true ↔
      IsLastPart benchmarkMark name := by
    intro name
    rw [Bool.or_eq_true, beq_iff_eq, beq_iff_eq, ← simpleName_eq_iff]
    constructor
    · rintro (rfl | h)
      · exact hfull
      · exact h
    · exact .inr
  rw [isBenchmark, isAnnotatedWith, List.any_eq_true]
  simp only [hname, mem_annotationNames, IsMarked]
  constructor
  · rintro ⟨name, ⟨pairs, hmem⟩, hlast⟩
    exact ⟨name, pairs, hmem, hlast⟩
  · rintro ⟨name, pairs, hmem, hlast⟩
    exact ⟨name, ⟨pairs, hmem⟩, hlast⟩

instance : DecidablePred IsMarked := fun m =>
  decidable_of_iff _ m.isBenchmark_iff

end Method

/-- The iteration over an outline ends, and it yields the declarations of the outline in pre-order,
    as walks from the declarations at the top do one after the other.  The benchmark methods are the
    marked methods, in this order of their declarations and then in the order of the methods. -/
theorem declarations_in_preorder (o : Outline) :
    (∀ ds, TypeDecl.Yields o.namespaces.reverse ds ↔ ds = o.declarations) ∧
      (∀ d ds, TypeDecl.Yields [d] ds ↔ ds = TypeDecl.walk d) ∧
      o.declarations = TypeDecl.preorderList o.namespaces ∧
      o.declarations = o.namespaces.flatMap TypeDecl.walk ∧
      o.benchmarks = (TypeDecl.preorderList o.namespaces).flatMap fun d =>
        (d.methods.filter (·.IsMarked)).map fun m => (d.name, m) := by
  -- All five parts rest on this one: the stack pops in pre-order.
  have hall : o.declarations = TypeDecl.preorderList o.namespaces :=
    TypeDecl.walkStack_eq_preorderList o.namespaces
  refine ⟨fun ds => ?_, fun d ds => ?_, hall, ?_, ?_⟩
  · rw [hall, TypeDecl.yields_iff]
  · rw [TypeDecl.walk, TypeDecl.walkStack_eq_preorderList, ← TypeDecl.yields_iff,
      List.reverse_singleton]
  · rw [hall, TypeDecl.preorderList_eq_flatMap, funext TypeDecl.walk_eq_preorder]
  -- The benchmark check looks at the methods of each declaration in the order of the walk.
  · have hmarked : Method.isBenchmark = fun m => decide m.IsMarked := by
      funext m
      rw [Bool.eq_iff_iff, m.isBenchmark_iff, decide_eq_true_iff]
    rw [Outline.benchmarks, hall, hmarked]

end JavaOutline

import JavaOutline.Outline.Summary
import JavaOutline.Proofs.Files.Path
import JavaOutline.Proofs.Outline.Traversal
import Mathlib.Data.List.Lex

/-!
# The lines of a summary

A summary announces how many declarations and benchmark methods it lists.  It counts the
declarations on a walk with a stack, and it prints them by a recursion that keeps track of the
nesting on its own.  Both go through the declarations in the order of their addresses.  An address
names the positions on the way down to a declaration, so it is as long as the declaration is deep,
and it comes in front of the addresses that go on from it.

## Key results

- `summaryLinesOf_eq_map_listing`: the printed declarations are those of the listing by addresses
- `isListing_listing`: this listing has every address once and in order
- `summary_lines`: the lines of a summary, one by one
-/

namespace JavaOutline

/-! ## Lines of a text -/

namespace Text

/-- A text is made of these lines, each with a line break at its end and none before. -/
structure HasLines (text : String) (lines : List String) : Prop where
  text_eq : text = String.join (lines.map (· ++ "\n"))
  unbroken : ∀ line ∈ lines, '\n' ∉ line.toList

/-- Between the line breaks of a text there are its lines, and nothing behind the last one. -/
theorem HasLines.split_eq {text : String} {lines : List String} (h : HasLines text lines) :
    split '\n' text.toList = lines.map String.toList ++ [[]] := by
  obtain ⟨rfl, hlines⟩ := h
  induction lines with
  | nil => rfl
  | cons line lines ih =>
    rw [List.forall_mem_cons] at hlines
    -- The first line ends at the first line break, since no line contains one.
    have htext : (String.join ((line :: lines).map (· ++ "\n"))).toList =
        line.toList ++ '\n' :: (String.join (lines.map (· ++ "\n"))).toList := by
      simp
    rw [htext, split_append, split_of_not_mem hlines.1, ih hlines.2]
    rfl

/-- A text has one list of lines at most. -/
theorem HasLines.unique {text : String} {lines lines' : List String} (h : HasLines text lines)
    (h' : HasLines text lines') : lines = lines' := by
  have hmap : lines.map String.toList = lines'.map String.toList :=
    List.append_cancel_right (h.split_eq.symm.trans h'.split_eq)
  exact List.map_injective_iff.2 (fun _ _ => String.toList_inj.1) hmap

end Text

/-! ## Addresses of declarations -/

namespace TypeDecl

/-- The declaration inside another one, or itself, that positions lead to: at each level the
    position among the nested declarations. -/
def inside? : TypeDecl → (address : List Nat) → Option TypeDecl
  | d, [] => some d
  | d, i :: address => d.nested[i]?.bind (·.inside? address)

/-- The declaration of a forest at an address: the position of the outermost declaration around it,
    and then those inside of this one. -/
def at? (ds : List TypeDecl) : (address : List Nat) → Option TypeDecl
  | [] => none
  | i :: address => ds[i]?.bind (·.inside? address)

/-- The declarations of a forest with their addresses, each address once and all in order. -/
structure IsListing (ds : List TypeDecl) (listing : List (List Nat × TypeDecl)) : Prop where
  mem_iff : ∀ address d, (address, d) ∈ listing ↔ at? ds address = some d
  sorted : listing.Pairwise fun p q => p.1 < q.1

mutual

/-- A declaration and all declarations inside it with their addresses in it. -/
def listing : TypeDecl → List (List Nat × TypeDecl)
  | d@⟨_, _, _, _, _, nested⟩ => ([], d) :: listingFrom 0 nested

/-- The declarations of a forest with their addresses, the first one being at position `first`. -/
def listingFrom (first : Nat) : List TypeDecl → List (List Nat × TypeDecl)
  | [] => []
  | d :: ds =>
    (d.listing.map fun p => (first :: p.1, p.2)) ++ listingFrom (first + 1) ds

end

mutual

/-- A declaration is listed in pre-order. -/
theorem map_snd_listing : (d : TypeDecl) → d.listing.map (·.2) = d.preorder
  | ⟨name, kind, modifiers, fields, methods, nested⟩ => by
    rw [listing, preorder_eq, List.map_cons, map_snd_listingFrom 0 nested]

/-- A forest is listed in pre-order. -/
theorem map_snd_listingFrom (first : Nat) :
    (ds : List TypeDecl) → (listingFrom first ds).map (·.2) = preorderList ds
  | [] => by rw [listingFrom, preorderList_eq_flatMap, List.map_nil, List.flatMap_nil]
  | d :: ds => by
    have hfirst : (d.listing.map fun p => (first :: p.1, p.2)).map (·.2) = d.preorder := by
      rw [List.map_map, ← map_snd_listing d]
      rfl
    rw [listingFrom, preorderList_eq_flatMap, List.flatMap_cons, ← preorderList_eq_flatMap,
      List.map_append, hfirst, map_snd_listingFrom (first + 1) ds]

end

mutual

/-- The printed lines of a declaration are those of its listing, indented by their addresses. -/
theorem summaryLines_eq_map_listing (level : Nat) :
    (d : TypeDecl) →
      d.summaryLines level = d.listing.map fun p => p.2.summaryLine (level + p.1.length)
  | ⟨name, kind, modifiers, fields, methods, nested⟩ => by
    rw [summaryLines, listing, List.map_cons, summaryLinesOf_eq_map_listing level 0 nested]
    rfl

/-- The printed lines of a forest are those of its listing, indented by their addresses. -/
theorem summaryLinesOf_eq_map_listing (level first : Nat) :
    (ds : List TypeDecl) → summaryLinesOf (level + 1) ds =
      (listingFrom first ds).map fun p => p.2.summaryLine (level + p.1.length)
  | [] => by rw [summaryLinesOf, listingFrom, List.map_nil]
  | d :: ds => by
    -- The position in the forest makes each address longer by one.
    have hfirst : d.summaryLines (level + 1) =
        (d.listing.map fun p => (first :: p.1, p.2)).map
          fun p => p.2.summaryLine (level + p.1.length) := by
      rw [summaryLines_eq_map_listing (level + 1) d, List.map_map]
      refine List.map_congr_left fun p _ => ?_
      rw [Function.comp_apply, List.length_cons, Nat.add_right_comm, Nat.add_assoc]
    rw [summaryLinesOf, listingFrom, List.map_append, hfirst,
      summaryLinesOf_eq_map_listing level (first + 1) ds]

end

/-- An address in a forest starts with a position that is not before the first one. -/
theorem exists_of_mem_listingFrom {first : Nat} {ds : List TypeDecl} {p : List Nat × TypeDecl}
    (h : p ∈ listingFrom first ds) : ∃ i address, p.1 = i :: address ∧ first ≤ i := by
  induction ds generalizing first with
  | nil =>
    rw [listingFrom] at h
    exact nomatch h
  | cons d ds ih =>
    rw [listingFrom, List.mem_append] at h
    rcases h with h | h
    -- Below the first declaration every address begins with its number.
    · obtain ⟨q, -, rfl⟩ := List.mem_map.1 h
      exact ⟨first, q.1, rfl, Nat.le_refl first⟩
    -- Below a later one the number is greater.
    · obtain ⟨i, address, hp, hi⟩ := ih h
      exact ⟨i, address, hp, by omega⟩

mutual

/-- What is listed in a declaration is inside it at its address. -/
theorem mem_listing_iff {address : List Nat} {e : TypeDecl} :
    (d : TypeDecl) → ((address, e) ∈ d.listing ↔ d.inside? address = some e)
  | ⟨name, kind, modifiers, fields, methods, nested⟩ => by
    rw [listing, List.mem_cons, mem_listingFrom_iff nested]
    cases address with
    | nil => simp [inside?, eq_comm]
    | cons i address => simp [inside?]

/-- What is listed in a forest is at its address, counted from the first position. -/
theorem mem_listingFrom_iff {first : Nat} {address : List Nat} {e : TypeDecl} :
    (ds : List TypeDecl) → ((address, e) ∈ listingFrom first ds ↔
      ∃ i more, address = (first + i) :: more ∧ ds[i]?.bind (·.inside? more) = some e)
  | [] => by simp [listingFrom]
  | d :: ds => by
    rw [listingFrom, List.mem_append, mem_listingFrom_iff ds]
    constructor
    -- From the listing to the address: the declaration is below the first or below a later one.
    · rintro (h | ⟨i, more, rfl, h⟩)
      · obtain ⟨⟨more, x⟩, hmem, heq⟩ := List.mem_map.1 h
        cases heq
        exact ⟨0, more, rfl, (mem_listing_iff d).1 hmem⟩
      · exact ⟨i + 1, more, by rw [Nat.add_right_comm, Nat.add_assoc], h⟩
    · rintro ⟨i, more, rfl, h⟩
      -- From the address to the listing: its first number says which of the two it is.
      cases i with
      | zero => exact .inl (List.mem_map.2 ⟨(more, e), (mem_listing_iff d).2 h, rfl⟩)
      | succ i => exact .inr ⟨i, more, by rw [Nat.add_right_comm, Nat.add_assoc], h⟩

end

mutual

/-- A declaration is listed in the order of addresses. -/
theorem pairwise_listing :
    (d : TypeDecl) → d.listing.Pairwise fun p q => p.1 < q.1
  | ⟨name, kind, modifiers, fields, methods, nested⟩ => by
    rw [listing]
    refine List.pairwise_cons.2 ⟨fun q hq => ?_, pairwise_listingFrom 0 nested⟩
    -- The declaration itself has the empty address, which comes first.
    obtain ⟨i, address, hq, -⟩ := exists_of_mem_listingFrom hq
    rw [hq]
    exact List.nil_lt_cons i address

/-- A forest is listed in the order of addresses. -/
theorem pairwise_listingFrom (first : Nat) :
    (ds : List TypeDecl) → (listingFrom first ds).Pairwise fun p q => p.1 < q.1
  | [] => by
    rw [listingFrom]
    exact .nil
  | d :: ds => by
    rw [listingFrom, List.pairwise_append]
    refine ⟨?_, pairwise_listingFrom (first + 1) ds, fun p hp q hq => ?_⟩
    -- Within one declaration the addresses share their first number.
    · refine List.pairwise_map.2 ((pairwise_listing d).imp fun hlt => ?_)
      exact List.cons_lt_cons_iff.2 (.inr ⟨rfl, hlt⟩)
    -- Across two declarations the first number decides.
    · obtain ⟨r, -, rfl⟩ := List.mem_map.1 hp
      obtain ⟨i, address, hq, hi⟩ := exists_of_mem_listingFrom hq
      rw [hq]
      exact List.cons_lt_cons_iff.2 (.inl hi)

end

/-- A forest has one listing only. -/
theorem IsListing.unique {ds : List TypeDecl} {listing listing' : List (List Nat × TypeDecl)}
    (h : IsListing ds listing) (h' : IsListing ds listing') : listing = listing' := by
  have hnodup {l : List (List Nat × TypeDecl)} (hl : l.Pairwise fun p q => p.1 < q.1) :
      l.Nodup := by
    refine hl.imp fun {p q} hlt => ?_
    rintro rfl
    exact List.lt_irrefl p.1 hlt
  -- Both have the same members, each once, so they are the same up to order.
  have hperm : listing.Perm listing' := by
    rw [List.perm_ext_iff_of_nodup (hnodup h.sorted) (hnodup h'.sorted)]
    exact fun p => (h.mem_iff p.1 p.2).trans (h'.mem_iff p.1 p.2).symm
  -- Being sorted fixes the order.
  exact hperm.eq_of_pairwise (fun p q _ _ hpq hqp => absurd hqp (List.lt_asymm hpq)) h.sorted
    h'.sorted

/-- A forest has a listing, which is in pre-order. -/
theorem isListing_listing (ds : List TypeDecl) : IsListing ds (listingFrom 0 ds) where
  mem_iff address d := by
    rw [mem_listingFrom_iff ds]
    cases address with
    | nil => simp [at?]
    | cons i address => simp [at?]
  sorted := pairwise_listingFrom 0 ds

end TypeDecl

/-! ## Lines without breaks -/

/-- The names that a summary shows have no line breaks. -/
structure Outline.IsUnbroken (o : Outline) : Prop where
  imports : ∀ name ∈ o.imports, '\n' ∉ name.toList
  declarations : ∀ d ∈ o.declarations, '\n' ∉ d.name.toList
  methods : ∀ d ∈ o.declarations, ∀ m ∈ d.methods, '\n' ∉ m.name.toList
  calls : ∀ d ∈ o.declarations, ∀ m ∈ d.methods, ∀ call ∈ m.calls, '\n' ∉ call.toList

/-- A number is written with digits only. -/
theorem newline_not_mem_repr (n : Nat) : '\n' ∉ n.repr.toList := by
  intro h
  rw [Nat.toList_repr] at h
  have hdigit := Nat.isDigit_of_mem_toDigits (by decide) (by decide) h
  exact absurd hdigit (by decide)

theorem DeclKind.newline_not_mem_name (kind : DeclKind) : '\n' ∉ kind.name.toList := by
  cases kind <;> decide

/-- The line for a declaration has no break if its name has none. -/
theorem TypeDecl.newline_not_mem_summaryLine {d : TypeDecl} (h : '\n' ∉ d.name.toList)
    (level : Nat) : '\n' ∉ (d.summaryLine level).toList := by
  have hindent : '\n' ∉ (String.ofList (List.replicate (2 * level) ' ')).toList := by
    rw [String.toList_ofList]
    exact fun hmem => absurd (List.eq_of_mem_replicate hmem) (by decide)
  simp only [summaryLine, String.toList_append, List.mem_append, not_or, hindent, h,
    newline_not_mem_repr, d.kind.newline_not_mem_name, not_false_eq_true, true_and]
  decide

/-- The line for a benchmark method has no break if none of its names has one. -/
theorem Method.newline_not_mem_summaryLine {owner : String} {m : Method}
    (howner : '\n' ∉ owner.toList) (hname : '\n' ∉ m.name.toList)
    (hcalls : ∀ call ∈ m.calls, '\n' ∉ call.toList) : '\n' ∉ (m.summaryLine owner).toList := by
  have hlist : '\n' ∉ (String.intercalate ", " m.calls).toList :=
    Text.not_mem_intercalate (by decide) hcalls
  unfold summaryLine
  split <;>
  · simp only [String.toList_append, List.mem_append, not_or, howner, hname, hlist,
      not_false_eq_true, and_true]
    decide

namespace Outline

variable {o : Outline}

/-- A heading with its length has no break. -/
theorem newline_not_mem_heading {title : String} (h : '\n' ∉ title.toList) (n : Nat) :
    '\n' ∉ (title ++ n.repr ++ ")").toList := by
  simp only [String.toList_append, List.mem_append, not_or, h, newline_not_mem_repr,
    not_false_eq_true, true_and]
  decide

/-- The lines for the benchmark methods have no breaks. -/
theorem IsUnbroken.benchmarks (h : o.IsUnbroken) :
    ∀ p ∈ o.benchmarks, '\n' ∉ (p.2.summaryLine p.1).toList := by
  intro p hp
  obtain ⟨d, hd, hp⟩ := List.mem_flatMap.1 hp
  obtain ⟨m, hm, rfl⟩ := List.mem_map.1 hp
  have hmem : m ∈ d.methods := (List.mem_filter.1 hm).1
  exact Method.newline_not_mem_summaryLine (h.declarations d hd) (h.methods d hd m hmem)
    (h.calls d hd m hmem)

/-- The declarations of an outline are those of its listing. -/
theorem declarations_eq_map_listing (o : Outline) :
    o.declarations = (TypeDecl.listingFrom 0 o.namespaces).map (·.2) := by
  rw [TypeDecl.map_snd_listingFrom]
  exact TypeDecl.walkStack_eq_preorderList o.namespaces

/-- The lines of a summary, the declarations printed as they are listed. -/
theorem summaryLines_eq (o : Outline) :
    o.summaryLines = ["imports (" ++ o.imports.length.repr ++ ")"] ++ o.imports.map ("  " ++ ·) ++
      ["declarations (" ++ o.declarations.length.repr ++ ")"] ++
      (TypeDecl.listingFrom 0 o.namespaces).map (fun p => p.2.summaryLine p.1.length) ++
      ["benchmarks (" ++ o.benchmarks.length.repr ++ ")"] ++
      o.benchmarks.map fun p => p.2.summaryLine p.1 := by
  -- The printer's depth is the length of the address, which the listing carries.
  have hprinted : TypeDecl.summaryLinesOf 1 o.namespaces =
      (TypeDecl.listingFrom 0 o.namespaces).map fun p => p.2.summaryLine p.1.length := by
    rw [TypeDecl.summaryLinesOf_eq_map_listing 0 0]
    simp only [Nat.zero_add]
  rw [summaryLines, hprinted]
  simp

/-- No line of a summary has a break inside. -/
theorem IsUnbroken.hasLines (h : o.IsUnbroken) : Text.HasLines o.summary o.summaryLines := by
  refine ⟨rfl, fun line hline => ?_⟩
  simp only [summaryLines_eq, List.mem_append, List.mem_singleton, List.mem_map] at hline
  -- A line is a heading, an import, a declaration or a benchmark; none of them has a line break.
  rcases hline with ((((rfl | ⟨name, hname, rfl⟩) | rfl) | ⟨p, hp, rfl⟩) | rfl) | ⟨p, hp, rfl⟩
  · exact newline_not_mem_heading (by decide) _
  · simpa using h.imports name hname
  · exact newline_not_mem_heading (by decide) _
  · have hd : p.2 ∈ o.declarations := by
      rw [declarations_eq_map_listing]
      exact List.mem_map_of_mem hp
    exact TypeDecl.newline_not_mem_summaryLine (h.declarations p.2 hd) _
  · exact newline_not_mem_heading (by decide) _
  · exact h.benchmarks p hp

/-- The summary has these lines: the imports, the declarations in pre-order, each of them indented
    by two spaces for each part of its address, and the benchmark methods in order, each list under
    a heading with its length. -/
theorem summary_lines (o : Outline) (h : o.IsUnbroken) :
    ∃ listing lines, TypeDecl.IsListing o.namespaces listing ∧
      o.declarations = listing.map (·.2) ∧
      (∀ other, Text.HasLines o.summary other ↔ other = lines) ∧
      lines.length = 3 + o.imports.length + o.declarations.length + o.benchmarks.length ∧
      lines = ["imports (" ++ o.imports.length.repr ++ ")"] ++ o.imports.map ("  " ++ ·) ++
        ["declarations (" ++ o.declarations.length.repr ++ ")"] ++
        listing.map (fun p => p.2.summaryLine p.1.length) ++
        ["benchmarks (" ++ o.benchmarks.length.repr ++ ")"] ++
        o.benchmarks.map fun p => p.2.summaryLine p.1 := by
  refine ⟨_, _, TypeDecl.isListing_listing o.namespaces, o.declarations_eq_map_listing,
    fun other => ⟨fun hother => hother.unique h.hasLines, ?_⟩, ?_, o.summaryLines_eq⟩
  -- The lines are lines of the text, so they are the only ones.
  · rintro rfl
    exact h.hasLines
  -- Three headings, and one line for each import, declaration and benchmark.
  · have hcount := congrArg List.length o.declarations_eq_map_listing
    rw [List.length_map] at hcount
    simp only [summaryLines_eq, List.length_append, List.length_map, List.length_singleton,
      ← hcount]
    omega

/-- A benchmark method with a call inside a call. -/
def measureMethod : Method where
  name := "measure"
  returnType := { name := "void" }
  modifiers := [.annotated "org.openjdk.jmh.annotations.Benchmark" []]
  bodyContent := [.ofCall "bh.consume" [.ofCall "next" []]]

/-- A class with an enumeration inside, and an interface behind it. -/
def nestedBench : Outline where
  imports := ["org.openjdk.jmh.annotations.*"]
  namespaces := [
    { name := "Outer", kind := .classDecl, methods := [measureMethod]
      nested := [{ name := "Inner", kind := .enumDecl }] },
    { name := "Next", kind := .interfaceDecl }]

/-- The declaration inside is indented further than the one behind it. -/
theorem summary_lines_nestedBench :
    nestedBench.IsUnbroken ∧ Text.HasLines nestedBench.summary
      ["imports (1)", "  org.openjdk.jmh.annotations.*", "declarations (3)",
        "  CLASS Outer (fields: 0, methods: 1)", "    ENUM Inner (fields: 0, methods: 0)",
        "  INTERFACE Next (fields: 0, methods: 0)", "benchmarks (1)",
        "  Outer.measure -> bh.consume, next"] := by
  -- The walk with its stack does not reduce by itself; the recursion it equals does.
  have hall : nestedBench.declarations = TypeDecl.preorderList nestedBench.namespaces :=
    TypeDecl.walkStack_eq_preorderList nestedBench.namespaces
  have hmarked : nestedBench.benchmarks = [("Outer", measureMethod)] := by
    rw [benchmarks, hall]
    rfl
  have hunbroken : nestedBench.IsUnbroken := by
    constructor
    · decide
    all_goals
      rw [hall]
      decide
  -- The listing of the theorem is the computed one, since a listing is unique.
  obtain ⟨listing, lines, hlisting, -, hlines, -, heq⟩ := summary_lines nestedBench hunbroken
  obtain rfl := hlisting.unique (TypeDecl.isListing_listing nestedBench.namespaces)
  refine ⟨hunbroken, (hlines _).2 ?_⟩
  rw [heq, hmarked, hall]
  rfl

end Outline

end JavaOutline

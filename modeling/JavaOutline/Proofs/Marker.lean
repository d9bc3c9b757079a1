import JavaOutline.Proofs.Files.Candidates

/-!
# The marker inside an import name

A source is a candidate if the lower-case form of the marker occurs in that of an import name.  The
lower-case form of a character depends on the character alone, but for the capital sigma: at the end
of a word it becomes a final sigma, and whether a word ends there depends on what stands in front of
it and behind it.  So a marker that occurs in a name is found there if every capital sigma of it has
the same form in the name as in the marker by itself.  All other markers are found wherever they
occur.

## Key results

- `Text.lowerFrom_append`: the lower-case form of a text in front of another one
- `Text.lower_infix`: the lower-case form of a part occurs in that of the whole if no capital sigma
  changes its form
- `isCandidate_of_occurs`: a source is a candidate if the marker occurs in an import name
- `not_isCandidate_of_occurs`: the condition on the capital sigma cannot be left out
-/

namespace JavaOutline

open Syntax (Node)

/-! ## Lower case in context -/

namespace Text

/-- The lower-case form of characters that stand between others, those in front nearest first. -/
def lowerBetween (after : List Char) : (before cs : List Char) → List Char
  | _, [] => []
  | before, c :: cs =>
    (if c == 'Σ' then [if endsWord before (cs ++ after) then 'ς' else 'σ'] else lowerChar c) ++
      lowerBetween after (c :: before) cs

/-- The lower-case form of a text is made of the forms that its parts have in their places. -/
theorem lowerFrom_append (before cs after : List Char) :
    lowerFrom before (cs ++ after) =
      lowerBetween after before cs ++ lowerFrom (cs.reverse ++ before) after := by
  induction cs generalizing before with
  | nil => rfl
  | cons c cs ih =>
    rw [List.cons_append, lowerFrom, lowerBetween, ih, List.reverse_cons, List.append_assoc,
      List.append_assoc, List.singleton_append]

/-- A text by itself stands in front of nothing. -/
theorem lowerFrom_eq_lowerBetween (before cs : List Char) :
    lowerFrom before cs = lowerBetween [] before cs := by
  have happend := lowerFrom_append before cs []
  rwa [List.append_nil, lowerFrom, List.append_nil] at happend

/-- Whether each capital sigma of a part ends a word between `before` and `after` exactly if it ends
    one in the part by itself. -/
def SigmasAgree (before part after : List Char) : Prop :=
  ∀ k < part.length, part[k]? = some 'Σ' →
    endsWord ((part.take k).reverse ++ before.reverse) (part.drop (k + 1) ++ after) =
      endsWord (part.take k).reverse (part.drop (k + 1))

instance (before part after : List Char) : Decidable (SigmasAgree before part after) :=
  inferInstanceAs (Decidable (∀ k < part.length, part[k]? = some 'Σ' →
    endsWord ((part.take k).reverse ++ before.reverse) (part.drop (k + 1) ++ after) =
      endsWord (part.take k).reverse (part.drop (k + 1))))

/-- A part without a capital sigma has nothing to agree on. -/
theorem sigmasAgree_of_not_mem {part : List Char} (h : 'Σ' ∉ part) (before after : List Char) :
    SigmasAgree before part after :=
  fun _ _ hk => absurd (List.mem_of_getElem? hk) h

/-- Where the capital sigmas agree, a part has the same lower-case form as by itself. -/
theorem lowerBetween_of_sigmasAgree {before part after : List Char}
    (h : SigmasAgree before part after) :
    lowerBetween after before.reverse part = lowerBetween [] [] part := by
  -- What has been gone through of the part stands in front of the rest on both sides.
  suffices hsplit : ∀ rest front, front ++ rest = part →
      lowerBetween after (front.reverse ++ before.reverse) rest =
        lowerBetween [] front.reverse rest from hsplit part [] rfl
  intro rest
  induction rest with
  | nil => exact fun _ _ => rfl
  | cons c rest ih =>
    intro front hpart
    have hnext := ih (front ++ [c]) (by rw [List.append_assoc, List.singleton_append, hpart])
    rw [List.reverse_append, List.reverse_singleton, List.singleton_append,
      List.cons_append] at hnext
    rw [lowerBetween, lowerBetween, hnext, List.append_nil]
    by_cases hc : c = 'Σ'
    · have hagree := h front.length (by simp [← hpart]) (by simp [← hpart, hc])
      rw [← hpart] at hagree
      simp only [List.take_left', List.drop_append, List.drop_eq_nil_of_le (Nat.le_succ _),
        Nat.add_sub_cancel_left, List.drop_one, List.tail_cons, List.nil_append] at hagree
      rw [hagree]
    · simp [hc]

/-- The lower-case form of a part occurs in that of the whole if the capital sigmas agree. -/
theorem lower_infix {whole part : String} {before after : List Char}
    (hwhole : whole.toList = before ++ (part.toList ++ after))
    (h : SigmasAgree before part.toList after) : (lower part).toList <:+: (lower whole).toList := by
  rw [lower, lower, String.toList_ofList, String.toList_ofList, hwhole, lowerFrom_append,
    lowerFrom_append, List.append_nil, lowerBetween_of_sigmasAgree h, ← lowerFrom_eq_lowerBetween,
    ← List.append_assoc]
  exact List.infix_append _ _ _

end Text

/-! ## Candidates -/

/-- The import declarations at the top of a file are read. -/
theorem mem_importsOf (source : Bytes) {root n : Node} {name : String} (hn : n ∈ root.content)
    (hkind : n.kind = "import_declaration") (hname : importName? source n = some name) :
    name ∈ importsOf source root := by
  obtain ⟨_, _, _, _, _, _, _, _, _, children⟩ := root
  rw [importsOf]
  obtain ⟨hmem, hcontent⟩ := List.mem_filter.1 hn
  -- By induction on the children, as an import stands at the top of the file.
  induction children with
  | nil => cases hmem
  | cons c cs ih =>
    rw [importsIn, List.mem_append]
    rcases List.mem_cons.1 hmem with rfl | hmem
    · left
      simp [hcontent, hkind, hname]
    · exact .inr (ih (List.mem_filter.2 ⟨hmem, hcontent⟩) hmem)

/-- A source is a candidate if the marker occurs in the name of an import at its top, provided that
    no capital sigma of the marker ends a word in only one of the two. -/
theorem isCandidate_of_occurs (parser : Parser) (options : ExtractOptions) (source origin : String)
    (root n : Node) (name : String) (before after : List Char)
    (hparse : parser source = some root) (hn : n ∈ root.content)
    (hkind : n.kind = "import_declaration") (hname : importName? (utf8 source) n = some name)
    (hoccurs : name.toList = before ++ (options.marker.toList ++ after))
    (hsigmas : Text.SigmasAgree before options.marker.toList after) :
    isCandidate parser options source origin = .ok true := by
  have hmem : name ∈ importsOf (utf8 source) root := mem_importsOf (utf8 source) hn hkind hname
  have hcontains : Text.contains (Text.lower name) (Text.lower options.marker) = true :=
    Text.contains_iff.2 (Text.lower_infix hoccurs hsigmas)
  exact isCandidate_eq_ok_iff.2 ⟨root, hparse, List.any_eq_true.2 ⟨name, hmem, hcontains⟩⟩

/-- An import of a class from a package called `ΑΣ`. -/
def sigmaSource : String := "import ΑΣ.Α;"

/-- The import declaration of `sigmaSource`. -/
def sigmaImport : Node :=
  { kind := "import_declaration", stop := 15, isNamed := true
    children := [{ kind := "import", stop := 6 },
      { kind := "scoped_identifier", start := 7, stop := 14, isNamed := true
        children := [
          { kind := "identifier", field := "scope", start := 7, stop := 11, isNamed := true },
          { kind := ".", start := 11, stop := 12 },
          { kind := "identifier", field := "name", start := 12, stop := 14, isNamed := true }] },
      { kind := ";", start := 14, stop := 15 }] }

/-- The syntax tree of `sigmaSource`. -/
def sigmaTree : Node :=
  { kind := "program", stop := 15, isNamed := true, children := [sigmaImport] }

/-- A marker is found behind a letter if its own sigma stands in front of one, and a marker without
    a sigma is found in any case. -/
theorem isCandidate_of_occurs_sigma :
    importName? (utf8 sigmaSource) sigmaImport = some "ΑΣ.Α" ∧
      Text.SigmasAgree ['Α'] "Σ.Α".toList [] ∧
      isCandidate (fun _ => some sigmaTree) { marker := "Σ.Α" } sigmaSource "A.java" = .ok true ∧
      isCandidate (fun _ => some sigmaTree) { marker := "." } sigmaSource "A.java" = .ok true := by
  have hname : importName? (utf8 sigmaSource) sigmaImport = some "ΑΣ.Α" := by decide
  have hsigmas : Text.SigmasAgree ['Α'] "Σ.Α".toList [] := by decide +kernel
  have hcontent : sigmaImport ∈ sigmaTree.content := List.mem_filter.2 ⟨List.mem_cons_self, rfl⟩
  refine ⟨hname, hsigmas, ?_, ?_⟩
  -- The sigma is in the middle of a word both times.
  · exact isCandidate_of_occurs (fun _ => some sigmaTree) { marker := "Σ.Α" } sigmaSource "A.java"
      sigmaTree sigmaImport "ΑΣ.Α" ['Α'] [] rfl hcontent rfl hname (by decide) hsigmas
  -- A marker without a sigma may occur anywhere.
  · exact isCandidate_of_occurs (fun _ => some sigmaTree) { marker := "." } sigmaSource "A.java"
      sigmaTree sigmaImport "ΑΣ.Α" "ΑΣ".toList "Α".toList rfl hcontent rfl hname (by decide)
      (Text.sigmasAgree_of_not_mem (by decide) _ _)

/-- The name of the package is not found in its own import.  By itself it ends in a final sigma, but
    in the import a letter follows behind the dot, which case looks through. -/
theorem not_isCandidate_of_occurs :
    importName? (utf8 sigmaSource) sigmaImport = some "ΑΣ.Α" ∧
      "ΑΣ.Α".toList = [] ++ ("ΑΣ".toList ++ ".Α".toList) ∧
      isCandidate (fun _ => some sigmaTree) { marker := "ΑΣ" } sigmaSource "A.java" =
        .ok false :=
  ⟨by decide, by decide,
    isCandidate_eq_ok_iff.2 ⟨sigmaTree, rfl, by decide +kernel⟩⟩

end JavaOutline

import JavaOutline.Proofs.Files.Path
import JavaOutline.Proofs.Glob.Matching

/-!
# What is excluded by default

Each default pattern is for what is below the directories of one name.  It matches a text in which
the name stands between slashes, the one in front of it left out at the start, with no line break
around it.  For a path of names this is so if the name is one of them but not the last, and for the
path of a directory, which is matched with a slash at its end, if it is one of them.

## Key results

- `any_defaultExcludes_iff`: the texts that the default patterns match
- `any_defaultExcludes_path_iff`, `any_defaultExcludes_dir_iff`: the paths of names among them
-/

namespace JavaOutline

/-! ## Names between slashes -/

namespace Path

/-- A name stands in a text with a slash behind it, at the start or behind another slash, and there
    is no line break around it. -/
def HasComponent (name s : String) : Prop :=
  ∃ front rest, s = front ++ name ++ "/" ++ rest ∧ (front = "" ∨ endsInSlash front = true) ∧
    '\n' ∉ front.toList ∧ '\n' ∉ rest.toList

/-- Names between slashes are the pieces. -/
theorem split_intercalate {names : List String} (hne : names ≠ [])
    (h : ∀ n ∈ names, '/' ∉ n.toList) :
    Text.split '/' ("/".intercalate names).toList = names.map String.toList := by
  induction names with
  | nil => exact absurd rfl hne
  | cons name names ih =>
    rw [List.forall_mem_cons] at h
    -- The last name has no slash behind it.
    by_cases hnil : names = []
    · subst hnil
      simpa using Text.split_of_not_mem h.1
    · have hlist : ("/".intercalate (name :: names)).toList =
          name.toList ++ '/' :: ("/".intercalate names).toList := by
        rw [String.intercalate_cons_of_ne_nil hnil]
        simp
      rw [hlist, Text.split_append, Text.split_of_not_mem h.1, ih hnil h.2]
      rfl

/-- A name at the start or behind a slash is the last piece. -/
theorem split_append_name {front name : String} (hname : '/' ∉ name.toList)
    (hfront : front = "" ∨ endsInSlash front = true) :
    ∃ pieces, Text.split '/' (front ++ name).toList = pieces ++ [name.toList] := by
  rcases hfront with rfl | hslash
  · exact ⟨[], by simpa using Text.split_of_not_mem hname⟩
  · obtain ⟨init, hinit⟩ := exists_of_endsInSlash hslash
    have hlist : (front ++ name).toList = init ++ '/' :: name.toList := by simp [hinit]
    exact ⟨Text.split '/' init, by rw [hlist, Text.split_append, Text.split_of_not_mem hname]⟩

section

variable {name : String} {names : List String}

/-- A component of a path of names is one of the names but the last. -/
theorem HasComponent.mem_dropLast (h : HasComponent name ("/".intercalate names))
    (hname : '/' ∉ name.toList) (hslash : ∀ n ∈ names, '/' ∉ n.toList) : name ∈ names.dropLast := by
  obtain ⟨front, rest, heq, hfront, -, -⟩ := h
  have hne : names ≠ [] := by
    rintro rfl
    simpa using congrArg String.toList heq
  obtain ⟨pieces, hpieces⟩ := split_append_name hname hfront
  -- The pieces are cut at the slash behind the name.
  have hcut : names.map String.toList = pieces ++ [name.toList] ++ Text.split '/' rest.toList := by
    have hlist : ("/".intercalate names).toList = (front ++ name).toList ++ '/' :: rest.toList := by
      simp [heq]
    rw [← split_intercalate hne hslash, hlist, Text.split_append, hpieces]
  have hmem : name.toList ∈ (names.map String.toList).dropLast := by
    rw [hcut, List.dropLast_append_of_ne_nil (Text.split_ne_nil _)]
    simp
  rw [← List.map_dropLast] at hmem
  obtain ⟨n, hn, hsame⟩ := List.mem_map.1 hmem
  rwa [← String.toList_inj.1 hsame]

/-- A name of a path is a component unless it is the last one. -/
theorem hasComponent_of_mem_dropLast (h : name ∈ names.dropLast)
    (hbreak : ∀ n ∈ names, '\n' ∉ n.toList) : HasComponent name ("/".intercalate names) := by
  have hne : names ≠ [] := by
    rintro rfl
    exact nomatch h
  obtain ⟨before, after, hsplit⟩ := List.append_of_mem h
  -- The component has names in front of it, perhaps, and at least one behind it.
  have hnames : names = before ++ (name :: (after ++ [names.getLast hne])) := by
    conv => lhs; rw [← List.dropLast_append_getLast hne, hsplit]
    simp
  generalize names.getLast hne = last at hnames
  subst hnames
  obtain ⟨hfront, hrest⟩ := List.forall_mem_append.1 hbreak
  -- Behind the component comes a slash, as another name follows.
  have hbehind : "/".intercalate (name :: (after ++ [last])) =
      name ++ "/" ++ "/".intercalate (after ++ [last]) :=
    String.intercalate_cons_of_ne_nil (by simp)
  have hbreakRest : '\n' ∉ ("/".intercalate (after ++ [last])).toList :=
    not_mem_intercalate (by decide) (List.forall_mem_cons.1 hrest).2
  by_cases hnil : before = []
  -- It stands at the very front, or behind a slash.
  · subst hnil
    exact ⟨"", _, by simp [hbehind], .inl rfl, by simp, hbreakRest⟩
  · refine ⟨"/".intercalate before ++ "/", _, ?_, .inr (by simp [endsInSlash]), ?_, hbreakRest⟩
    · rw [String.intercalate_append_of_ne_nil hnil (by simp), hbehind]
      simp [String.append_assoc]
    · have hbreakFront : '\n' ∉ ("/".intercalate before).toList :=
        not_mem_intercalate (by decide) hfront
      simpa using hbreakFront

end

end Path

/-! ## The default patterns -/

namespace Glob

/-- The names of directories with version control data and build output. -/
def skippedNames : List String :=
  [".git", "target", "build"]

/-- The pattern for all that is below the directories of a name. -/
def belowName (name : String) : Glob :=
  ⟨.directories :: (name.toList.map .char ++ [.char '/', .deepRun])⟩

/-- The default patterns are those for the names. -/
theorem defaultExcludes_eq : defaultExcludes = skippedNames.map belowName := by
  decide

/-- Tokens for characters match these characters only. -/
theorem tokensMatch_chars_append_iff {cs s : List Char} {ts : List GlobToken} :
    TokensMatch (cs.map .char ++ ts) s ↔ ∃ v, s = cs ++ v ∧ TokensMatch ts v := by
  induction cs generalizing s with
  | nil => simp
  | cons c cs ih =>
    rw [List.map_cons, List.cons_append, TokensMatch]
    constructor
    -- A character token matches itself, so the characters are read off one by one.
    · rintro ⟨_, w, rfl, rfl, hw⟩
      obtain ⟨v, rfl, hv⟩ := ih.1 hw
      exact ⟨v, by simp, hv⟩
    · rintro ⟨v, rfl, hv⟩
      exact ⟨[c], cs ++ v, by simp, rfl, ih.2 ⟨v, rfl, hv⟩⟩

/-- The pattern for a name matches the texts that have the name as a component. -/
theorem isMatch_belowName_iff {name s : String} :
    (belowName name).isMatch s = true ↔ Path.HasComponent name s := by
  -- The tokens are directories, the characters of the name, a slash and a deep run.
  rw [isMatch_iff_matches, Matches, belowName, TokensMatch]
  simp only [tokensMatch_chars_append_iff]
  constructor
  · rintro ⟨u, _, hs, hu, _, rfl, _, _, rfl, rfl, r, _, rfl, hr, rfl⟩
    have hrest : '\n' ∉ r := hr
    have htext : s = String.ofList u ++ name ++ "/" ++ String.ofList r := by
      simp [← String.toList_inj, hs]
    -- The directories in front match nothing or end in a slash.
    rcases hu with rfl | ⟨d, hd, rfl⟩
    · exact ⟨"", String.ofList r, by simpa using htext, .inl rfl, by simp, by simpa using hrest⟩
    · exact ⟨String.ofList (d ++ ['/']), String.ofList r, htext, .inr (by simp [Path.endsInSlash]),
        by simpa using hd, by simpa using hrest⟩
  · rintro ⟨front, rest, rfl, hfront, hbreak, hrest⟩
    refine ⟨front.toList, name.toList ++ '/' :: rest.toList, by simp, ?_, '/' :: rest.toList, rfl,
      ['/'], rest.toList, rfl, rfl, rest.toList, [], by simp, hrest, rfl⟩
    -- What stands in front is nothing or ends in a slash.
    rcases hfront with rfl | hslash
    · exact .inl rfl
    · obtain ⟨init, hinit⟩ := Path.exists_of_endsInSlash hslash
      refine .inr ⟨init, fun hmem => hbreak ?_, hinit⟩
      rw [hinit]
      exact List.mem_append_left _ hmem

/-- The default patterns match the texts that have one of the names as a component. -/
theorem any_defaultExcludes_iff {s : String} :
    defaultExcludes.any (·.isMatch s) = true ↔ ∃ name ∈ skippedNames, Path.HasComponent name s := by
  simp only [defaultExcludes_eq, List.any_map, List.any_eq_true, Function.comp_apply,
    isMatch_belowName_iff]

/-- No name in question has a slash. -/
theorem no_slash_of_mem_skippedNames : ∀ name ∈ skippedNames, '/' ∉ name.toList := by
  decide

variable {names : List String}

/-- The default patterns match a path of names if one of these but the last is in question. -/
theorem any_defaultExcludes_path_iff (hslash : ∀ n ∈ names, '/' ∉ n.toList)
    (hbreak : ∀ n ∈ names, '\n' ∉ n.toList) :
    defaultExcludes.any (·.isMatch ("/".intercalate names)) = true ↔
      ∃ n ∈ names.dropLast, n ∈ skippedNames := by
  rw [any_defaultExcludes_iff]
  constructor
  · rintro ⟨name, hname, h⟩
    exact ⟨name, h.mem_dropLast (no_slash_of_mem_skippedNames name hname) hslash, hname⟩
  · rintro ⟨name, h, hname⟩
    exact ⟨name, hname, Path.hasComponent_of_mem_dropLast h hbreak⟩

/-- With a slash at its end, they match a path of names if one of these is in question. -/
theorem any_defaultExcludes_dir_iff (hslash : ∀ n ∈ names, '/' ∉ n.toList)
    (hbreak : ∀ n ∈ names, '\n' ∉ n.toList) (hne : names ≠ []) :
    defaultExcludes.any (·.isMatch ("/".intercalate names ++ "/")) = true ↔
      ∃ n ∈ names, n ∈ skippedNames := by
  -- The slash stands between the last name and nothing.
  have hpath : "/".intercalate names ++ "/" = "/".intercalate (names ++ [""]) := by
    rw [String.intercalate_append_of_ne_nil hne (by simp)]
    simp
  rw [hpath, any_defaultExcludes_path_iff, List.dropLast_concat]
  · simpa [or_imp, forall_and] using hslash
  · simpa [or_imp, forall_and] using hbreak

end Glob

end JavaOutline

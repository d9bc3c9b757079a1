import JavaOutline.Proofs.Command.Output
import JavaOutline.Proofs.Files.Sources

/-!
# Relative paths as keys

The manifest and the output directory tell sources apart by their relative paths.  In a relative
path a backslash becomes a slash, so this works as long as no name has a backslash in it.

## Key results

- `nodup_rel_of_names`: without backslashes, sources have different relative paths and outputs
- `sources_with_one_rel`: with a backslash, two sources may have the same relative path
-/

namespace JavaOutline.Command

section

variable {excluded : (rel path : String) → Bool} {accept : (path : String) → Bool}
  {start : String}

/-- Whether no name on the way to an accepted file in a tree has a backslash. -/
def PlainlyNamed (excluded : (rel path : String) → Bool) (accept : (path : String) → Bool)
    (start : String) (tree : Entry) : Prop :=
  ∀ names content, IsReached excluded start tree names (.file content) →
    accept (pathBelow start names) = true → ∀ n ∈ names, '\\' ∉ n.toList

/-- A source without backslashes in its names has these names as its relative path. -/
theorem rel_sourceAt {names : List String} (h : ∀ n ∈ names, '\\' ∉ n.toList) :
    (sourceAt start names).rel = "/".intercalate names :=
  Path.withSlashes_intercalate h

/-- The names between slashes make an ordinary relative path. -/
theorem isRelative_sourceAt {names : List String} (hne : names ≠ [])
    (hnames : ∀ n ∈ names, Path.IsName n) (h : ∀ n ∈ names, '\\' ∉ n.toList) :
    Path.IsRelative (sourceAt start names).rel := by
  obtain ⟨init, last, rfl⟩ := (List.eq_nil_or_concat names).resolve_left hne
  rw [List.concat_eq_append] at hnames h ⊢
  exact ⟨init, last, rel_sourceAt h, hnames⟩

variable {tree : Entry} {found : List SourceFile}

/-- Sources without backslashes in their names have ordinary relative paths. -/
theorem isRelative_of_areSources (hsound : tree.IsSound)
    (h : AreSources excluded accept start tree found)
    (hplain : PlainlyNamed excluded accept start tree) :
    ∀ s ∈ found, Path.IsRelative s.rel := by
  intro s hs
  obtain ⟨names, content, hreached, haccept, rfl⟩ := (h s).1 hs
  exact isRelative_sourceAt hreached.ne_nil (hreached.isName hsound)
    (hplain names content hreached haccept)

/-- Sources without backslashes in their names have different relative paths. -/
theorem nodup_rel_of_areSources (hsound : tree.IsSound)
    (h : AreSources excluded accept start tree found) (hnodup : (found.map (·.path)).Nodup)
    (hplain : PlainlyNamed excluded accept start tree) : (found.map (·.rel)).Nodup := by
  have hfound : found.Nodup := List.Nodup.of_map _ hnodup
  apply List.Nodup.map_on _ hfound
  intro s hs t ht hrel
  obtain ⟨names, content, hreached, haccept, rfl⟩ := (h s).1 hs
  obtain ⟨names', content', hreached', haccept', rfl⟩ := (h t).1 ht
  -- Without backslashes the relative path tells the names, and these tell the source.
  rw [rel_sourceAt (hplain names content hreached haccept),
    rel_sourceAt (hplain names' content' hreached' haccept')] at hrel
  rw [Path.intercalate_inj (hreached.isName hsound) (hreached'.isName hsound) hrel]

/-- Sources without backslashes in their names have their outputs at different places. -/
theorem nodup_outputPlace_of_areSources (hsound : tree.IsSound)
    (h : AreSources excluded accept start tree found) (hnodup : (found.map (·.path)).Nodup)
    (hplain : PlainlyNamed excluded accept start tree) (o : List String) :
    (found.map fun s => outputPlace o s.rel).Nodup := by
  have hrel := isRelative_of_areSources hsound h hplain
  have hrels := nodup_rel_of_areSources hsound h hnodup hplain
  apply List.Nodup.map_on _ (List.Nodup.of_map _ hnodup)
  intro s hs t ht hplace
  exact List.inj_on_of_nodup_map hrels hs ht (outputPlace_inj (hrel s hs) (hrel t ht) hplace)

end

/-- No two sources that a walk returns have the same relative path, or outputs at the same place, if
    there is no backslash in the names on the way to them. -/
theorem nodup_rel_of_names {fs : FileSystem} (hfs : fs.Grounded) (hsound : fs.root.IsSound)
    {excluded : (rel path : String) → Bool} {accept : (path : String) → Bool} {start : String}
    {found : List SourceFile} (hfound : fs.sources excluded accept start = .ok found)
    (hplain : ∀ children, fs.entryNoFollow start = .ok (.dir children) →
      PlainlyNamed excluded accept start (.dir children)) :
    (found.map (·.rel)).Nodup ∧ ∀ o, (found.map fun s => outputPlace o s.rel).Nodup := by
  by_cases hdir : ∃ children, fs.entryNoFollow start = .ok (.dir children)
  · obtain ⟨children, hdir⟩ := hdir
    have htree := FileSystem.isSound_of_entryNoFollow hfs hsound hdir
    obtain ⟨hare, hnodup⟩ := FileSystem.areSources_of_sources_eq hdir htree hfound
    exact ⟨nodup_rel_of_areSources htree hare hnodup (hplain children hdir),
      nodup_outputPlace_of_areSources htree hare hnodup (hplain children hdir)⟩
  · -- One source alone has no other one to be confused with.
    have hlength := FileSystem.length_sources_le_one hfs hfound fun children h => hdir ⟨children, h⟩
    match found, hlength with
    | [], _ => simp
    | [s], _ => simp

/-! ## Names with and without backslashes -/

/-- A source in a directory and one beside it, under a name. -/
def besideFolder (name : String) : FileSystem where
  root := .dir [("src", .dir [("a", .dir [("b.java", .file [])]), (name, .file [])])]
  workingDir := []

/-- There are two files to come to, and no backslash in their names. -/
theorem plainlyNamed_besideFolder (excluded : (rel path : String) → Bool)
    (accept : (path : String) → Bool) (start : String) :
    PlainlyNamed excluded accept start
      (.dir [("a", .dir [("b.java", .file [])]), ("b.java", .file [])]) := by
  intro names content hreached _
  -- The names are told by going down the tree.
  match names, hreached.ne_nil, hreached.entry with
  | first :: rest, _, hget =>
    obtain ⟨e, he, hrest⟩ := Entry.exists_of_get?_cons hget
    rcases List.mem_pair.1 he with heq | heq <;> cases heq
    · match rest with
      | [] => exact nomatch hrest
      | second :: more =>
        obtain ⟨e', he', hmore⟩ := Entry.exists_of_get?_cons hrest
        cases List.mem_singleton.1 he'
        cases more with
        | nil => decide
        | cons third more => exact nomatch hmore
    · cases rest with
      | nil => decide
      | cons second more => exact nomatch hrest

/-- Two files of one name, in different directories, have different keys. -/
theorem nodup_rel_of_names_besideFolder :
    ∃ found, (besideFolder "b.java").sources ((besideFolder "b.java").isExcluded [] 0) Path.isJava
      "/src" = .ok found ∧ found.length = 2 ∧ (found.map (·.rel)).Nodup := by
  -- The walk goes through the folder first.
  have hvisits : (besideFolder "b.java").visits ((besideFolder "b.java").isExcluded [] 0)
      Path.isJava "/src" = .ok [.directory "/src", .directory "/src/a",
        .accepted ⟨"a/b.java", "/src/a/b.java"⟩, .accepted ⟨"b.java", "/src/b.java"⟩] := rfl
  -- The two sources are in order as they are found.
  have hsorted : [(⟨"a/b.java", "/src/a/b.java"⟩ : SourceFile),
      ⟨"b.java", "/src/b.java"⟩].Pairwise (fun a b => a.isLE b = true) := by
    decide
  have hfound : (besideFolder "b.java").sources ((besideFolder "b.java").isExcluded [] 0)
      Path.isJava "/src" = .ok [⟨"a/b.java", "/src/a/b.java"⟩, ⟨"b.java", "/src/b.java"⟩] := by
    rw [FileSystem.sources, hvisits]
    exact congrArg Except.ok (List.mergeSort_of_pairwise hsorted)
  have hsound : (besideFolder "b.java").root.IsSound := by decide
  have hdir : (besideFolder "b.java").entryNoFollow "/src" =
      .ok (.dir [("a", .dir [("b.java", .file [])]), ("b.java", .file [])]) := rfl
  -- No name of the tree has a backslash.
  refine ⟨_, hfound, rfl, (nodup_rel_of_names ⟨_, rfl⟩ hsound hfound fun children h => ?_).1⟩
  cases hdir.symm.trans h
  exact plainlyNamed_besideFolder _ _ _

/-- Two sources of a walk have the same relative path, as the backslash in the name of one of them
    becomes a slash. -/
theorem sources_with_one_rel :
    (besideFolder "a\\b.java").sources ((besideFolder "a\\b.java").isExcluded [] 0) Path.isJava
      "/src" = .ok [⟨"a/b.java", "/src/a/b.java"⟩, ⟨"a/b.java", "/src/a\\b.java"⟩] := by
  have hvisits : (besideFolder "a\\b.java").visits ((besideFolder "a\\b.java").isExcluded [] 0)
      Path.isJava "/src" = .ok [.directory "/src", .directory "/src/a",
        .accepted ⟨"a/b.java", "/src/a/b.java"⟩, .accepted ⟨"a/b.java", "/src/a\\b.java"⟩] := rfl
  have hsorted : [(⟨"a/b.java", "/src/a/b.java"⟩ : SourceFile),
      ⟨"a/b.java", "/src/a\\b.java"⟩].Pairwise (fun a b => a.isLE b = true) := by
    decide
  rw [FileSystem.sources, hvisits]
  exact congrArg Except.ok (List.mergeSort_of_pairwise hsorted)

end JavaOutline.Command

import JavaOutline.Proofs.Files.MakeDirs
import JavaOutline.Proofs.Files.Sources
import JavaOutline.Proofs.Glob.Defaults

/-!
# Sources outside of build output

A walk with the default patterns leaves out what lies below a directory with one of the skipped
names, and nothing else.  A directory is matched with a slash at its end, so it is excluded by its
own name; whether there is a slash is found out by looking up the path of the directory, which
leads to the directory itself.  A file is matched as it is named, so that its own name does not
matter, and neither does that of an entry whose path cannot be looked up.

## Key results

- `entryOf_pathBelow`: what the path of an entry below a directory names
- `isExcluded_of_isDir`, `isExcluded_of_not_isDir`: what the default patterns exclude
- `sources_outside_skipped`: the sources of a walk with the default patterns
- `sources_fail_outside_skipped`: such a walk that fails at a path that is too long
-/

namespace JavaOutline

/-! ## Plain names -/

/-- A name with neither a line break nor a backslash. -/
structure Path.IsPlain (name : String) : Prop where
  no_break : '\n' ∉ name.toList
  no_backslash : '\\' ∉ name.toList

instance (name : String) : Decidable (Path.IsPlain name) :=
  decidable_of_iff ('\n' ∉ name.toList ∧ '\\' ∉ name.toList) ⟨fun ⟨h, h'⟩ => ⟨h, h'⟩,
    fun ⟨h, h'⟩ => ⟨h, h'⟩⟩

namespace Entry

/-- All names in a tree are plain. -/
def HasPlainNames (tree : Entry) : Prop :=
  ∀ place x, tree.get? place = some x → ∀ n ∈ place, Path.IsPlain n

/-- Nothing has a name below a file or a link. -/
theorem hasPlainNames_leaf {e : Entry} (hleaf : ∀ children, e ≠ dir children) :
    e.HasPlainNames := by
  intro place x h
  cases place with
  | nil => exact nofun
  | cons name place =>
    cases e with
    | dir children => exact absurd rfl (hleaf children)
    | file _ | link _ => exact nomatch h

/-- The names in a directory are those of its children and those in them. -/
theorem hasPlainNames_dir {children : List (String × Entry)}
    (hnames : ∀ child ∈ children, Path.IsPlain child.1)
    (hbelow : ∀ child ∈ children, child.2.HasPlainNames) : (dir children).HasPlainNames := by
  intro place x hx
  cases place with
  | nil => exact nofun
  | cons name place =>
    obtain ⟨e, hmem, hget⟩ := exists_of_get?_cons hx
    exact List.forall_mem_cons.2 ⟨hnames _ hmem, hbelow _ hmem place x hget⟩

/-- In a tree with plain names all entries have plain names below. -/
theorem HasPlainNames.of_get? {tree e : Entry} {place : List String} (h : tree.HasPlainNames)
    (hget : tree.get? place = some e) : e.HasPlainNames := by
  intro below x hx n hn
  refine h (place ++ below) x ?_ n (List.mem_append_right place hn)
  rw [get?_append, hget]
  exact hx

end Entry

/-! ## Paths below a directory -/

/-- A path goes on below a start where the start begins. -/
theorem isAbsolute_pathBelow {start : String} {names : List String}
    (h : ∀ n ∈ names, Path.IsName n) :
    Path.isAbsolute (pathBelow start names) = Path.isAbsolute start := by
  induction names generalizing start with
  | nil => rfl
  | cons name names ih =>
    rw [List.forall_mem_cons] at h
    have hrest : pathBelow start (name :: names) = pathBelow (Path.join start name) names := rfl
    rw [hrest, ih h.2, h.1.isRelative.isAbsolute_join]

/-- A path below a start ends in a name. -/
theorem endsInSlash_pathBelow {start : String} {names : List String} (hne : names ≠ [])
    (h : ∀ n ∈ names, Path.IsName n) : Path.endsInSlash (pathBelow start names) = false := by
  obtain ⟨init, last, rfl⟩ := (List.eq_nil_or_concat names).resolve_left hne
  rw [List.concat_eq_append] at h ⊢
  rw [pathBelow_concat]
  exact (h last (by simp)).isRelative.endsInSlash_join _

namespace FileSystem

variable {fs : FileSystem} {start : String}

/-- What a path names without following a link is what it names at all, if that is no link. -/
theorem entryOf_of_entryNoFollow (hfs : fs.Grounded) {e : Entry}
    (h : fs.entryNoFollow start = .ok e) (he : ∀ t, e ≠ .link t) : fs.entryOf start = .ok e := by
  obtain ⟨hcheck, ⟨hentry, -⟩ | ⟨init, last, dir, hsteps, hlast, hleads, hget⟩⟩ :=
    entryNoFollow_cases hfs h
  · exact hentry
  · -- The last name goes on from the directory that the steps before lead to.
    obtain ⟨children, hdir⟩ := Entry.exists_dir_of_get?_append (List.cons_ne_nil last []) hget
    refine (entryOf_eq_ok_iff hfs).2 ⟨dir ++ [last], ⟨hcheck, ?_⟩, hget⟩
    rw [hsteps]
    exact (hleads.dropDots (.concat init)).append hdir fun _ =>
      leads_of_get? hget he (by simpa using hlast)

/-- The path of a directory that is no link leads there. -/
theorem exists_leads_of_dir (hfs : fs.Grounded) {children : List (String × Entry)}
    (h : fs.entryNoFollow start = .ok (.dir children)) :
    ∃ o, fs.root.get? o = some (.dir children) ∧
      Leads fs.root linkLimit (fs.start start) (Path.parts start) (.found o) := by
  obtain ⟨o, hleads, ho⟩ := (entryOf_eq_ok_iff hfs).1 (entryOf_of_entryNoFollow hfs h nofun)
  -- A slash at the end only asks once more for the directory.
  have hdots : DropsDots (steps start) (Path.parts start) := by
    unfold steps
    split
    · exact .concat _
    · rw [List.append_nil]
      exact .refl _
  exact ⟨o, ho, hleads.2.dropDots hdots⟩

/-- The path of an entry below a directory names this entry, if the path can be looked up and the
    entry is no link. -/
theorem entryOf_pathBelow (hfs : fs.Grounded) (hsound : fs.root.IsSound)
    {children : List (String × Entry)} (h : fs.entryNoFollow start = .ok (.dir children))
    {names : List String} {e : Entry} (hne : names ≠ [])
    (hget : (Entry.dir children).get? names = some e) (he : ∀ t, e ≠ .link t)
    (hcheck : checkPath (pathBelow start names) = .ok ()) :
    fs.entryOf (pathBelow start names) = .ok e := by
  obtain ⟨o, ho, hleads⟩ := exists_leads_of_dir hfs h
  -- The entry stands in the tree below the place of the start.
  have hplace : fs.root.get? (o ++ names) = some e := by
    rw [Entry.get?_append, ho]
    exact hget
  have hnames : ∀ n ∈ names, Path.IsName n := fun n hn =>
    ((hsound.of_get? hplace).2 n (List.mem_append_right o hn)).1
  have hsteps : ∀ n ∈ names, IsStep n := fun n hn =>
    isStep_of_get? hsound hplace n (List.mem_append_right o hn)
  -- The path goes the way of the start and then down by the names.
  have hway : steps (pathBelow start names) = Path.parts start ++ names := by
    rw [steps, endsInSlash_pathBelow hne hnames, parts_pathBelow hnames]
    simp
  have hstart : fs.start (pathBelow start names) = fs.start start := by
    rw [FileSystem.start, FileSystem.start, isAbsolute_pathBelow hnames]
  refine (entryOf_eq_ok_iff hfs).2 ⟨o ++ names, ⟨hcheck, ?_⟩, hplace⟩
  rw [hway, hstart]
  -- No link is met on the way down.
  exact hleads.append ho fun _ => leads_of_get? hplace he hsteps

/-- What cannot be looked up is no directory. -/
theorem isDir_of_checkPath_ne {path : String} (h : checkPath path ≠ .ok ()) :
    fs.isDir path = false := by
  unfold isDir entryOf placeOf resolve
  cases hcheck : checkPath path with
  | error cause => rfl
  | ok _ => exact absurd hcheck h

/-! ## What the default patterns exclude -/

/-- A path of plain names is matched as it is, with a slash at its end if it names a directory.  No
    size is a limit. -/
theorem isExcluded_intercalate {names : List String} (hne : names ≠ [])
    (hnames : ∀ n ∈ names, Path.IsName n) (hplain : ∀ n ∈ names, Path.IsPlain n)
    (patterns : List Glob) (path : String) :
    fs.isExcluded patterns 0 ("/".intercalate names) path =
      patterns.any (·.isMatch (if fs.isDir path then "/".intercalate names ++ "/"
        else "/".intercalate names)) := by
  have hslashes := Path.withSlashes_intercalate fun n hn => (hplain n hn).no_backslash
  have hrel := Path.isEmpty_intercalate hne hnames
  -- Only a directory that can be looked up gets the slash.
  have hdir : ((fs.entryOf path).toOption).any Entry.isDir = fs.isDir path := by
    unfold isDir
    cases fs.entryOf path <;> rfl
  simp [isExcluded, hslashes, hrel, hdir]

section

variable {names : List String} {path : String}

/-- A directory is excluded if it or one on the way has a skipped name. -/
theorem isExcluded_of_isDir (hne : names ≠ []) (hnames : ∀ n ∈ names, Path.IsName n)
    (hplain : ∀ n ∈ names, Path.IsPlain n) (hdir : fs.isDir path = true) :
    fs.isExcluded Glob.defaultExcludes 0 ("/".intercalate names) path = true ↔
      ∃ n ∈ names, n ∈ Glob.skippedNames := by
  rw [isExcluded_intercalate hne hnames hplain, if_pos hdir]
  exact Glob.any_defaultExcludes_dir_iff (fun n hn => (hnames n hn).no_slash)
    (fun n hn => (hplain n hn).no_break) hne

/-- Anything else is excluded if a directory on the way has a skipped name. -/
theorem isExcluded_of_not_isDir (hne : names ≠ []) (hnames : ∀ n ∈ names, Path.IsName n)
    (hplain : ∀ n ∈ names, Path.IsPlain n) (hdir : fs.isDir path = false) :
    fs.isExcluded Glob.defaultExcludes 0 ("/".intercalate names) path = true ↔
      ∃ n ∈ names.dropLast, n ∈ Glob.skippedNames := by
  rw [isExcluded_intercalate hne hnames hplain, if_neg (by simp [hdir])]
  exact Glob.any_defaultExcludes_path_iff (fun n hn => (hnames n hn).no_slash)
    fun n hn => (hplain n hn).no_break

end

/-- Where no name is skipped, nothing is excluded. -/
theorem isExcluded_eq_false {names : List String} {path : String} (hne : names ≠ [])
    (hnames : ∀ n ∈ names, Path.IsName n) (hplain : ∀ n ∈ names, Path.IsPlain n)
    (h : ∀ n ∈ names, n ∉ Glob.skippedNames) :
    fs.isExcluded Glob.defaultExcludes 0 ("/".intercalate names) path = false := by
  rw [← Bool.not_eq_true]
  cases hdir : fs.isDir path with
  -- Of a directory all names are matched, and of a file those in front of the last.
  | true =>
    rw [isExcluded_of_isDir hne hnames hplain hdir]
    rintro ⟨n, hn, hskipped⟩
    exact h n hn hskipped
  | false =>
    rw [isExcluded_of_not_isDir hne hnames hplain hdir]
    rintro ⟨n, hn, hskipped⟩
    exact h n (List.dropLast_subset _ hn) hskipped

end FileSystem

/-! ## Outside of skipped directories -/

/-- The entry `x` lies where names lead to below the root of a tree, and no directory on the way has
    a skipped name. -/
structure LiesOutside (tree : Entry) (names : List String) (x : Entry) : Prop where
  ne_nil : names ≠ []
  entry : tree.get? names = some x
  outside : ∀ n ∈ names.dropLast, n ∉ Glob.skippedNames

/-- The sources in a list are the accepted files of a tree outside of skipped directories. -/
def AreSourcesOutside (accept : (path : String) → Bool) (start : String) (tree : Entry)
    (found : List SourceFile) : Prop :=
  ∀ s, s ∈ found ↔ ∃ names content, LiesOutside tree names (.file content) ∧
    accept (pathBelow start names) = true ∧ s = ⟨"/".intercalate names, pathBelow start names⟩

section

variable {fs : FileSystem} {start : String} {children : List (String × Entry)}
  {names : List String} {x : Entry}

/-- What lies outside of skipped directories is reached, unless it turns out to be a directory. -/
theorem LiesOutside.isReached (h : LiesOutside (.dir children) names x)
    (hsound : (Entry.dir children).IsSound) (hplain : (Entry.dir children).HasPlainNames)
    (hdir : fs.isDir (pathBelow start names) = false) :
    IsReached (fs.isExcluded Glob.defaultExcludes 0) start (.dir children) names x where
  ne_nil := h.ne_nil
  entry := h.entry
  passes upper hne hupper := by
    have hnames : ∀ n ∈ names, Path.IsName n := fun n hn => ((hsound.of_get? h.entry).2 n hn).1
    have hproper : ∀ n ∈ names, Path.IsPlain n := hplain names x h.entry
    have hlast := List.dropLast_append_getLast h.ne_nil
    rw [← hlast, List.prefix_concat_iff, hlast] at hupper
    rcases hupper with rfl | hupper
    · -- The entry itself is matched as it is named.
      rw [← Bool.not_eq_true, FileSystem.isExcluded_of_not_isDir hne hnames hproper hdir]
      rintro ⟨n, hn, hskipped⟩
      exact h.outside n hn hskipped
    · have hmem : ∀ n ∈ upper, n ∈ names := fun n hn => List.dropLast_subset _ (hupper.subset hn)
      exact FileSystem.isExcluded_eq_false hne (fun n hn => hnames n (hmem n hn))
        (fun n hn => hproper n (hmem n hn)) fun n hn => h.outside n (hupper.subset hn)

/-- A walk with the default patterns fails if something outside of skipped directories cannot be
    looked up. -/
theorem sources_error_of_liesOutside {accept : (path : String) → Bool}
    (h : LiesOutside (.dir children) names x) (hsound : (Entry.dir children).IsSound)
    (hplain : (Entry.dir children).HasPlainNames)
    (hdir : fs.entryNoFollow start = .ok (.dir children))
    (hcheck : FileSystem.checkPath (pathBelow start names) ≠ .ok ()) :
    ∃ cause, fs.sources (fs.isExcluded Glob.defaultExcludes 0) accept start = .error cause :=
  FileSystem.sources_error_of_dir hdir hsound
    (h.isReached hsound hplain (FileSystem.isDir_of_checkPath_ne hcheck)) hcheck

section

variable (hfs : fs.Grounded) (hsound : fs.root.IsSound)
  (hdir : fs.entryNoFollow start = .ok (.dir children))

include hfs hsound hdir

/-- A file is no directory, whether its path can be looked up or not. -/
theorem isDir_of_file {content : Bytes} (hne : names ≠ [])
    (hget : (Entry.dir children).get? names = some (.file content)) :
    fs.isDir (pathBelow start names) = false := by
  by_cases hcheck : FileSystem.checkPath (pathBelow start names) = .ok ()
  · rw [FileSystem.isDir, FileSystem.entryOf_pathBelow hfs hsound hdir hne hget nofun hcheck]
    rfl
  · exact FileSystem.isDir_of_checkPath_ne hcheck

variable (hplain : (Entry.dir children).HasPlainNames)

include hplain

/-- A directory that can be looked up and is not excluded has no skipped name, and neither has one
    on the way. -/
theorem not_skipped_of_dir {cs : List (String × Entry)} (hne : names ≠ [])
    (hget : (Entry.dir children).get? names = some (.dir cs))
    (hcheck : FileSystem.checkPath (pathBelow start names) = .ok ())
    (hpasses : fs.isExcluded Glob.defaultExcludes 0 ("/".intercalate names)
      (pathBelow start names) = false) : ∀ n ∈ names, n ∉ Glob.skippedNames := by
  have htree := FileSystem.isSound_of_entryNoFollow hfs hsound hdir
  have hnames : ∀ n ∈ names, Path.IsName n := fun n hn => ((htree.of_get? hget).2 n hn).1
  -- The directory is found under its path, so it is matched with a slash behind it.
  have hisDir : fs.isDir (pathBelow start names) = true := by
    rw [FileSystem.isDir, FileSystem.entryOf_pathBelow hfs hsound hdir hne hget nofun hcheck]
    rfl
  rw [← Bool.not_eq_true, FileSystem.isExcluded_of_isDir hne hnames (hplain _ _ hget) hisDir]
    at hpasses
  exact fun n hn hskipped => hpasses ⟨n, hn, hskipped⟩

/-- What is reached lies outside of skipped directories, if all that does can be looked up. -/
theorem IsReached.liesOutside
    (h : IsReached (fs.isExcluded Glob.defaultExcludes 0) start (.dir children) names x)
    (hall : ∀ names x, LiesOutside (.dir children) names x →
      FileSystem.checkPath (pathBelow start names) = .ok ()) :
    LiesOutside (.dir children) names x := by
  suffices hway : ∀ upper, upper <+: names.dropLast → ∀ n ∈ upper, n ∉ Glob.skippedNames from
    ⟨h.ne_nil, h.entry, hway _ (List.prefix_refl _)⟩
  intro upper
  -- By induction on the way down: a directory outside can be looked up, so its name is matched.
  induction upper using List.reverseRecOn with
  | nil => exact fun _ => nofun
  | append_singleton upper name ih =>
    rintro ⟨rest, hrest⟩
    have hnames : names = upper ++ [name] ++ (rest ++ [names.getLast h.ne_nil]) := by
      rw [← List.append_assoc, hrest, List.dropLast_append_getLast]
    obtain ⟨cs, hget⟩ := Entry.exists_dir_of_get?_append (p := upper ++ [name]) (by simp)
      (hnames ▸ h.entry)
    have hupper : upper <+: names.dropLast := ⟨[name] ++ rest, by rw [← hrest, List.append_assoc]⟩
    have houtside : LiesOutside (.dir children) (upper ++ [name]) (.dir cs) :=
      ⟨by simp, hget, by rw [List.dropLast_concat]; exact ih hupper⟩
    exact not_skipped_of_dir hfs hsound hdir hplain (by simp) hget (hall _ _ houtside)
      (h.passes _ (by simp) ⟨_, hnames.symm⟩)

/-- The sources of a walk with the default patterns are the accepted files outside of skipped
    directories, if all that lies outside can be looked up. -/
theorem AreSources.outside {accept : (path : String) → Bool} {found : List SourceFile}
    (h : AreSources (fs.isExcluded Glob.defaultExcludes 0) accept start (.dir children) found)
    (hall : ∀ names x, LiesOutside (.dir children) names x →
      FileSystem.checkPath (pathBelow start names) = .ok ()) :
    AreSourcesOutside accept start (.dir children) found := by
  have htree := FileSystem.isSound_of_entryNoFollow hfs hsound hdir
  -- Without backslashes a source is named by its place as it stands.
  have hsource {names : List String} {x : Entry} (hget : (Entry.dir children).get? names = some x) :
      sourceAt start names = ⟨"/".intercalate names, pathBelow start names⟩ := by
    rw [sourceAt, Path.withSlashes_intercalate fun n hn => (hplain names x hget n hn).no_backslash]
  intro s
  rw [h s]
  constructor
  -- What the walk reaches has no skipped name on its way.
  · rintro ⟨names, content, hreached, haccept, rfl⟩
    exact ⟨names, content, hreached.liesOutside hfs hsound hdir hplain hall, haccept,
      hsource hreached.entry⟩
  -- A file that lies outside is matched as a file, so the walk reaches it.
  · rintro ⟨names, content, houtside, haccept, rfl⟩
    have hfile := isDir_of_file hfs hsound hdir houtside.ne_nil houtside.entry
    exact ⟨names, content, houtside.isReached htree hplain hfile, haccept,
      (hsource houtside.entry).symm⟩

end

/-- A walk from a file with the default patterns returns the file, if it is accepted. -/
theorem sources_default_of_file {accept : (path : String) → Bool} {content : Bytes}
    (hfs : fs.Grounded) (hsound : fs.root.IsSound) (hplain : fs.root.HasPlainNames)
    (hfile : fs.entryNoFollow start = .ok (.file content)) :
    ∃ name, Path.fileName? start = some name ∧
      fs.sources (fs.isExcluded Glob.defaultExcludes 0) accept start =
        .ok (if accept start = true then [⟨name, start⟩] else []) := by
  obtain ⟨dir, name, hname, hget⟩ := FileSystem.exists_place_of_file hfs hfile
  have hproper : Path.IsName name := ((hsound.of_get? hget).2 name (by simp)).1
  have hclean : Path.IsPlain name := hplain _ _ hget name (by simp)
  have hisDir : fs.isDir start = false := by
    rw [FileSystem.isDir, FileSystem.entryOf_of_entryNoFollow hfs hfile nofun]
    rfl
  -- A file has no name in front of its own, so no default pattern matches it.
  have hopen : fs.isExcluded Glob.defaultExcludes 0 name start = false := by
    have hnames : ∀ n ∈ [name], Path.IsName n := by simpa using hproper
    have hexcluded := FileSystem.isExcluded_of_not_isDir (by simp) hnames (by simpa using hclean)
      hisDir
    rw [String.intercalate_singleton] at hexcluded
    rw [← Bool.not_eq_true, hexcluded]
    simp
  refine ⟨name, hname, ?_⟩
  rw [FileSystem.sources_of_file hfile hname, hopen,
    Path.withSlashes_of_not_mem hclean.no_backslash]
  simp

end

/-- The default patterns match what has a skipped name as a component.  So from a directory that is
    no link, in a tree with plain names, a walk with them and without a size limit returns exactly
    the accepted files that lie outside of skipped directories, each of them once and in order, if
    all that lies outside can be looked up; if something that lies outside cannot be looked up, it
    fails.  From a file it returns this file, under its name, if it is accepted, and from a link
    nothing. -/
theorem sources_outside_skipped :
    (∀ s, Glob.defaultExcludes.any (·.isMatch s) = true ↔
      ∃ name ∈ Glob.skippedNames, Path.HasComponent name s) ∧
    ∀ (fs : FileSystem) (accept : (path : String) → Bool) (start : String),
      fs.Grounded → fs.root.IsSound → fs.root.HasPlainNames →
      (∀ children, fs.entryNoFollow start = .ok (.dir children) →
        ((∀ names x, LiesOutside (.dir children) names x →
            FileSystem.checkPath (pathBelow start names) = .ok ()) →
          ∃ found, fs.sources (fs.isExcluded Glob.defaultExcludes 0) accept start = .ok found ∧
            AreSourcesOutside accept start (.dir children) found ∧ (found.map (·.path)).Nodup ∧
            found.Pairwise fun a b => a.isLE b = true) ∧
        ∀ names x, LiesOutside (.dir children) names x →
          FileSystem.checkPath (pathBelow start names) ≠ .ok () →
          ∃ cause, fs.sources (fs.isExcluded Glob.defaultExcludes 0) accept start =
            .error cause) ∧
      (∀ content, fs.entryNoFollow start = .ok (.file content) →
        ∃ name, Path.fileName? start = some name ∧
          fs.sources (fs.isExcluded Glob.defaultExcludes 0) accept start =
            .ok (if accept start = true then [⟨name, start⟩] else [])) ∧
      ∀ target, fs.entryNoFollow start = .ok (.link target) →
        fs.sources (fs.isExcluded Glob.defaultExcludes 0) accept start = .ok [] := by
  refine ⟨fun s => Glob.any_defaultExcludes_iff, fun fs accept start hfs hsound hplain => ?_⟩
  refine ⟨fun children hdir => ?_,
    fun content hfile => sources_default_of_file hfs hsound hplain hfile,
    fun target hlink => FileSystem.sources_of_link hlink⟩
  -- Below a directory the walk is that of the reached entries.
  have htree := FileSystem.isSound_of_entryNoFollow hfs hsound hdir
  obtain ⟨place, hplace⟩ := FileSystem.exists_get?_of_entryNoFollow hfs hdir
  have hnames := hplain.of_get? hplace
  refine ⟨fun hall => ?_, fun names x hx => sources_error_of_liesOutside hx htree hnames hdir⟩
  -- A directory that is reached lies outside, so its path can be looked up.
  obtain ⟨found, hfound, hare, hnodup, hsorted⟩ :=
    FileSystem.exists_sources_of_dir hdir htree fun names x hx =>
      hall names x (hx.liesOutside hfs hsound hdir hnames hall)
  exact ⟨found, hfound, hare.outside hfs hsound hdir hnames hall, hnodup, hsorted⟩

/-- A directory with build output, and with names that only look like it. -/
def builtDir : List (String × Entry) :=
  [("target", .dir [("A.java", .file [])]),
    ("builder", .dir [("target", .file []), (".git", .dir [("B.java", .file [])])]),
    ("up", .link "target")]

/-- The files of this directory. -/
def builtFiles : FileSystem where
  root := .dir [("src", .dir builtDir)]
  workingDir := []

theorem hasPlainNames_builtFiles : builtFiles.root.HasPlainNames := by
  have hfile : (Entry.file []).HasPlainNames := Entry.hasPlainNames_leaf nofun
  have hlink : (Entry.link "target").HasPlainNames := Entry.hasPlainNames_leaf nofun
  -- The tree is built up from the leaves, one directory at a time.
  have hsource (name : String) (hname : Path.IsPlain name) :
      (Entry.dir [(name, .file [])]).HasPlainNames :=
    Entry.hasPlainNames_dir (by simpa using hname) (by simpa using hfile)
  have hbuilder : (Entry.dir
      [("target", .file []), (".git", .dir [("B.java", .file [])])]).HasPlainNames :=
    Entry.hasPlainNames_dir (by decide) (by simpa using ⟨hfile, hsource "B.java" (by decide)⟩)
  have hbuilt : (Entry.dir builtDir).HasPlainNames :=
    Entry.hasPlainNames_dir (by decide)
      (by simpa [builtDir] using ⟨hsource "A.java" (by decide), hbuilder, hlink⟩)
  exact Entry.hasPlainNames_dir (by decide) (by simpa using hbuilt)

/-- What is left of the directory without build output, a file in the build output itself, and a
    link to it. -/
theorem sources_outside_skipped_builtFiles :
    builtFiles.Grounded ∧ builtFiles.root.IsSound ∧ builtFiles.root.HasPlainNames ∧
    builtFiles.entryNoFollow "src" = .ok (.dir builtDir) ∧
    (builtFiles.sources (builtFiles.isExcluded Glob.defaultExcludes 0) (fun _ => true) "src" =
        .ok [⟨"builder/target", "src/builder/target"⟩] ∧
      AreSourcesOutside (fun _ => true) "src" (.dir builtDir)
        [⟨"builder/target", "src/builder/target"⟩]) ∧
    builtFiles.sources (builtFiles.isExcluded Glob.defaultExcludes 0) (fun _ => true)
      "src/target/A.java" = .ok [⟨"A.java", "src/target/A.java"⟩] ∧
    builtFiles.sources (builtFiles.isExcluded Glob.defaultExcludes 0) (fun _ => true) "src/up" =
      .ok [] := by
  have hfiles : builtFiles.Grounded ∧ builtFiles.root.IsSound := by decide
  have hdir : builtFiles.entryNoFollow "src" = .ok (.dir builtDir) := rfl
  have hone : builtFiles.sources (builtFiles.isExcluded Glob.defaultExcludes 0) (fun _ => true)
      "src" = .ok [⟨"builder/target", "src/builder/target"⟩] := by
    decide +kernel
  have hwalk (start : String) := sources_outside_skipped.2 builtFiles (fun _ => true) start
    hfiles.1 hfiles.2 hasPlainNames_builtFiles
  refine ⟨hfiles.1, hfiles.2, hasPlainNames_builtFiles, hdir, ⟨hone, ?_⟩, ?_, ?_⟩
  · obtain ⟨hfinds, hfails⟩ := (hwalk "src").1 builtDir hdir
    -- The walk does not fail, so all that lies outside can be looked up.
    obtain ⟨found, hfound, hare, -⟩ := hfinds fun names x hx => by
      by_contra hcheck
      obtain ⟨cause, hcause⟩ := hfails names x hx hcheck
      exact nomatch hone.symm.trans hcause
    obtain rfl := Except.ok.inj (hone.symm.trans hfound)
    exact hare
  · have hname : Path.fileName? "src/target/A.java" = some "A.java" := by decide
    obtain ⟨name, hname', hfile⟩ := (hwalk "src/target/A.java").2.1 [] rfl
    obtain rfl := Option.some.inj (hname.symm.trans hname')
    exact hfile
  · exact (hwalk "src/up").2.2 "target" rfl

theorem hasPlainNames_dottedFiles : dottedFiles.root.HasPlainNames := by
  have hfile : (Entry.file []).HasPlainNames := Entry.hasPlainNames_leaf nofun
  have hd : (Entry.dir [("A.java", .file [])]).HasPlainNames :=
    Entry.hasPlainNames_dir (by decide) (by simpa using hfile)
  exact Entry.hasPlainNames_dir (by decide) (by simpa using hd)

/-- The files cannot always be found: a path that is too long is an error. -/
theorem sources_fail_outside_skipped :
    ¬∀ (fs : FileSystem) (accept : (path : String) → Bool) (start : String)
      (children : List (String × Entry)), fs.Grounded → fs.root.IsSound → fs.root.HasPlainNames →
      fs.entryNoFollow start = .ok (.dir children) →
      ∃ found, fs.sources (fs.isExcluded Glob.defaultExcludes 0) accept start = .ok found ∧
        AreSourcesOutside accept start (.dir children) found := by
  intro hall
  have hfiles : dottedFiles.Grounded ∧ dottedFiles.root.IsSound := by decide
  -- The start is written with so many dots that a path below it is too long.
  have hdir := entryNoFollow_dotted (n := 2046) (by decide)
  have hplain := hasPlainNames_dottedFiles
  obtain ⟨found, hfound, -⟩ :=
    hall dottedFiles (fun _ => true) (dotted 2046) _ hfiles.1 hfiles.2 hplain hdir
  have houtside : LiesOutside (.dir [("A.java", .file [])]) ["A.java"] (.file []) :=
    ⟨by simp, rfl, by simp⟩
  have hget : dottedFiles.root.get? ["d"] = some (.dir [("A.java", .file [])]) := rfl
  have hsound := FileSystem.isSound_of_entryNoFollow hfiles.1 hfiles.2 hdir
  -- The walk fails on the one source, where it should have found it.
  obtain ⟨cause, hfail⟩ :=
    sources_error_of_liesOutside houtside hsound (hplain.of_get? hget) hdir checkPath_below_dotted
  exact nomatch hfound.symm.trans hfail

end JavaOutline

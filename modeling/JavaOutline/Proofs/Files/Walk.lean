import JavaOutline.Proofs.Files.Growth
import JavaOutline.Proofs.Files.Path

/-!
# The sources that a walk finds

In a sound tree the children of a directory have different names without slashes.  There, as long
as no path has a backslash, which would be taken for a slash, a walk finds every source under its
own relative path, and the path of a source leads to the file that was found.

## Key results

- `exists_isSource`: an accepted source is a Java file that its path leads to
- `nodup_rel_sourcesOf`: no two sources have the same relative path
-/

namespace JavaOutline

/-! ## Sound trees -/

namespace Entry

mutual

/-- A tree as a file system has it: the children of a directory have different names, none of
    them too long. -/
def IsSound : Entry → Prop
  | dir children => (children.map (·.1)).Nodup ∧ AreSound children
  | file _ | link _ => True

/-- Children that are sound and have proper names. -/
def AreSound : List (String × Entry) → Prop
  | [] => True
  | (name, e) :: rest =>
    (Path.IsName name ∧ FileSystem.isNameTooLong name = false) ∧ IsSound e ∧ AreSound rest

end

mutual

/-- Soundness can be decided. -/
def decideIsSound : (e : Entry) → Decidable e.IsSound
  | dir children =>
    have := decideAreSound children
    inferInstanceAs (Decidable ((children.map (·.1)).Nodup ∧ AreSound children))
  | file _ | link _ => inferInstanceAs (Decidable True)

/-- Soundness of children can be decided. -/
def decideAreSound : (children : List (String × Entry)) → Decidable (AreSound children)
  | [] => inferInstanceAs (Decidable True)
  | (name, e) :: rest =>
    have := decideIsSound e
    have := decideAreSound rest
    inferInstanceAs (Decidable ((Path.IsName name ∧ FileSystem.isNameTooLong name = false) ∧
      IsSound e ∧ AreSound rest))

end

instance (e : Entry) : Decidable e.IsSound :=
  decideIsSound e

/-- A child of sound children. -/
theorem AreSound.of_mem {children : List (String × Entry)} (h : AreSound children) {name : String}
    {e : Entry} (hmem : (name, e) ∈ children) :
    (Path.IsName name ∧ FileSystem.isNameTooLong name = false) ∧ e.IsSound := by
  -- By induction on the children, as soundness is told one child at a time.
  induction children with
  | nil => simp at hmem
  | cons c children ih =>
    obtain ⟨n, x⟩ := c
    obtain ⟨hname, hx, hrest⟩ := h
    rcases List.mem_cons.1 hmem with heq | hmem
    · cases heq
      exact ⟨hname, hx⟩
    · exact ih hrest hmem

/-- A child that is found is one of the children. -/
theorem mem_of_child? {name : String} {e : Entry} {children : List (String × Entry)}
    (h : child? name children = some e) : (name, e) ∈ children := by
  induction children with
  | nil => simp [child?] at h
  | cons c children ih =>
    rw [child?] at h
    split at h
    · rename_i heq
      obtain rfl := eq_of_beq heq
      cases h
      exact List.mem_cons_self
    · exact List.mem_cons_of_mem c (ih h)

/-- What is at a place below a directory is at or below one of its children. -/
theorem exists_of_get?_cons {children : List (String × Entry)} {name : String}
    {names : List String} {x : Entry} (h : (dir children).get? (name :: names) = some x) :
    ∃ e, (name, e) ∈ children ∧ e.get? names = some x := by
  rw [get?_cons] at h
  obtain ⟨e, he, hx⟩ := Option.bind_eq_some_iff.1 h
  exact ⟨e, mem_of_child? he, hx⟩

/-- Among different names every child is found. -/
theorem child?_of_mem {name : String} {e : Entry} {children : List (String × Entry)}
    (hnodup : (children.map (·.1)).Nodup) (h : (name, e) ∈ children) :
    child? name children = some e := by
  induction children with
  | nil => simp at h
  | cons c children ih =>
    rw [List.map_cons, List.nodup_cons] at hnodup
    rcases List.mem_cons.1 h with rfl | h
    · simp [child?]
    -- The first child has another name.
    · have hne : c.1 ≠ name := by
        rintro rfl
        exact hnodup.1 (List.mem_map.2 ⟨_, h, rfl⟩)
      simp [child?, hne, ih hnodup.2 h]

/-- What is found in a sound tree is sound, and so are the names that lead there. -/
theorem IsSound.of_get? {root e : Entry} {place : List String} (h : root.IsSound)
    (hget : root.get? place = some e) :
    e.IsSound ∧ ∀ n ∈ place, Path.IsName n ∧ FileSystem.isNameTooLong n = false := by
  -- By induction on the way down.
  induction place generalizing root with
  | nil =>
    obtain rfl : root = e := by simpa using hget
    exact ⟨h, by simp⟩
  | cons name names ih =>
    cases root with
    | file _ | link _ => simp [get?] at hget
    | dir children =>
      rw [get?_cons] at hget
      cases hchild : child? name children with
      | none => simp [hchild] at hget
      | some x =>
        rw [hchild, Option.bind_some] at hget
        obtain ⟨hname, hx⟩ := h.2.of_mem (mem_of_child? hchild)
        obtain ⟨he, hnames⟩ := ih hx hget
        refine ⟨he, fun n hn => ?_⟩
        rcases List.mem_cons.1 hn with rfl | hn
        · exact hname
        · exact hnames n hn

end Entry

/-! ## Visits -/

/-- A source that was found below an entry: the entry has the relative path `names`, seen from the
    place `before`, and the source has the names `more` behind it. -/
structure FoundBelow (accept : (path : String) → Bool) (before names : List String) (e : Entry)
    (more : List String) (s : SourceFile) : Prop where
  rel_eq : s.rel = Path.withSlashes ("/".intercalate (names ++ more))
  path_eq : s.path = FileSystem.pathOf (before ++ names ++ more)
  file : ∃ content, e.get? more = some (.file content)
  accepted : accept s.path = true
  checked : FileSystem.checkPath s.path = .ok ()

namespace FoundBelow

variable {accept : (path : String) → Bool} {before names more : List String} {e : Entry}
  {s : SourceFile}

/-- What is found below a child is found below its directory. -/
theorem of_child {name : String} {children : List (String × Entry)}
    (h : FoundBelow accept before (names ++ [name]) e more s)
    (hchild : Entry.child? name children = some e) :
    FoundBelow accept before names (.dir children) (name :: more) s where
  rel_eq := by simpa using h.rel_eq
  path_eq := by simpa using h.path_eq
  file := by simpa [Entry.get?_cons, hchild] using h.file
  accepted := h.accepted
  checked := h.checked

/-- The names on the way to a source are proper ones. -/
theorem isName (h : FoundBelow accept before names e more s) (he : e.IsSound) :
    ∀ n ∈ more, Path.IsName n := by
  obtain ⟨content, hfile⟩ := h.file
  intro n hn
  exact ((he.of_get? hfile).2 n hn).1

/-- Without a backslash in its path, a source has its names as relative path. -/
theorem rel_eq_intercalate (h : FoundBelow accept before names e more s)
    (hslash : '\\' ∉ s.path.toList) : s.rel = "/".intercalate (names ++ more) := by
  rw [h.rel_eq, Path.withSlashes_of_not_mem]
  -- A backslash in a name would be one in the path.
  refine Path.not_mem_intercalate (by decide) fun n hn hmem => hslash ?_
  rw [h.path_eq, FileSystem.pathOf, String.toList_append, List.mem_append, List.append_assoc]
  exact .inr (Path.mem_intercalate_of_mem (List.mem_append_right before hn) hmem)

end FoundBelow

/-- One more name. -/
theorem forall_mem_concat {names : List String} {name : String}
    (hnames : ∀ n ∈ names, Path.IsName n) (hname : Path.IsName name) :
    ∀ n ∈ names ++ [name], Path.IsName n := by
  simpa [or_imp, forall_and] using ⟨hnames, hname⟩

section

variable {excluded : (rel path : String) → Bool} {accept : (path : String) → Bool}
variable {rel path : String} {vs : List Visit}

/-- The source among the visits to a file. -/
theorem sources_visitEntry_file {content : Bytes}
    (h : visitEntry excluded accept rel path (.file content) = .ok vs) :
    vs.filterMap Visit.source? = [] ∨
      vs.filterMap Visit.source? = [⟨Path.withSlashes rel, path⟩] ∧ accept path = true ∧
        FileSystem.checkPath path = .ok () := by
  rw [visitEntry] at h
  -- An excluded file is no source, and one that cannot be looked up makes the walk fail.
  split at h
  · cases h
    exact .inl rfl
  cases hcheck : FileSystem.checkPath path with
  | error e => simp [hcheck, bind, Except.bind] at h
  | ok _ =>
    simp only [hcheck, bind, Except.bind, pure, Except.pure, Except.ok.injEq] at h
    subst h
    -- What is left is whether the file is accepted.
    unfold visitFile
    split
    · rename_i haccept
      exact .inr ⟨rfl, haccept, rfl⟩
    · exact .inl rfl

/-- There is no source among the visits to a link. -/
theorem sources_visitEntry_link {target : String}
    (h : visitEntry excluded accept rel path (.link target) = .ok vs) :
    vs.filterMap Visit.source? = [] := by
  rw [visitEntry] at h
  -- Excluded or not, a link is not followed.
  split at h
  · cases h
    rfl
  cases hcheck : FileSystem.checkPath path with
  | error e => simp [hcheck, bind, Except.bind] at h
  | ok _ =>
    simp only [hcheck, bind, Except.bind, pure, Except.pure, Except.ok.injEq] at h
    subst h
    rfl

/-- The sources among the visits to a directory are those of its children. -/
theorem sources_visitEntry_dir {children : List (String × Entry)}
    (h : visitEntry excluded accept rel path (.dir children) = .ok vs) :
    vs.filterMap Visit.source? = [] ∨
      ∃ vs', visitChildren excluded accept rel path children = .ok vs' ∧
        vs.filterMap Visit.source? = vs'.filterMap Visit.source? := by
  rw [visitEntry] at h
  -- An excluded directory is not entered.
  split at h
  · cases h
    exact .inl rfl
  cases hcheck : FileSystem.checkPath path with
  | error e => simp [hcheck, bind, Except.bind] at h
  | ok _ =>
    simp only [hcheck, bind, Except.bind] at h
    cases hrest : visitChildren excluded accept rel path children with
    -- A failure below makes the walk fail.
    | error e => simp [hrest] at h
    | ok vs' =>
      simp only [hrest, pure, Except.pure, Except.ok.injEq] at h
      subst h
      exact .inr ⟨vs', rfl, rfl⟩

/-- The visits to children are those to the first and those to the others. -/
theorem visitChildren_cons {name : String} {e : Entry} {children : List (String × Entry)}
    (h : visitChildren excluded accept rel path ((name, e) :: children) = .ok vs) :
    ∃ first others,
      visitEntry excluded accept (below rel name) (Path.join path name) e = .ok first ∧
      visitChildren excluded accept rel path children = .ok others ∧ vs = first ++ others := by
  rw [visitChildren] at h
  cases hfirst : visitEntry excluded accept (below rel name) (Path.join path name) e with
  -- A failure of either part makes the walk fail.
  | error e => simp [hfirst, bind, Except.bind] at h
  | ok first =>
    cases hothers : visitChildren excluded accept rel path children with
    | error e => simp [hfirst, hothers, bind, Except.bind] at h
    | ok others =>
      simp only [hfirst, hothers, bind, Except.bind, pure, Except.pure, Except.ok.injEq] at h
      exact ⟨first, others, rfl, rfl, h.symm⟩

mutual

/-- The sources among the visits to an entry are accepted ones. -/
theorem accept_of_visitEntry {rel path : String} {vs : List Visit} {s : SourceFile} :
    {e : Entry} → visitEntry excluded accept rel path e = .ok vs →
    s ∈ vs.filterMap Visit.source? → accept s.path = true
  | .file content, h, hs => by
    rcases sources_visitEntry_file h with hnone | ⟨hone, haccept, -⟩
    · simp [hnone] at hs
    · rw [hone, List.mem_singleton] at hs
      rwa [hs]
  | .link target, h, hs => by
    simp [sources_visitEntry_link h] at hs
  | .dir children, h, hs => by
    -- The sources of a directory are those of its children.
    rcases sources_visitEntry_dir h with hnone | ⟨vs', hvs', heq⟩
    · simp [hnone] at hs
    · exact accept_of_visitChildren hvs' (heq ▸ hs)

/-- The sources among the visits to children are accepted ones. -/
theorem accept_of_visitChildren {rel path : String} {vs : List Visit} {s : SourceFile} :
    {children : List (String × Entry)} →
    visitChildren excluded accept rel path children = .ok vs →
    s ∈ vs.filterMap Visit.source? → accept s.path = true
  | [], h, hs => by
    rw [visitChildren] at h
    cases h
    simp at hs
  | (name, e) :: children, h, hs => by
    obtain ⟨first, others, hfirst, hothers, rfl⟩ := visitChildren_cons h
    rw [List.filterMap_append, List.mem_append] at hs
    -- The source is found at the first child or at another one.
    rcases hs with hs | hs
    · exact accept_of_visitEntry hfirst hs
    · exact accept_of_visitChildren hothers hs

end

/-- The sources that a walk returns are accepted ones, wherever it starts. -/
theorem accept_of_mem_sourcesOf {fs : FileSystem} {start : String} {visits : List Visit}
    {s : SourceFile} (h : fs.visits excluded accept start = .ok visits)
    (hs : s ∈ sourcesOf visits) : accept s.path = true := by
  have hsource : s ∈ visits.filterMap Visit.source? := List.mem_mergeSort.1 hs
  unfold FileSystem.visits at h
  cases hentry : fs.entryNoFollow start with
  | error e => simp [hentry, bind, Except.bind] at h
  | ok e =>
    simp only [hentry, bind, Except.bind] at h
    cases e with
    -- A link or an excluded file gives no source, and an accepted file itself.
    | link target =>
      cases h
      simp [Visit.source?] at hsource
    | file content =>
      simp only at h
      split at h
      · cases h
        simp [Visit.source?] at hsource
      · cases h
        unfold visitFile at hsource
        split at hsource
        · rename_i haccept
          obtain rfl : s = _ := by simpa [Visit.source?] using hsource
          exact haccept
        · simp [Visit.source?] at hsource
    -- Entering the directory is no source, so it is one of those below.
    | dir children =>
      cases hvisits : visitChildren excluded accept "" start children with
      | error e => simp [hvisits] at h
      | ok vs =>
        simp only [hvisits, pure, Except.pure, Except.ok.injEq] at h
        subst h
        exact accept_of_visitChildren hvisits (by simpa [Visit.source?] using hsource)

end

section

variable {excluded : (rel path : String) → Bool} {accept : (path : String) → Bool}

/-- The path of a child. -/
theorem join_pathOf_append {before names : List String} {name : String}
    (hbefore : ∀ n ∈ before, Path.IsName n) (hnames : ∀ n ∈ names, Path.IsName n)
    (hname : Path.IsName name) :
    Path.join (FileSystem.pathOf (before ++ names)) name =
      FileSystem.pathOf (before ++ (names ++ [name])) := by
  rw [FileSystem.join_pathOf (List.forall_mem_append.2 ⟨hbefore, hnames⟩) hname,
    List.append_assoc]

mutual

/-- The sources among the visits to an entry are files below it. -/
theorem foundBelow_of_visitEntry {before names : List String} {vs : List Visit} {s : SourceFile}
    (hbefore : ∀ n ∈ before, Path.IsName n) (hnames : ∀ n ∈ names, Path.IsName n) :
    {e : Entry} → e.IsSound →
    visitEntry excluded accept ("/".intercalate names) (FileSystem.pathOf (before ++ names)) e =
      .ok vs →
    s ∈ vs.filterMap Visit.source? → ∃ more, FoundBelow accept before names e more s
  | .file content, _, h, hs => by
    -- The file is the source itself.
    rcases sources_visitEntry_file h with hnone | ⟨hone, haccept, hcheck⟩
    · simp [hnone] at hs
    · rw [hone, List.mem_singleton] at hs
      subst hs
      exact ⟨[], by simp, by simp, ⟨content, by simp⟩, haccept, hcheck⟩
  | .link target, _, h, hs => by
    simp [sources_visitEntry_link h] at hs
  | .dir children, he, h, hs => by
    rcases sources_visitEntry_dir h with hnone | ⟨vs', hvs', heq⟩
    · simp [hnone] at hs
    -- The names below go on with the name of the child.
    · obtain ⟨name, e, more, hmem, hbelow⟩ :=
        foundBelow_of_visitChildren hbefore hnames he.2 hvs' (heq ▸ hs)
      exact ⟨name :: more, hbelow.of_child (Entry.child?_of_mem he.1 hmem)⟩

/-- The sources among the visits to children are files below one of them. -/
theorem foundBelow_of_visitChildren {before names : List String} {vs : List Visit}
    {s : SourceFile} (hbefore : ∀ n ∈ before, Path.IsName n)
    (hnames : ∀ n ∈ names, Path.IsName n) :
    {children : List (String × Entry)} → Entry.AreSound children →
    visitChildren excluded accept ("/".intercalate names) (FileSystem.pathOf (before ++ names))
      children = .ok vs →
    s ∈ vs.filterMap Visit.source? →
    ∃ name e more, (name, e) ∈ children ∧ FoundBelow accept before (names ++ [name]) e more s
  | [], _, h, hs => by
    rw [visitChildren] at h
    cases h
    simp at hs
  | (name, e) :: children, hsound, h, hs => by
    obtain ⟨⟨hname, -⟩, he, hchildren⟩ := hsound
    obtain ⟨first, others, hfirst, hothers, rfl⟩ := visitChildren_cons h
    rw [List.filterMap_append, List.mem_append] at hs
    rcases hs with hs | hs
    -- The child stands under the names so far, followed by its own.
    · rw [below_intercalate hnames, join_pathOf_append hbefore hnames hname] at hfirst
      obtain ⟨more, hbelow⟩ :=
        foundBelow_of_visitEntry hbefore (forall_mem_concat hnames hname) he hfirst hs
      exact ⟨name, e, more, List.mem_cons_self, hbelow⟩
    · obtain ⟨n, x, more, hmem, hbelow⟩ :=
        foundBelow_of_visitChildren hbefore hnames hchildren hothers hs
      exact ⟨n, x, more, List.mem_cons_of_mem _ hmem, hbelow⟩

end

mutual

/-- No two sources below an entry have the same relative path. -/
theorem nodup_rel_visitEntry {before names : List String} {vs : List Visit}
    (hbefore : ∀ n ∈ before, Path.IsName n) (hnames : ∀ n ∈ names, Path.IsName n)
    (hslash : ∀ s ∈ vs.filterMap Visit.source?, '\\' ∉ s.path.toList) :
    {e : Entry} → e.IsSound →
    visitEntry excluded accept ("/".intercalate names) (FileSystem.pathOf (before ++ names)) e =
      .ok vs →
    ((vs.filterMap Visit.source?).map (·.rel)).Nodup
  | .file content, _, h => by
    rcases sources_visitEntry_file h with hnone | ⟨hone, -, -⟩
    · simp [hnone]
    · simp [hone]
  | .link target, _, h => by
    simp [sources_visitEntry_link h]
  | .dir children, he, h => by
    rcases sources_visitEntry_dir h with hnone | ⟨vs', hvs', heq⟩
    · simp [hnone]
    -- A directory has no source but those below it.
    · rw [heq] at hslash ⊢
      exact nodup_rel_visitChildren hbefore hnames hslash he.1 he.2 hvs'

/-- No two sources below different children have the same relative path. -/
theorem nodup_rel_visitChildren {before names : List String} {vs : List Visit}
    (hbefore : ∀ n ∈ before, Path.IsName n) (hnames : ∀ n ∈ names, Path.IsName n)
    (hslash : ∀ s ∈ vs.filterMap Visit.source?, '\\' ∉ s.path.toList) :
    {children : List (String × Entry)} → (children.map (·.1)).Nodup → Entry.AreSound children →
    visitChildren excluded accept ("/".intercalate names) (FileSystem.pathOf (before ++ names))
      children = .ok vs →
    ((vs.filterMap Visit.source?).map (·.rel)).Nodup
  | [], _, _, h => by
    rw [visitChildren] at h
    cases h
    simp
  | (name, e) :: children, hnodup, hsound, h => by
    obtain ⟨⟨hname, -⟩, he, hchildren⟩ := hsound
    obtain ⟨first, others, hfirst, hothers, rfl⟩ := visitChildren_cons h
    rw [below_intercalate hnames, join_pathOf_append hbefore hnames hname] at hfirst
    rw [List.map_cons, List.nodup_cons] at hnodup
    rw [List.filterMap_append, List.forall_mem_append] at hslash
    have hnames' := forall_mem_concat hnames hname
    rw [List.filterMap_append, List.map_append, List.nodup_append]
    refine ⟨nodup_rel_visitEntry hbefore hnames' hslash.1 he hfirst,
      nodup_rel_visitChildren hbefore hnames hslash.2 hnodup.2 hchildren hothers, ?_⟩
    intro a ha b hb hab
    obtain ⟨s, hs, rfl⟩ := List.mem_map.1 ha
    obtain ⟨t, ht, rfl⟩ := List.mem_map.1 hb
    obtain ⟨more, hbelow⟩ := foundBelow_of_visitEntry hbefore hnames' he hfirst hs
    obtain ⟨n, x, more', hmem, hbelow'⟩ :=
      foundBelow_of_visitChildren hbefore hnames hchildren hothers ht
    obtain ⟨⟨hn, -⟩, hx⟩ := hchildren.of_mem hmem
    -- Equal relative paths would have equal names, so both sources were below one child.
    have heq : names ++ [name] ++ more = names ++ [n] ++ more' := by
      rw [hbelow.rel_eq_intercalate (hslash.1 s hs), hbelow'.rel_eq_intercalate (hslash.2 t ht)]
        at hab
      refine Path.intercalate_inj ?_ ?_ hab
      · exact List.forall_mem_append.2 ⟨hnames', hbelow.isName he⟩
      · exact List.forall_mem_append.2 ⟨forall_mem_concat hnames hn, hbelow'.isName hx⟩
    obtain rfl : name = n := by
      rw [List.append_assoc, List.append_assoc, List.append_cancel_left_eq] at heq
      exact (List.cons.inj heq).1
    exact hnodup.1 (List.mem_map.2 ⟨_, hmem, rfl⟩)

end

end

/-! ## Sources -/

namespace FileSystem

variable {fs : FileSystem}

/-- A canonical path is the path of a place where something is that is no link. -/
theorem exists_place_of_canonical {path start : String} (hfs : fs.Grounded)
    (h : fs.canonical path = .ok start) :
    ∃ place e, start = pathOf place ∧ fs.root.get? place = some e ∧ ∀ t, e ≠ .link t := by
  unfold canonical at h
  cases hnames : checkNames path with
  | error e => simp [hnames, bind, Except.bind] at h
  | ok _ =>
    simp only [hnames, bind, Except.bind] at h
    cases hway : fs.follow (fs.start path) (steps path) with
    | error e => simp [hway] at h
    | ok p =>
      have hleads := (follow_eq_ok_iff (hfs.start path)).1 hway
      rcases hleads.end_cases (hfs.start path) with ⟨place, e, rfl, hget, hlink⟩ |
        ⟨dir, name, _, rfl, -, -⟩
      · simp only [hway] at h
        split at h
        · exact nomatch h
        -- What is found is given by its place.
        · cases h
          exact ⟨place, e, rfl, hget, hlink⟩
      -- What is absent has no canonical path.
      · simp only [hway] at h
        exact nomatch h

/-- The names of a place in a sound tree are steps to it. -/
theorem isStep_of_get? {place : List String} {e : Entry} (hsound : fs.root.IsSound)
    (hget : fs.root.get? place = some e) : ∀ n ∈ place, IsStep n := by
  intro n hn
  obtain ⟨hname, hshort⟩ := (hsound.of_get? hget).2 n hn
  exact ⟨hname.ne_dot, hname.ne_dots, hshort⟩

@[simp] theorem start_pathOf (place : List String) : fs.start (pathOf place) = [] := by
  simp [start]

/-- The steps of the path of a place behind the root are its names. -/
theorem steps_pathOf {place : List String} {name : String}
    (h : ∀ n ∈ place ++ [name], Path.IsName n) :
    steps (pathOf (place ++ [name])) = place ++ [name] := by
  rw [steps, parts_pathOf h, endsInSlash_pathOf (h name (by simp))]
  simp

/-- The path of a place leads to it. -/
theorem leadsTo_pathOf {place : List String} {e : Entry} (hsound : fs.root.IsSound)
    (hget : fs.root.get? place = some e) (hlink : ∀ t, e ≠ .link t)
    (hcheck : checkPath (pathOf place) = .ok ()) : fs.LeadsTo (pathOf place) (.found place) := by
  refine ⟨hcheck, ?_⟩
  rw [start_pathOf]
  -- The path of the root has no parts but ends in a slash.
  rcases List.eq_nil_or_concat place with rfl | ⟨init, last, rfl⟩
  · exact .dot .done
  · rw [List.concat_eq_append] at hget ⊢
    rw [steps_pathOf fun n hn => ((hsound.of_get? hget).2 n hn).1]
    exact @leads_of_get? _ _ [] _ _ hget hlink (isStep_of_get? hsound hget)

/-- The entry of the path of a place is the entry at this place. -/
theorem entryNoFollow_pathOf {place : List String} {e x : Entry} (hfs : fs.Grounded)
    (hsound : fs.root.IsSound) (hget : fs.root.get? place = some e) (hlink : ∀ t, e ≠ .link t)
    (h : fs.entryNoFollow (pathOf place) = .ok x) :
    checkPath (pathOf place) = .ok () ∧ x = e := by
  unfold entryNoFollow at h
  cases hcheck : checkPath (pathOf place) with
  | error e => simp [hcheck, bind, Except.bind] at h
  | ok _ =>
    refine ⟨rfl, ?_⟩
    simp only [hcheck, bind, Except.bind] at h
    rcases List.eq_nil_or_concat place with rfl | ⟨init, last, rfl⟩
    · -- The root is not looked up in another directory.
      have hroot := (entryOf_eq_ok_iff hfs).2 ⟨[], leadsTo_pathOf hsound hget hlink hcheck, hget⟩
      have hsteps : (steps (pathOf [])).getLast? = some "." := rfl
      simp only [hsteps, hroot] at h
      exact (Except.ok.inj h).symm
    · rw [List.concat_eq_append] at hget h
      have hnames := (hsound.of_get? hget).2
      obtain ⟨hlast, hshort⟩ := hnames last (by simp)
      obtain ⟨children, hdir⟩ := Entry.exists_dir_of_get?_append (by simp) hget
      -- The last name is looked up in the directory that the other names lead to.
      have hway : Leads fs.root linkLimit [] (init ++ ["."]) (.found init) :=
        (@leads_of_get? _ _ [] _ _ hdir nofun (isStep_of_get? hsound hdir)).append hdir
          fun _ => .dot .done
      have hfollow : fs.follow [] (init ++ ["."]) = .ok (.found init) :=
        (follow_eq_ok_iff (exists_dir_nil hdir)).2 hway
      rw [steps_pathOf fun n hn => (hnames n hn).1] at h
      simp only [List.getLast?_concat, List.dropLast_concat, start_pathOf, hfollow, hget, hshort,
        beq_iff_eq, hlast.ne_dot, hlast.ne_dots, Bool.or_eq_true, or_self, if_false] at h
      exact (Except.ok.inj h).symm

end FileSystem

/-- A Java source with its content, found under a relative path. -/
structure IsSource (fs : FileSystem) (s : SourceFile) (content : Bytes) : Prop where
  java : Path.isJava s.path = true
  rel : Path.IsRelative s.rel
  leads : fs.LeadsTo s.path (.found (Path.parts s.path))
  file : fs.root.get? (Path.parts s.path) = some (.file content)

/-- A source stays what it is while other files are written. -/
theorem IsSource.grew {fs fs' : FileSystem} {s : SourceFile} {content : Bytes}
    {free : List String → Prop} (hs : IsSource fs s content) (hgrew : FileSystem.Grew free fs fs')
    (hfree : ¬ free (Path.parts s.path)) : IsSource fs' s content :=
  { hs with
    leads := hgrew.leadsTo hs.leads
    file := (hgrew.root.fixed hfree).2 hs.file }

/-- What is found below a place is a source. -/
theorem FoundBelow.isSource {fs : FileSystem} {before names more : List String} {e : Entry}
    {s : SourceFile} (h : FoundBelow Path.isJava before names e more s)
    (hsound : fs.root.IsSound) (hget : fs.root.get? (before ++ names) = some e)
    (hne : names ++ more ≠ []) (hslash : '\\' ∉ s.path.toList) :
    ∃ content, IsSource fs s content := by
  obtain ⟨content, hfile⟩ := h.file
  -- The file stands in the tree under all its names.
  have hplace : fs.root.get? (before ++ names ++ more) = some (.file content) := by
    rw [Entry.get?_append, hget]
    exact hfile
  have hproper : ∀ n ∈ before ++ names ++ more, Path.IsName n := fun n hn =>
    ((hsound.of_get? hplace).2 n hn).1
  have hparts : Path.parts s.path = before ++ names ++ more := by
    rw [h.path_eq, FileSystem.parts_pathOf hproper]
  have hchecked := h.path_eq ▸ h.checked
  refine ⟨content, h.accepted, ?_, ?_, hparts ▸ hplace⟩
  -- The relative path is made of the names below the start, of which there is one at least.
  · obtain ⟨init, last, heq⟩ := (List.eq_nil_or_concat (names ++ more)).resolve_left hne
    rw [List.concat_eq_append] at heq
    refine ⟨init, last, heq ▸ h.rel_eq_intercalate hslash, fun n hn => hproper n ?_⟩
    rw [← heq] at hn
    rw [List.append_assoc]
    exact List.mem_append_right before hn
  -- The path is that of the place, and no link is on it.
  · rw [hparts, h.path_eq]
    exact FileSystem.leadsTo_pathOf hsound hplace nofun hchecked

section

variable {fs : FileSystem} {excluded : (rel path : String) → Bool} {path start : String}
variable {visits : List Visit} {s : SourceFile}

/-- The sources that were visited are Java files, found under different relative paths. -/
theorem isSource_of_visits (hfs : fs.Grounded) (hsound : fs.root.IsSound)
    (hstart : fs.canonical path = .ok start)
    (h : fs.visits excluded Path.isJava start = .ok visits)
    (hslash : ∀ s ∈ visits.filterMap Visit.source?, '\\' ∉ s.path.toList) :
    ((visits.filterMap Visit.source?).map (·.rel)).Nodup ∧
      ∀ s ∈ visits.filterMap Visit.source?, ∃ content, IsSource fs s content := by
  obtain ⟨place, e, rfl, hget, hlink⟩ := FileSystem.exists_place_of_canonical hfs hstart
  have hplace : ∀ n ∈ place, Path.IsName n := fun n hn => ((hsound.of_get? hget).2 n hn).1
  unfold FileSystem.visits at h
  cases hentry : fs.entryNoFollow (FileSystem.pathOf place) with
  | error e => simp [hentry, bind, Except.bind] at h
  | ok x =>
    obtain ⟨hcheck, rfl⟩ := FileSystem.entryNoFollow_pathOf hfs hsound hget hlink hentry
    simp only [hentry, bind, Except.bind] at h
    cases x with
    | link t => exact absurd rfl (hlink t)
    | file content =>
      -- The root is a directory, so a file has a name.
      obtain ⟨init, last, rfl⟩ : ∃ init last, place = init ++ [last] := by
        rcases List.eq_nil_or_concat place with rfl | ⟨init, last, rfl⟩
        · obtain ⟨children, hdir⟩ := hfs
          obtain ⟨cs, hcs⟩ := FileSystem.exists_dir_nil hdir
          cases hget.symm.trans hcs
        · exact ⟨init, last, List.concat_eq_append⟩
      have hname := Path.fileName?_of_parts (hplace last (by simp)) (FileSystem.parts_pathOf hplace)
      simp only [hname, Option.getD_some] at h
      split at h
      · cases h
        exact ⟨List.nodup_nil, fun s hs => absurd hs List.not_mem_nil⟩
      · cases h
        unfold visitFile at hslash ⊢
        split
        · rename_i haccept
          refine ⟨by simp [Visit.source?], fun s hs => ?_⟩
          have hbelow : FoundBelow Path.isJava init [last] (.file content) []
              ⟨Path.withSlashes last, FileSystem.pathOf (init ++ [last])⟩ :=
            ⟨by simp, by simp, ⟨content, by simp⟩, haccept, hcheck⟩
          obtain rfl : s = ⟨Path.withSlashes last, FileSystem.pathOf (init ++ [last])⟩ := by
            simpa [Visit.source?] using hs
          rw [if_pos haccept] at hslash
          exact hbelow.isSource hsound hget (by simp) (hslash _ hs)
        · exact ⟨List.nodup_nil, fun s hs => absurd hs List.not_mem_nil⟩
    | dir children =>
      -- Nothing was said about the start, so the relative path begins with its children.
      have he := (hsound.of_get? hget).1
      cases hvisits : visitChildren excluded Path.isJava "" (FileSystem.pathOf place) children with
      | error e => simp [hvisits] at h
      | ok vs =>
        simp only [hvisits, pure, Except.pure, Except.ok.injEq] at h
        subst h
        have hnone : ∀ n ∈ ([] : List String), Path.IsName n := by simp
        have hsources : (Visit.directory (FileSystem.pathOf place) :: vs).filterMap Visit.source? =
            vs.filterMap Visit.source? := rfl
        rw [hsources] at hslash ⊢
        rw [← List.append_nil place] at hvisits hget
        refine ⟨nodup_rel_visitChildren hplace hnone hslash he.1 he.2 hvisits, fun s hs => ?_⟩
        obtain ⟨name, x, more, hmem, hbelow⟩ :=
          foundBelow_of_visitChildren hplace hnone he.2 hvisits hs
        have hfound := hbelow.of_child (Entry.child?_of_mem he.1 hmem)
        exact hfound.isSource hsound hget (by simp) (hslash s hs)

/-- An accepted source is a Java file that its path leads to. -/
theorem exists_isSource (hfs : fs.Grounded) (hsound : fs.root.IsSound)
    (hstart : fs.canonical path = .ok start)
    (h : fs.visits excluded Path.isJava start = .ok visits)
    (hslash : ∀ s ∈ sourcesOf visits, '\\' ∉ s.path.toList) (hs : s ∈ sourcesOf visits) :
    ∃ content, IsSource fs s content :=
  (isSource_of_visits hfs hsound hstart h fun s hs => hslash s (List.mem_mergeSort.2 hs)).2 s
    (List.mem_mergeSort.1 hs)

/-- No two sources have the same relative path. -/
theorem nodup_rel_sourcesOf (hfs : fs.Grounded) (hsound : fs.root.IsSound)
    (hstart : fs.canonical path = .ok start)
    (h : fs.visits excluded Path.isJava start = .ok visits)
    (hslash : ∀ s ∈ sourcesOf visits, '\\' ∉ s.path.toList) :
    ((sourcesOf visits).map (·.rel)).Nodup :=
  ((List.mergeSort_perm _ _).map _).nodup_iff.2
    (isSource_of_visits hfs hsound hstart h fun s hs => hslash s (List.mem_mergeSort.2 hs)).1

end

end JavaOutline

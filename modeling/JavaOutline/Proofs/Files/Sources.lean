import JavaOutline.Proofs.Files.Look
import JavaOutline.Proofs.Files.Walk
import Mathlib.Data.List.Nodup

/-!
# Exactly the sources

A walk from a directory reaches what is below it, except through links and behind entries that are
excluded.  It returns exactly the accepted files among what it reaches, each of them once and in
order, so that it does not matter in which order directories list their entries.  Every entry that
it reaches is looked up by its path, so the walk fails where such a path is too long.

## Key results

- `visited_visitEntry`: what a walk finds below an entry
- `AreSources.unique`: a tree has one list of sources in order
- `sources_exact`: the sources from a directory and from a file
- `sources_fail_of_long_path`: a walk that fails at a path that is too long
-/

namespace JavaOutline

/-! ## Reached entries -/

/-- The path that names lead to from a start. -/
def pathBelow (start : String) (names : List String) : String :=
  names.foldl Path.join start

/-- The source file that names lead to from a start. -/
def sourceAt (start : String) (names : List String) : SourceFile :=
  ⟨Path.withSlashes ("/".intercalate names), pathBelow start names⟩

/-- One more name. -/
theorem pathBelow_concat (start : String) (names : List String) (name : String) :
    pathBelow start (names ++ [name]) = Path.join (pathBelow start names) name := by
  simp [pathBelow]

/-- The parts of a path below a start. -/
theorem parts_pathBelow {start : String} {names : List String} (h : ∀ n ∈ names, Path.IsName n) :
    Path.parts (pathBelow start names) = Path.parts start ++ names := by
  induction names generalizing start with
  | nil => simp [pathBelow]
  | cons name names ih =>
    rw [List.forall_mem_cons] at h
    have habsolute : Path.isAbsolute name = false := h.1.isRelative.isAbsolute
    have hrest : pathBelow start (name :: names) = pathBelow (Path.join start name) names := rfl
    rw [hrest, ih h.2, Path.parts_join _ _ habsolute, h.1.parts, List.append_assoc]
    rfl

/-- Different names lead to different paths. -/
theorem pathBelow_inj {start : String} {names names' : List String}
    (h : ∀ n ∈ names, Path.IsName n) (h' : ∀ n ∈ names', Path.IsName n)
    (heq : pathBelow start names = pathBelow start names') : names = names' := by
  have hparts : Path.parts start ++ names = Path.parts start ++ names' := by
    rw [← parts_pathBelow h, heq, parts_pathBelow h']
  exact List.append_cancel_left hparts

section

variable (excluded : (rel path : String) → Bool) (start : String)

/-- Whether the entry that names lead to is not excluded. -/
def Passes (names : List String) : Prop :=
  excluded ("/".intercalate names) (pathBelow start names) = false

/-- The entry `x` that a walk reaches below the entry `e`, which has the relative path `names`.  On
    the way there are directories only, and nothing is excluded. -/
structure Reached (names : List String) (e : Entry) (more : List String) (x : Entry) : Prop where
  entry : e.get? more = some x
  passes : ∀ upper, upper <+: more → Passes excluded start (names ++ upper)

variable {excluded start} {names more : List String} {e x : Entry}

/-- Nothing is reached behind an excluded entry. -/
theorem Reached.passes_self (h : Reached excluded start names e more x) :
    Passes excluded start names := by
  simpa using h.passes [] List.nil_prefix

/-- An entry that is not excluded is reached itself. -/
theorem reached_nil : Reached excluded start names e [] x ↔
    Passes excluded start names ∧ x = e := by
  constructor
  · intro h
    exact ⟨h.passes_self, by simpa using h.entry.symm⟩
  · rintro ⟨hpasses, rfl⟩
    refine ⟨Entry.get?_nil x, fun upper hupper => ?_⟩
    rw [List.prefix_nil.1 hupper, List.append_nil]
    exact hpasses

/-- What is reached below a directory is reached below one of its children. -/
theorem reached_cons {children : List (String × Entry)} {name : String} :
    Reached excluded start names (.dir children) (name :: more) x ↔
      Passes excluded start names ∧ ∃ c, Entry.child? name children = some c ∧
        Reached excluded start (names ++ [name]) c more x := by
  constructor
  · intro h
    refine ⟨h.passes_self, ?_⟩
    have hentry := h.entry
    rw [Entry.get?_cons] at hentry
    obtain ⟨c, hc, hx⟩ := Option.bind_eq_some_iff.1 hentry
    -- What is on the way below the child is on the way from here, one name further.
    refine ⟨c, hc, hx, fun upper hupper => ?_⟩
    have hstep := h.passes (name :: upper) (List.cons_prefix_cons.2 ⟨rfl, hupper⟩)
    rwa [List.append_assoc]
  · rintro ⟨hpasses, c, hc, h⟩
    refine ⟨by rw [Entry.get?_cons, hc]; exact h.entry, fun upper hupper => ?_⟩
    cases upper with
    -- On the way is this entry, or something below the child.
    | nil => rwa [List.append_nil]
    | cons first upper =>
      obtain ⟨rfl, hbelow⟩ := List.cons_prefix_cons.1 hupper
      have hstep := h.passes upper hbelow
      rwa [List.append_assoc] at hstep

/-- In a sound tree the names on the way are proper ones. -/
theorem Reached.isName (h : Reached excluded start names e more x) (he : e.IsSound)
    (hnames : ∀ n ∈ names, Path.IsName n) : ∀ n ∈ names ++ more, Path.IsName n :=
  List.forall_mem_append.2 ⟨hnames, fun n hn => ((he.of_get? h.entry).2 n hn).1⟩

end

/-! ## Walks -/

section

variable (start : String) (accept : (path : String) → Bool)

/-- Visits that look at all of some entries, told by their names: they succeed if every entry can be
    looked up, and then find each accepted file among the entries once. -/
structure Visited (reached : List String → Entry → Prop)
    (visits : Except FileError (List Visit)) : Prop where
  complete : (∀ names x, reached names x → FileSystem.checkPath (pathBelow start names) = .ok ()) →
    ∃ vs, visits = .ok vs ∧
      (∀ s, s ∈ vs.filterMap Visit.source? ↔ ∃ names content, reached names (.file content) ∧
        accept (pathBelow start names) = true ∧ s = sourceAt start names) ∧
      ((vs.filterMap Visit.source?).map (·.path)).Nodup
  failed : ∀ names x, reached names x →
    FileSystem.checkPath (pathBelow start names) ≠ .ok () → ∃ e, visits = .error e

variable {start accept} {reached reached' : List String → Entry → Prop}

/-- Only the entries that are looked at matter. -/
theorem Visited.congr {visits : Except FileError (List Visit)}
    (h : Visited start accept reached visits)
    (hsame : ∀ names x, reached names x ↔ reached' names x) :
    Visited start accept reached' visits := by
  obtain rfl : reached = reached' := by
    funext names x
    exact propext (hsame names x)
  exact h

/-- Visits that look at nothing. -/
theorem visited_of_none {vs : List Visit} (hnone : ∀ names x, ¬ reached names x)
    (hvs : vs.filterMap Visit.source? = []) : Visited start accept reached (.ok vs) where
  complete _ := by
    refine ⟨vs, rfl, fun s => ?_, by simp [hvs]⟩
    rw [hvs]
    constructor
    · exact nofun
    · rintro ⟨names, content, h, -⟩
      exact absurd h (hnone names _)
  failed names x h := absurd h (hnone names x)

/-- Visits that fail as a path that they reach cannot be looked up. -/
theorem visited_of_error {e : FileError} {names : List String} {x : Entry} (h : reached names x)
    (hcheck : FileSystem.checkPath (pathBelow start names) ≠ .ok ()) :
    Visited start accept reached (.error e) where
  complete hall := absurd (hall names x h) hcheck
  failed _ _ _ _ := ⟨e, rfl⟩

/-- Visits to some entries, and then to others that have other paths. -/
theorem Visited.append {visits visits' : Except FileError (List Visit)}
    (h : Visited start accept reached visits) (h' : Visited start accept reached' visits')
    (hdisjoint : ∀ names x names' x', reached names x → reached' names' x' →
      pathBelow start names ≠ pathBelow start names') :
    Visited start accept (fun names x => reached names x ∨ reached' names x)
      (do return (← visits) ++ (← visits')) := by
  constructor
  case complete =>
    intro hall
    obtain ⟨vs, rfl, hmem, hnodup⟩ := h.complete fun names x hx => hall names x (.inl hx)
    obtain ⟨vs', rfl, hmem', hnodup'⟩ := h'.complete fun names x hx => hall names x (.inr hx)
    -- The visits of one part come before those of the other.
    refine ⟨vs ++ vs', rfl, fun s => ?_, ?_⟩
    · rw [List.filterMap_append, List.mem_append, hmem, hmem']
      constructor
      · rintro (⟨names, content, hx, hrest⟩ | ⟨names, content, hx, hrest⟩)
        · exact ⟨names, content, .inl hx, hrest⟩
        · exact ⟨names, content, .inr hx, hrest⟩
      · rintro ⟨names, content, hx | hx, hrest⟩
        · exact .inl ⟨names, content, hx, hrest⟩
        · exact .inr ⟨names, content, hx, hrest⟩
    · rw [List.filterMap_append, List.map_append, List.nodup_append]
      -- No path is visited in both parts.
      refine ⟨hnodup, hnodup', fun a ha b hb hab => ?_⟩
      obtain ⟨s, hs, rfl⟩ := List.mem_map.1 ha
      obtain ⟨t, ht, rfl⟩ := List.mem_map.1 hb
      obtain ⟨names, content, hx, -, rfl⟩ := (hmem s).1 hs
      obtain ⟨names', content', hx', -, rfl⟩ := (hmem' t).1 ht
      exact hdisjoint _ _ _ _ hx hx' hab
  case failed =>
    rintro names x (hx | hx) hcheck
    · obtain ⟨e, rfl⟩ := h.failed names x hx hcheck
      exact ⟨e, rfl⟩
    -- The other part fails, unless the first one has failed already.
    · obtain ⟨e, rfl⟩ := h'.failed names x hx hcheck
      cases visits with
      | error e' => exact ⟨e', rfl⟩
      | ok vs => exact ⟨e, rfl⟩

variable {excluded : (rel path : String) → Bool}

/-- The walk stops at an excluded entry. -/
theorem visitEntry_of_excluded {rel path : String} (h : excluded rel path = true) (e : Entry) :
    visitEntry excluded accept rel path e = .ok [.excluded path] := by
  cases e <;> rw [visitEntry, if_pos h]

/-- The walk fails at an entry that cannot be looked up. -/
theorem visitEntry_of_error {rel path : String} {cause : FileError}
    (h : excluded rel path = false) (hcheck : FileSystem.checkPath path = .error cause)
    (e : Entry) : visitEntry excluded accept rel path e = .error cause := by
  cases e <;> rw [visitEntry, if_neg (by simp [h]), hcheck] <;> rfl

/-- A walk finds nothing at an excluded entry. -/
theorem visited_of_excluded {names : List String} {e : Entry}
    (h : excluded ("/".intercalate names) (pathBelow start names) = true) :
    Visited start accept
      (fun full x => ∃ more, full = names ++ more ∧ Reached excluded start names e more x)
      (visitEntry excluded accept ("/".intercalate names) (pathBelow start names) e) := by
  rw [visitEntry_of_excluded h]
  refine visited_of_none ?_ rfl
  rintro full x ⟨more, -, hreached⟩
  exact absurd (h.symm.trans hreached.passes_self) (by simp)

/-- One visit looks at one entry, which may be an accepted file. -/
theorem visited_singleton {names : List String} {e : Entry} {v : Visit}
    (hcheck : FileSystem.checkPath (pathBelow start names) = .ok ())
    (hsource : ∀ s, v.source? = some s ↔ (∃ content, e = .file content) ∧
      accept (pathBelow start names) = true ∧ s = sourceAt start names) :
    Visited start accept (fun full x => full = names ∧ x = e) (.ok [v]) := by
  constructor
  case complete =>
    intro _
    refine ⟨[v], rfl, fun s => ?_, ?_⟩
    -- The one visit tells of a source or of none.
    · have hmem : s ∈ [v].filterMap Visit.source? ↔ v.source? = some s := by
        cases hv : v.source? <;> simp [hv, eq_comm]
      rw [hmem, hsource]
      constructor
      · rintro ⟨⟨content, rfl⟩, haccept, rfl⟩
        exact ⟨names, content, ⟨rfl, rfl⟩, haccept, rfl⟩
      · rintro ⟨_, content, ⟨rfl, rfl⟩, haccept, rfl⟩
        exact ⟨⟨content, rfl⟩, haccept, rfl⟩
    · cases hv : v.source? <;> simp [hv]
  case failed =>
    -- The path was looked up, so nothing fails.
    rintro _ _ ⟨rfl, rfl⟩ hfail
    exact absurd hcheck hfail

/-- The source that a visit to a regular file finds. -/
theorem source?_visitFile (names : List String) (s : SourceFile) :
    (visitFile accept ("/".intercalate names) (pathBelow start names)).source? = some s ↔
      accept (pathBelow start names) = true ∧ s = sourceAt start names := by
  unfold visitFile
  cases accept (pathBelow start names) with
  | true => simp [Visit.source?, sourceAt, eq_comm]
  | false => simp [Visit.source?]

/-- What is reached below the children of a directory. -/
def ReachedIn (excluded : (rel path : String) → Bool) (start : String) (names : List String)
    (children : List (String × Entry)) (full : List String) (x : Entry) : Prop :=
  ∃ name e more, (name, e) ∈ children ∧ full = names ++ [name] ++ more ∧
    Reached excluded start (names ++ [name]) e more x

/-- A file or a link that is not excluded is all that is reached from it. -/
theorem reached_leaf_iff {names full : List String} {e x : Entry} (hleaf : ∀ cs, e ≠ .dir cs)
    (hpasses : Passes excluded start names) :
    (∃ more, full = names ++ more ∧ Reached excluded start names e more x) ↔
      full = names ∧ x = e := by
  constructor
  · rintro ⟨more, rfl, h⟩
    cases more with
    | nil => exact ⟨by simp, (reached_nil.1 h).2⟩
    | cons name more =>
      cases e with
      -- Below a file or a link there is nothing.
      | dir cs => exact absurd rfl (hleaf cs)
      | file _ | link _ => exact nomatch h.entry
  · rintro ⟨rfl, rfl⟩
    exact ⟨[], by simp, reached_nil.2 ⟨hpasses, rfl⟩⟩

/-- A directory that is not excluded is reached, and so is what is reached below its children. -/
theorem reached_dir_iff {names full : List String} {children : List (String × Entry)} {x : Entry}
    (hnodup : (children.map (·.1)).Nodup) (hpasses : Passes excluded start names) :
    (∃ more, full = names ++ more ∧ Reached excluded start names (.dir children) more x) ↔
      (full = names ∧ x = .dir children) ∨ ReachedIn excluded start names children full x := by
  constructor
  · rintro ⟨more, rfl, h⟩
    cases more with
    | nil => exact .inl ⟨by simp, (reached_nil.1 h).2⟩
    -- The first name on the way is that of a child, and each child has a name of its own.
    | cons name more =>
      obtain ⟨-, c, hc, h⟩ := reached_cons.1 h
      exact .inr ⟨name, c, more, Entry.mem_of_child? hc, by simp, h⟩
  · rintro (⟨rfl, rfl⟩ | ⟨name, c, more, hmem, rfl, h⟩)
    · exact ⟨[], by simp, reached_nil.2 ⟨hpasses, rfl⟩⟩
    · refine ⟨name :: more, by simp, reached_cons.2 ⟨hpasses, c, ?_, h⟩⟩
      exact Entry.child?_of_mem hnodup hmem

mutual

/-- A walk at an entry looks at everything that it reaches below the entry. -/
theorem visited_visitEntry {names : List String} (hnames : ∀ n ∈ names, Path.IsName n) :
    (e : Entry) → e.IsSound →
    Visited start accept
      (fun full x => ∃ more, full = names ++ more ∧ Reached excluded start names e more x)
      (visitEntry excluded accept ("/".intercalate names) (pathBelow start names) e)
  | e, he => by
    by_cases hexcluded : excluded ("/".intercalate names) (pathBelow start names) = true
    · exact visited_of_excluded hexcluded
    have hopen := Bool.eq_false_iff.2 hexcluded
    cases hcheck : FileSystem.checkPath (pathBelow start names) with
    | error cause =>
      rw [visitEntry_of_error hopen hcheck]
      exact visited_of_error ⟨[], (List.append_nil names).symm, reached_nil.2 ⟨hopen, rfl⟩⟩
        (by simp [hcheck])
    | ok _ =>
      match e, he with
      | .file content, _ =>
        rw [visitEntry, if_neg hexcluded, hcheck]
        refine (visited_singleton hcheck fun s => ?_).congr fun full x =>
          (reached_leaf_iff (e := .file content) nofun hopen).symm
        rw [source?_visitFile]
        simp
      | .link target, _ =>
        rw [visitEntry, if_neg hexcluded, hcheck]
        refine (visited_singleton hcheck fun s => ?_).congr fun full x =>
          (reached_leaf_iff (e := .link target) nofun hopen).symm
        simp [Visit.source?]
      | .dir children, he =>
        have hhere : Visited start accept (fun full x => full = names ∧ x = .dir children)
            (.ok [.directory (pathBelow start names)]) :=
          visited_singleton hcheck fun s => by simp [Visit.source?]
        have hbelow := visited_visitChildren hnames children he.1 he.2
        rw [visitEntry, if_neg hexcluded, hcheck]
        refine (hhere.append hbelow ?_).congr fun full x =>
          (reached_dir_iff he.1 hopen).symm
        -- The path of the directory is shorter than those of what is below it.
        rintro full x full' x' ⟨rfl, -⟩ ⟨name, c, more, hmem, rfl, hreached⟩ heq
        obtain ⟨⟨hname, -⟩, hc⟩ := he.2.of_mem hmem
        have hproper := hreached.isName hc (forall_mem_concat hnames hname)
        simpa using congrArg List.length (pathBelow_inj hnames hproper heq)

/-- A walk through children looks at everything that it reaches below them. -/
theorem visited_visitChildren {names : List String} (hnames : ∀ n ∈ names, Path.IsName n) :
    (children : List (String × Entry)) → (children.map (·.1)).Nodup → Entry.AreSound children →
    Visited start accept (ReachedIn excluded start names children)
      (visitChildren excluded accept ("/".intercalate names) (pathBelow start names) children)
  | [], _, _ => by
    rw [visitChildren]
    refine visited_of_none ?_ rfl
    rintro full x ⟨name, e, more, hmem, -⟩
    exact nomatch hmem
  | (name, e) :: children, hnodup, hsound => by
    obtain ⟨⟨hname, -⟩, he, hchildren⟩ := hsound
    rw [List.map_cons, List.nodup_cons] at hnodup
    have hnames' := forall_mem_concat hnames hname
    have hfirst := visited_visitEntry hnames' e he
    have hothers := visited_visitChildren hnames children hnodup.2 hchildren
    rw [visitChildren, below_intercalate hnames, ← pathBelow_concat]
    refine (hfirst.append hothers ?_).congr fun full x => ?_
    · rintro full x full' x' ⟨more, rfl, hreached⟩ ⟨n, c, more', hmem, rfl, hreached'⟩ heq
      obtain ⟨⟨hn, -⟩, hc⟩ := hchildren.of_mem hmem
      have hlists := pathBelow_inj (hreached.isName he hnames')
        (hreached'.isName hc (forall_mem_concat hnames hn)) heq
      -- Both would be below the child of one name.
      obtain rfl : name = n := by
        rw [List.append_assoc, List.append_assoc, List.append_cancel_left_eq] at hlists
        exact (List.cons.inj hlists).1
      exact hnodup.1 (List.mem_map.2 ⟨_, hmem, rfl⟩)
    · constructor
      · rintro (⟨more, rfl, hreached⟩ | ⟨n, c, more, hmem, rfl, hreached⟩)
        · exact ⟨name, e, more, List.mem_cons_self, rfl, hreached⟩
        · exact ⟨n, c, more, List.mem_cons_of_mem _ hmem, rfl, hreached⟩
      · rintro ⟨n, c, more, hmem, rfl, hreached⟩
        rcases List.mem_cons.1 hmem with heq | hmem
        · cases heq
          exact .inl ⟨more, rfl, hreached⟩
        · exact .inr ⟨n, c, more, hmem, rfl, hreached⟩

end

end

/-! ## Order -/

namespace SourceFile

theorem order_eq_compareLex : order = compareLex (compareOn (·.rel))
    (compareOn fun s => Path.parts s.path) := rfl

theorem isLE_trans (a b c : SourceFile) (hab : isLE a b = true) (hbc : isLE b c = true) :
    isLE a c = true := by
  unfold isLE at hab hbc ⊢
  rw [order_eq_compareLex] at hab hbc ⊢
  exact Std.TransCmp.isLE_trans hab hbc

theorem isLE_total (a b : SourceFile) : (isLE a b || isLE b a) = true := by
  have hswap : order b a = (order a b).swap := by
    rw [order_eq_compareLex]
    exact Std.OrientedCmp.eq_swap
  unfold isLE
  rw [hswap]
  cases order a b <;> rfl

/-- Sources that come at the same point have the same relative path and the same parts. -/
theorem eq_of_isLE {a b : SourceFile} (hab : isLE a b = true) (hba : isLE b a = true) :
    a.rel = b.rel ∧ Path.parts a.path = Path.parts b.path := by
  unfold isLE at hab hba
  have horder : order a b = .eq := by
    rw [order_eq_compareLex] at hab hba ⊢
    exact Std.OrientedCmp.isLE_antisymm hab hba
  unfold order at horder
  obtain ⟨hrel, hparts⟩ := Ordering.then_eq_eq.1 horder
  exact ⟨Std.LawfulEqOrd.eq_of_compare hrel, Std.LawfulEqOrd.eq_of_compare hparts⟩

end SourceFile

/-- Sources are in order. -/
theorem pairwise_sourcesOf (visits : List Visit) :
    (sourcesOf visits).Pairwise fun a b => a.isLE b = true :=
  List.pairwise_mergeSort SourceFile.isLE_trans SourceFile.isLE_total _

/-! ## Sources from a directory -/

section

variable {excluded : (rel path : String) → Bool} {accept : (path : String) → Bool}
  {start : String} {tree tree' : Entry}

/-- The entry that names lead to in a tree, where a walk from the root of the tree reaches it: there
    are only directories on the way, and neither one of them nor the entry is excluded. -/
structure IsReached (excluded : (rel path : String) → Bool) (start : String) (tree : Entry)
    (names : List String) (x : Entry) : Prop where
  ne_nil : names ≠ []
  entry : tree.get? names = some x
  passes : ∀ upper, upper ≠ [] → upper <+: names →
    excluded ("/".intercalate upper) (pathBelow start upper) = false

/-- What is reached in a sound tree is reached by proper names. -/
theorem IsReached.isName {names : List String} {x : Entry}
    (h : IsReached excluded start tree names x) (hsound : tree.IsSound) :
    ∀ n ∈ names, Path.IsName n :=
  fun n hn => ((hsound.of_get? h.entry).2 n hn).1

/-- What is reached from a directory is reached below its children. -/
theorem reachedIn_nil_iff {children : List (String × Entry)} {names : List String} {x : Entry}
    (hnodup : (children.map (·.1)).Nodup) :
    ReachedIn excluded start [] children names x ↔
      IsReached excluded start (.dir children) names x := by
  constructor
  · rintro ⟨name, e, more, hmem, rfl, h⟩
    refine ⟨by simp, ?_, fun upper hne hupper => ?_⟩
    · rw [List.nil_append, List.singleton_append, Entry.get?_cons,
        Entry.child?_of_mem hnodup hmem]
      exact h.entry
    -- At the top there is no name that could have been excluded before.
    · obtain ⟨first, upper, rfl⟩ := List.exists_cons_of_ne_nil hne
      obtain ⟨rfl, hbelow⟩ := List.cons_prefix_cons.1 hupper
      exact h.passes upper hbelow
  · rintro ⟨hne, hentry, hpasses⟩
    obtain ⟨name, more, rfl⟩ := List.exists_cons_of_ne_nil hne
    obtain ⟨e, he, hx⟩ := Entry.exists_of_get?_cons hentry
    refine ⟨name, e, more, he, rfl, hx, fun upper hupper => ?_⟩
    exact hpasses (name :: upper) (by simp) (List.cons_prefix_cons.2 ⟨rfl, hupper⟩)

/-- What a walk from a directory looks at. -/
theorem visited_children {children : List (String × Entry)} (h : (Entry.dir children).IsSound) :
    Visited start accept (IsReached excluded start (.dir children))
      (visitChildren excluded accept "" start children) := by
  have hnone : ∀ n ∈ ([] : List String), Path.IsName n := nofun
  exact (visited_visitChildren hnone children h.1 h.2).congr fun _ _ => reachedIn_nil_iff h.1

/-- Trees that look the same are reached in the same way. -/
theorem IsReached.congr (hsame : ∀ p, tree.look p = tree'.look p) {names : List String}
    {x : Entry} (h : IsReached excluded start tree names x) :
    ∃ x', IsReached excluded start tree' names x' ∧ x'.view = x.view := by
  have hlook : tree'.look names = some x.view := by
    rw [← hsame, Entry.look, h.entry]
    rfl
  obtain ⟨x', hx', hview⟩ := Option.map_eq_some_iff.1 hlook
  exact ⟨x', ⟨h.ne_nil, hx', h.passes⟩, hview⟩

/-- A file looks like no other entry. -/
theorem Entry.eq_file_of_view {x : Entry} {content : Bytes} (h : x.view = .file content) :
    x = .file content := by
  cases x <;> simp_all [Entry.view]

/-- The sources in a list are the accepted files that a walk reaches in a tree. -/
def AreSources (excluded : (rel path : String) → Bool) (accept : (path : String) → Bool)
    (start : String) (tree : Entry) (found : List SourceFile) : Prop :=
  ∀ s, s ∈ found ↔ ∃ names content, IsReached excluded start tree names (.file content) ∧
    accept (pathBelow start names) = true ∧ s = sourceAt start names

/-- In a list of sources, those that come at the same point are the same. -/
theorem AreSources.eq_of_isLE {found : List SourceFile} (hsound : tree.IsSound)
    (h : AreSources excluded accept start tree found) {s t : SourceFile} (hs : s ∈ found)
    (ht : t ∈ found) (hst : s.isLE t = true) (hts : t.isLE s = true) : s = t := by
  obtain ⟨names, content, hreached, -, rfl⟩ := (h s).1 hs
  obtain ⟨names', content', hreached', -, rfl⟩ := (h t).1 ht
  have hparts := (SourceFile.eq_of_isLE hst hts).2
  simp only [sourceAt, parts_pathBelow (hreached.isName hsound),
    parts_pathBelow (hreached'.isName hsound)] at hparts
  rw [List.append_cancel_left hparts]

/-- Trees that look the same have the same sources. -/
theorem AreSources.congr {found : List SourceFile} (hsame : ∀ p, tree.look p = tree'.look p)
    (h : AreSources excluded accept start tree found) :
    AreSources excluded accept start tree' found := by
  intro s
  rw [h s]
  constructor
  -- A file with the same look is the same file.
  · rintro ⟨names, content, hreached, hrest⟩
    obtain ⟨x, hx, hview⟩ := hreached.congr hsame
    obtain rfl := Entry.eq_file_of_view hview
    exact ⟨names, content, hx, hrest⟩
  · rintro ⟨names, content, hreached, hrest⟩
    obtain ⟨x, hx, hview⟩ := hreached.congr fun p => (hsame p).symm
    obtain rfl := Entry.eq_file_of_view hview
    exact ⟨names, content, hx, hrest⟩

/-- A tree has one list of sources that is in order and has nothing twice. -/
theorem AreSources.unique {found found' : List SourceFile} (hsound : tree.IsSound)
    (h : AreSources excluded accept start tree found)
    (h' : AreSources excluded accept start tree found')
    (hnodup : (found.map (·.path)).Nodup) (hnodup' : (found'.map (·.path)).Nodup)
    (hsorted : found.Pairwise fun a b => a.isLE b = true)
    (hsorted' : found'.Pairwise fun a b => a.isLE b = true) : found = found' := by
  have hperm : found.Perm found' := by
    rw [List.perm_ext_iff_of_nodup (List.Nodup.of_map _ hnodup) (List.Nodup.of_map _ hnodup')]
    exact fun s => (h s).trans (h' s).symm
  refine hperm.eq_of_pairwise (fun s t hs ht => ?_) hsorted hsorted'
  exact h.eq_of_isLE hsound hs (hperm.mem_iff.2 ht)

namespace FileSystem

variable {fs fs' : FileSystem}

/-- An entry that a path names is where the path leads, if no name is the last step of the path.
    Otherwise it is the entry of this name in the directory that the steps before it lead to. -/
theorem entryNoFollow_cases (hfs : fs.Grounded) {e : Entry} (h : fs.entryNoFollow start = .ok e) :
    checkPath start = .ok () ∧
      ((fs.entryOf start = .ok e ∧ ∀ last ∈ (steps start).getLast?, last = "." ∨ last = "..") ∨
        ∃ init last dir, steps start = init ++ [last] ∧ IsStep last ∧
          Leads fs.root linkLimit (fs.start start) (init ++ ["."]) (.found dir) ∧
          fs.root.get? (dir ++ [last]) = some e) := by
  unfold entryNoFollow at h
  cases hcheck : checkPath start with
  | error cause => simp [hcheck, bind, Except.bind] at h
  | ok _ =>
    refine ⟨rfl, ?_⟩
    simp only [hcheck, bind, Except.bind] at h
    split at h
    -- A path without parts, or with dots at its end, names what it leads to.
    · rename_i hlast
      exact .inl ⟨h, by simp [hlast]⟩
    -- Otherwise the last part is the name of a child in the directory before it.
    · rename_i last hlast
      obtain ⟨init, hsteps⟩ := List.getLast?_eq_some_iff.1 hlast
      rw [hsteps, List.dropLast_concat] at h
      split at h
      · rename_i hdots
        exact .inl ⟨h, by simpa [hlast] using hdots⟩
      · rename_i hname
        simp only [Bool.or_eq_true, beq_iff_eq, not_or] at hname
        split at h
        · exact nomatch h
        · rename_i dir hfollow
          split at h
          · exact nomatch h
          · split at h
            · exact nomatch h
            -- The name must not be too long, and the child must be there.
            · rename_i hlong
              split at h
              · rename_i hget
                cases h
                exact .inr ⟨init, last, _, hsteps, ⟨hname.1, hname.2, by simpa using hlong⟩,
                  (follow_eq_ok_iff (hfs.start start)).1 hfollow, hget⟩
              · exact nomatch h

/-- An entry that a path names is somewhere in the tree. -/
theorem exists_get?_of_entryNoFollow (hfs : fs.Grounded) {e : Entry}
    (h : fs.entryNoFollow start = .ok e) : ∃ place, fs.root.get? place = some e := by
  rcases (entryNoFollow_cases hfs h).2 with ⟨hentry, -⟩ | ⟨_, last, dir, -, -, -, hget⟩
  · obtain ⟨q, -, hget⟩ := (entryOf_eq_ok_iff hfs).1 hentry
    exact ⟨q, hget⟩
  · exact ⟨dir ++ [last], hget⟩

/-- The sources from a directory are those below its children. -/
theorem sources_of_dir {children : List (String × Entry)}
    (h : fs.entryNoFollow start = .ok (.dir children)) :
    fs.sources excluded accept start = do
      return sourcesOf (← visitChildren excluded accept "" start children) := by
  unfold sources visits
  simp only [h, bind, Except.bind]
  cases visitChildren excluded accept "" start children <;> rfl

/-- A way to a file ends with a name. -/
theorem Leads.isStep_of_file {root : Entry} {limit : Nat} {here parts q : List String}
    {content : Bytes} (h : Leads root limit here parts (.found q))
    (hhere : ∃ children, root.get? here = some (.dir children))
    (hfile : root.get? q = some (.file content)) :
    ∃ part, parts.getLast? = some part ∧ IsStep part := by
  generalize hp : Place.found q = p at h
  induction h with
  | done =>
    cases hp
    obtain ⟨children, hdir⟩ := hhere
    cases hfile.symm.trans hdir
  | @dot _ _ rest _ _ ih =>
    obtain ⟨part, hpart, hstep⟩ := ih hhere hp
    exact ⟨part, by simp [List.getLast?_cons, hpart], hstep⟩
  | dots _ ih =>
    obtain ⟨children, hdir⟩ := hhere
    obtain ⟨part, hpart, hstep⟩ := ih (exists_dir_dropLast hdir) hp
    exact ⟨part, by simp [List.getLast?_cons, hpart], hstep⟩
  | absent => cases hp
  | file hstep => exact ⟨_, rfl, hstep⟩
  | enter _ hget _ ih =>
    obtain ⟨part, hpart, hstep⟩ := ih ⟨_, hget⟩ hp
    exact ⟨part, by simp [List.getLast?_cons, hpart], hstep⟩
  | @follow _ _ rest part target _ hstep _ _ ih =>
    -- The name of a link may be the last one.
    by_cases hrest : rest = []
    · exact ⟨part, by rw [hrest]; rfl, hstep⟩
    · obtain ⟨children, hdir⟩ := hhere
      obtain ⟨last, hlast, hlaststep⟩ := ih (exists_dir_ite hdir (Path.isAbsolute target)) hp
      rw [List.getLast?_append_of_ne_nil _ hrest] at hlast
      exact ⟨last, by simp [List.getLast?_cons, hlast], hlaststep⟩

/-- The path of a file ends in the name that the file has in its directory. -/
theorem exists_place_of_file (hfs : fs.Grounded) {content : Bytes}
    (h : fs.entryNoFollow start = .ok (.file content)) :
    ∃ dir name, Path.fileName? start = some name ∧
      fs.root.get? (dir ++ [name]) = some (.file content) := by
  rcases (entryNoFollow_cases hfs h).2 with
    ⟨hentry, hdots⟩ | ⟨init, name, dir, hsteps, hname, -, hget⟩
  · -- A way to a file ends with a name, not with dots.
    obtain ⟨q, hq, hfile⟩ := (entryOf_eq_ok_iff hfs).1 hentry
    obtain ⟨last, hlast, hstep⟩ := hq.2.isStep_of_file (hfs.start start) hfile
    rcases hdots last hlast with hdot | hdot
    · exact absurd hdot hstep.ne_dot
    · exact absurd hdot hstep.ne_dots
  · refine ⟨dir, name, ?_, hget⟩
    -- A slash at the end would add a dot to the steps.
    have hparts : Path.parts start = init ++ [name] := by
      unfold steps at hsteps
      split at hsteps
      · exact absurd (List.append_inj' hsteps rfl).2 (by simpa using hname.ne_dot.symm)
      · rwa [List.append_nil] at hsteps
    simp [Path.fileName?, Path.names, hparts, List.filter_append, hname.ne_dot, hname.ne_dots]

/-- The path of a file ends in a name. -/
theorem exists_fileName?_of_file (hfs : fs.Grounded) {content : Bytes}
    (h : fs.entryNoFollow start = .ok (.file content)) :
    ∃ name, Path.fileName? start = some name := by
  obtain ⟨-, name, hname, -⟩ := exists_place_of_file hfs h
  exact ⟨name, hname⟩

/-- The sources from a file: itself, under its own name. -/
theorem sources_of_file {content : Bytes} {name : String}
    (h : fs.entryNoFollow start = .ok (.file content)) (hname : Path.fileName? start = some name) :
    fs.sources excluded accept start =
      .ok (if excluded name start = false ∧ accept start = true then
        [⟨Path.withSlashes name, start⟩] else []) := by
  -- At most one source is left to sort.
  have haccepted (s : SourceFile) : sourcesOf [.accepted s] = [s] := List.mergeSort_singleton s
  have hpassed : sourcesOf [.passedOver start] = [] := List.mergeSort_nil
  have hexcluded : sourcesOf [.excluded start] = [] := List.mergeSort_nil
  unfold sources visits visitFile
  simp only [h, bind, Except.bind, hname, Option.getD_some]
  cases excluded name start <;> cases accept start <;>
    simp [pure, Except.pure, haccepted, hpassed, hexcluded]

/-- There are no sources from a link. -/
theorem sources_of_link {target : String} (h : fs.entryNoFollow start = .ok (.link target)) :
    fs.sources excluded accept start = .ok [] := by
  have hnone : sourcesOf [.link start] = [] := List.mergeSort_nil
  unfold sources visits
  simp [h, bind, Except.bind, pure, Except.pure, hnone]

/-- From anything but a directory a walk returns one source at most. -/
theorem length_sources_le_one (hfs : fs.Grounded)
    {found : List SourceFile} (hfound : fs.sources excluded accept start = .ok found)
    (hdir : ∀ children, fs.entryNoFollow start ≠ .ok (.dir children)) : found.length ≤ 1 := by
  cases hentry : fs.entryNoFollow start with
  -- A start that cannot be looked up makes the walk fail.
  | error e =>
    unfold sources visits at hfound
    simp [hentry, bind, Except.bind] at hfound
  | ok e =>
    cases e with
    | dir children => exact absurd hentry (hdir children)
    -- A link is not followed, and a file is the only source.
    | link target =>
      rw [sources_of_link hentry, Except.ok.injEq] at hfound
      rw [← hfound]
      exact Nat.zero_le 1
    | file content =>
      obtain ⟨name, hname⟩ := exists_fileName?_of_file hfs hentry
      rw [sources_of_file hentry hname, Except.ok.injEq] at hfound
      rw [← hfound]
      split <;> simp

/-- A directory that a path names is sound in a sound tree. -/
theorem isSound_of_entryNoFollow (hfs : fs.Grounded) (hsound : fs.root.IsSound) {e : Entry}
    (h : fs.entryNoFollow start = .ok e) : e.IsSound := by
  obtain ⟨place, hget⟩ := exists_get?_of_entryNoFollow hfs h
  exact (hsound.of_get? hget).1

/-- A walk from a directory finds the sources, if every entry that it reaches can be looked up. -/
theorem exists_sources_of_dir {children : List (String × Entry)}
    (h : fs.entryNoFollow start = .ok (.dir children)) (hsound : (Entry.dir children).IsSound)
    (hall : ∀ names x, IsReached excluded start (.dir children) names x →
      checkPath (pathBelow start names) = .ok ()) :
    ∃ found, fs.sources excluded accept start = .ok found ∧
      AreSources excluded accept start (.dir children) found ∧
      (found.map (·.path)).Nodup ∧ found.Pairwise (fun a b => a.isLE b = true) := by
  have hvisited : Visited start accept (IsReached excluded start (.dir children))
      (visitChildren excluded accept "" start children) := visited_children hsound
  obtain ⟨visits, hvisits, hmem, hnodup⟩ := hvisited.complete hall
  -- Sorting neither adds nor drops a source.
  have hperm : (sourcesOf visits).Perm (visits.filterMap Visit.source?) :=
    List.mergeSort_perm _ _
  refine ⟨sourcesOf visits, ?_, fun s => ?_, ?_, pairwise_sourcesOf visits⟩
  · rw [sources_of_dir h, hvisits]
    rfl
  · rw [hperm.mem_iff]
    exact hmem s
  · exact (hperm.map _).nodup_iff.2 hnodup

/-- A walk from a directory fails if it reaches an entry that cannot be looked up. -/
theorem sources_error_of_dir {children : List (String × Entry)}
    (h : fs.entryNoFollow start = .ok (.dir children)) (hsound : (Entry.dir children).IsSound)
    {names : List String} {x : Entry} (hx : IsReached excluded start (.dir children) names x)
    (hfail : checkPath (pathBelow start names) ≠ .ok ()) :
    ∃ cause, fs.sources excluded accept start = .error cause := by
  have hvisited : Visited start accept (IsReached excluded start (.dir children))
      (visitChildren excluded accept "" start children) := visited_children hsound
  obtain ⟨cause, hvisits⟩ := hvisited.failed names x hx hfail
  exact ⟨cause, by rw [sources_of_dir h, hvisits]; rfl⟩

/-- What a walk from a directory returns are the sources. -/
theorem areSources_of_sources_eq {children : List (String × Entry)} {found : List SourceFile}
    (h : fs.entryNoFollow start = .ok (.dir children)) (hsound : (Entry.dir children).IsSound)
    (hfound : fs.sources excluded accept start = .ok found) :
    AreSources excluded accept start (.dir children) found ∧ (found.map (·.path)).Nodup := by
  -- A path that cannot be looked up would have made the walk fail.
  have hall : ∀ names x, IsReached excluded start (.dir children) names x →
      checkPath (pathBelow start names) = .ok () := by
    intro names x hx
    by_cases hcheck : checkPath (pathBelow start names) = .ok ()
    · exact hcheck
    · obtain ⟨cause, hfail⟩ := sources_error_of_dir h hsound hx hcheck
      exact nomatch hfound.symm.trans hfail
  obtain ⟨found', hfound', hare, hnodup, -⟩ := exists_sources_of_dir h hsound hall
  obtain rfl : found = found' := Except.ok.inj (hfound.symm.trans hfound')
  exact ⟨hare, hnodup⟩

end FileSystem

end

/-- From a directory that is no link a walk returns exactly the accepted files that it reaches, each
    of them once and in order, if every entry that it reaches can be looked up; this does not depend
    on the order in which directories list their entries.  If an entry that it reaches cannot be
    looked up, it fails.  From a file it returns this file, under its name, if it is accepted and not
    excluded, and nothing otherwise. -/
theorem sources_exact (fs : FileSystem) (hfs : fs.Grounded) (hsound : fs.root.IsSound)
    (excluded : (rel path : String) → Bool) (accept : (path : String) → Bool) (start : String) :
    (∀ children, fs.entryNoFollow start = .ok (.dir children) →
      ((∀ names x, IsReached excluded start (.dir children) names x →
          FileSystem.checkPath (pathBelow start names) = .ok ()) →
        ∃ found, fs.sources excluded accept start = .ok found ∧
          AreSources excluded accept start (.dir children) found ∧
          (found.map (·.path)).Nodup ∧ found.Pairwise (fun a b => a.isLE b = true) ∧
          ∀ (fs' : FileSystem) (children' : List (String × Entry)), fs'.Grounded → fs'.root.IsSound →
            fs'.entryNoFollow start = .ok (.dir children') →
            (∀ p, (Entry.dir children).look p = (Entry.dir children').look p) →
            fs'.sources excluded accept start = .ok found) ∧
      (∀ names x, IsReached excluded start (.dir children) names x →
        FileSystem.checkPath (pathBelow start names) ≠ .ok () →
        ∃ e, fs.sources excluded accept start = .error e)) ∧
    ∀ content, fs.entryNoFollow start = .ok (.file content) →
      ∃ name, Path.fileName? start = some name ∧ fs.sources excluded accept start =
        .ok (if excluded name start = false ∧ accept start = true then
          [⟨Path.withSlashes name, start⟩] else []) := by
  refine ⟨fun children hdir => ?_, fun content hfile => ?_⟩
  · have htree := FileSystem.isSound_of_entryNoFollow hfs hsound hdir
    refine ⟨fun hall => ?_, fun names x hx => FileSystem.sources_error_of_dir hdir htree hx⟩
    obtain ⟨found, hfound, hare, hnodup, hsorted⟩ :=
      FileSystem.exists_sources_of_dir hdir htree hall
    refine ⟨found, hfound, hare, hnodup, hsorted, fun fs' children' hfs' hsound' hdir' hsame => ?_⟩
    -- The other tree is reached in the same way, so the walk succeeds there too.
    have htree' := FileSystem.isSound_of_entryNoFollow hfs' hsound' hdir'
    have hall' : ∀ names x, IsReached excluded start (.dir children') names x →
        FileSystem.checkPath (pathBelow start names) = .ok () := by
      intro names x hx
      obtain ⟨x', hx', -⟩ := hx.congr fun p => (hsame p).symm
      exact hall names x' hx'
    obtain ⟨found', hfound', hare', hnodup', hsorted'⟩ :=
      FileSystem.exists_sources_of_dir hdir' htree' hall'
    rw [hfound', (hare.congr hsame).unique htree' hare' hnodup hnodup' hsorted hsorted']
  · obtain ⟨name, hname⟩ := FileSystem.exists_fileName?_of_file hfs hfile
    exact ⟨name, hname, FileSystem.sources_of_file hfile hname⟩

/-- A directory with one Java source among links, other files and a directory to exclude. -/
def linkedDir : List (String × Entry) :=
  [("up", .link ".."), ("A.java", .file []), ("gone.java", .link "nowhere"),
    ("skip", .dir [("B.java", .file [])]), ("notes.txt", .file [])]

/-- The files of this directory. -/
def linkedFiles : FileSystem where
  root := .dir [("src", .dir linkedDir)]
  workingDir := []

/-- Excludes one directory. -/
def isSkipped (rel _path : String) : Bool :=
  rel == "skip"

/-- The sources among the links, from their directory and from one of the files. -/
theorem sources_exact_linkedFiles :
    linkedFiles.Grounded ∧ linkedFiles.root.IsSound ∧
    linkedFiles.entryNoFollow "src" = .ok (.dir linkedDir) ∧
    (∃ found, linkedFiles.sources isSkipped Path.isJava "src" = .ok found ∧
      ⟨"A.java", "src/A.java"⟩ ∈ found ∧
      AreSources isSkipped Path.isJava "src" (.dir linkedDir) found) ∧
    linkedFiles.sources isSkipped Path.isJava "src/A.java" = .ok [⟨"A.java", "src/A.java"⟩] := by
  have hfiles : linkedFiles.Grounded ∧ linkedFiles.root.IsSound := by decide
  have hdir : linkedFiles.entryNoFollow "src" = .ok (.dir linkedDir) := rfl
  have hone : linkedFiles.sources isSkipped Path.isJava "src" = .ok [⟨"A.java", "src/A.java"⟩] := by
    decide +kernel
  refine ⟨hfiles.1, hfiles.2, hdir, ?_, ?_⟩
  · obtain ⟨hfinds, hfails⟩ :=
      (sources_exact linkedFiles hfiles.1 hfiles.2 isSkipped Path.isJava "src").1 linkedDir hdir
    -- The walk does not fail, so all that it reaches can be looked up.
    obtain ⟨found, hfound, hare, -⟩ := hfinds fun names x hx => by
      by_contra hcheck
      obtain ⟨cause, hcause⟩ := hfails names x hx hcheck
      exact nomatch hone.symm.trans hcause
    obtain rfl := Except.ok.inj (hone.symm.trans hfound)
    exact ⟨_, hfound, List.mem_singleton_self _, hare⟩
  · have hname : Path.fileName? "src/A.java" = some "A.java" := by decide
    have haccept : isSkipped "A.java" "src/A.java" = false ∧ Path.isJava "src/A.java" = true := by
      decide
    obtain ⟨name, hname', hfile⟩ :=
      (sources_exact linkedFiles hfiles.1 hfiles.2 isSkipped Path.isJava "src/A.java").2 [] rfl
    obtain rfl := Option.some.inj (hname.symm.trans hname')
    rw [hfile, if_pos haccept]
    decide

/-! ## Paths that are too long -/

/-- A path of the directory `d` that starts with a number of dots. -/
def dotted : Nat → String
  | 0 => "d"
  | n + 1 => "." ++ "/" ++ dotted n

theorem parts_dotted (n : Nat) : Path.parts (dotted n) = List.replicate n "." ++ ["d"] := by
  induction n with
  | zero => decide
  | succ n ih =>
    rw [dotted, Path.parts_append_slash, ih, List.replicate_succ, List.cons_append]
    rfl

theorem utf8ByteSize_dotted (n : Nat) : (dotted n).utf8ByteSize = 2 * n + 1 := by
  induction n with
  | zero => rfl
  | succ n ih =>
    have hdot : ("." ++ "/").utf8ByteSize = 2 := by decide
    rw [dotted, String.utf8ByteSize_append, ih, hdot]
    omega

theorem toList_dotted (n : Nat) :
    ∃ cs, (dotted n).toList = cs ++ ['d'] ∧ ∀ c ∈ cs, c = '.' ∨ c = '/' := by
  induction n with
  | zero => exact ⟨[], by decide, nofun⟩
  | succ n ih =>
    obtain ⟨cs, hcs, hmem⟩ := ih
    refine ⟨'.' :: '/' :: cs, by simp [dotted, hcs], ?_⟩
    simpa using hmem

theorem isAbsolute_dotted (n : Nat) : Path.isAbsolute (dotted n) = false := by
  cases n with
  | zero => decide
  | succ n => simp [dotted, Path.isAbsolute]

theorem endsInSlash_dotted (n : Nat) : Path.endsInSlash (dotted n) = false := by
  obtain ⟨cs, hcs, -⟩ := toList_dotted n
  simp [Path.endsInSlash, hcs]

theorem steps_dotted (n : Nat) : FileSystem.steps (dotted n) = List.replicate n "." ++ ["d"] := by
  rw [FileSystem.steps, parts_dotted, endsInSlash_dotted]
  simp

theorem checkPath_dotted {n : Nat} (h : 2 * n + 1 ≤ FileSystem.maxPathBytes) :
    FileSystem.checkPath (dotted n) = .ok () := by
  obtain ⟨cs, hcs, hmem⟩ := toList_dotted n
  refine FileSystem.checkPath_eq_ok_iff.2 ⟨fun hnul => ?_, fun hempty => ?_, ?_⟩
  · rw [hcs, List.mem_append] at hnul
    rcases hnul with hnul | hnul
    · rcases hmem _ hnul with heq | heq <;> exact absurd heq (by decide)
    · exact absurd hnul (by decide)
  · simp [hempty] at hcs
  · rwa [utf8ByteSize_dotted]

/-- Dots lead nowhere else. -/
theorem leads_replicate_dot (root : Entry) (limit : Nat) (here : List String) (n : Nat) :
    FileSystem.Leads root limit here (List.replicate n ".") (.found here) := by
  induction n with
  | zero => exact .done
  | succ n ih => exact .dot ih

/-- Files with one Java source in the directory `d`. -/
def dottedFiles : FileSystem where
  root := .dir [("d", .dir [("A.java", .file [])])]
  workingDir := []

theorem entryNoFollow_dotted {n : Nat} (h : 2 * n + 1 ≤ FileSystem.maxPathBytes) :
    dottedFiles.entryNoFollow (dotted n) = .ok (.dir [("A.java", .file [])]) := by
  have hstart : dottedFiles.start (dotted n) = [] := by
    rw [FileSystem.start, isAbsolute_dotted]
    rfl
  -- The dots lead nowhere, so the name is looked up at the root.
  have hfollow : dottedFiles.follow [] (List.replicate n "." ++ ["."]) = .ok (.found []) := by
    rw [← List.replicate_succ']
    exact (FileSystem.follow_eq_ok_iff ⟨_, rfl⟩).2 (leads_replicate_dot _ _ _ _)
  have hname : FileSystem.isNameTooLong "d" = false := by decide
  have hget : dottedFiles.root.get? ["d"] = some (.dir [("A.java", .file [])]) := rfl
  simp [FileSystem.entryNoFollow, checkPath_dotted h, steps_dotted, hstart, hfollow, hname, hget,
    bind, Except.bind, pure, Except.pure]

/-- The path of the source is too long though the directory can be looked up. -/
theorem checkPath_below_dotted :
    FileSystem.checkPath (pathBelow (dotted 2046) ["A.java"]) ≠ .ok () := by
  intro hcheck
  have hsize := (FileSystem.checkPath_eq_ok_iff.1 hcheck).2.2
  have hne : (dotted 2046).isEmpty = false := by
    rw [← Bool.not_eq_true, String.isEmpty_iff]
    exact (FileSystem.checkPath_eq_ok_iff.1 (checkPath_dotted (n := 2046) (by decide))).2.1
  have hpath : pathBelow (dotted 2046) ["A.java"] = dotted 2046 ++ "/" ++ "A.java" := by
    simp [pathBelow, Path.join, hne, endsInSlash_dotted, Path.isAbsolute]
  rw [hpath, String.utf8ByteSize_append, String.utf8ByteSize_append, utf8ByteSize_dotted] at hsize
  exact absurd hsize (by decide)

/-- A walk fails where a file is reached by a path that is too long, though the start can be looked
    up. -/
theorem sources_fail_of_long_path :
    dottedFiles.Grounded ∧ dottedFiles.root.IsSound ∧
    dottedFiles.entryNoFollow (dotted 2046) = .ok (.dir [("A.java", .file [])]) ∧
    IsReached (fun _ _ => false) (dotted 2046) (.dir [("A.java", .file [])]) ["A.java"]
      (.file []) ∧
    ∃ cause, dottedFiles.sources (fun _ _ => false) (fun _ => true) (dotted 2046) =
      .error cause := by
  have hfiles : dottedFiles.Grounded ∧ dottedFiles.root.IsSound := by decide
  -- The path of the start just fits, and the one of the file in it does not.
  have hdir := entryNoFollow_dotted (n := 2046) (by decide)
  have hsound := FileSystem.isSound_of_entryNoFollow hfiles.1 hfiles.2 hdir
  have hreached : IsReached (fun _ _ => false) (dotted 2046) (.dir [("A.java", .file [])])
      ["A.java"] (.file []) := ⟨by simp, rfl, fun _ _ _ => rfl⟩
  refine ⟨hfiles.1, hfiles.2, hdir, hreached, ?_⟩
  exact FileSystem.sources_error_of_dir hdir hsound hreached checkPath_below_dotted

end JavaOutline

import JavaOutline.Proofs.Files.Look
import JavaOutline.Proofs.Files.Path

/-!
# Making directories

Directories are made below a directory that is there, one name after the other.  This succeeds if
nothing but directories are in the way, and then there are directories at all of the names and
nothing else is new.  Whether it succeeds is told from what the tree looks like on the way, and
from the names.

## Key results

- `leads_names_iff`: where names lead, when no link is in the way
- `Opens.makeLeading`: directories are made where nothing is in the way
- `Opens.canLead`: nothing was in the way of directories that were made
- `LeadsAlong.readBytes_eq_ok_iff`, `LeadsAlong.writeBytes_eq_ok_iff`: reading and writing along names
-/

namespace JavaOutline.FileSystem

/-! ## Ways along names -/

section

variable {root : Entry} {limit : Nat} {here names : List String} {p : Place}

/-- What a name names in a directory. -/
def placeIn (root : Entry) (dir : List String) (name : String) : Place :=
  if root.look (dir ++ [name]) = none then .absent dir name else .found (dir ++ [name])

theorem placeIn_of_none {name : String} (h : root.get? (here ++ [name]) = none) :
    placeIn root here name = .absent here name :=
  if_pos (Entry.look_eq_none_iff.2 h)

theorem placeIn_of_some {name : String} {e : Entry} (h : root.get? (here ++ [name]) = some e) :
    placeIn root here name = .found (here ++ [name]) := by
  refine if_neg fun hnone => ?_
  rw [Entry.look_eq_none_iff, h] at hnone
  exact nomatch hnone

@[simp] theorem place_placeIn (name : String) : (placeIn root here name).place = here ++ [name] := by
  unfold placeIn
  split <;> rfl

/-- One name leads to what it names, unless this is a link. -/
theorem leads_singleton_iff {name : String} (hname : Path.IsName name)
    (hlink : ∀ t, root.get? (here ++ [name]) ≠ some (.link t)) :
    Leads root limit here [name] p ↔ IsStep name ∧ p = placeIn root here name := by
  constructor
  · intro h
    cases h with
    -- A name is no dots, and there is no link to follow.
    | dot => exact absurd rfl hname.ne_dot
    | dots => exact absurd rfl hname.ne_dots
    | absent hstep hget => exact ⟨hstep, (placeIn_of_none hget).symm⟩
    | file hstep hget => exact ⟨hstep, (placeIn_of_some hget).symm⟩
    | enter hstep hget h =>
      cases h
      exact ⟨hstep, (placeIn_of_some hget).symm⟩
    | follow _ hget => exact absurd hget (hlink _)
  -- What is at the place decides which step leads there.
  · rintro ⟨hstep, rfl⟩
    cases hget : root.get? (here ++ [name]) with
    | none =>
      rw [placeIn_of_none hget]
      exact .absent hstep hget
    | some e =>
      rw [placeIn_of_some hget]
      cases e with
      | file content => exact .file hstep hget
      | dir children => exact .enter hstep hget .done
      | link t => exact absurd hget (hlink t)

/-- Names lead down through directories, when no link is in the way. -/
theorem leads_names_iff {name : String}
    (hhere : root.look here = some .dir)
    (hnames : ∀ n ∈ names ++ [name], Path.IsName n)
    (hlinks : ∀ upper, upper <+: names ++ [name] → ∀ t, root.get? (here ++ upper) ≠ some (.link t)) :
    Leads root limit here (names ++ [name]) p ↔
      (∀ n ∈ names ++ [name], IsStep n) ∧ root.look (here ++ names) = some .dir ∧
        p = placeIn root (here ++ names) name := by
  induction names generalizing here with
  | nil =>
    have hname : Path.IsName name := hnames name (by simp)
    simpa [hhere] using leads_singleton_iff hname (hlinks [name] (List.prefix_refl _))
  | cons first names ih =>
    rw [List.cons_append, List.forall_mem_cons] at hnames
    have hway (more : List String) : here ++ first :: more = here ++ [first] ++ more := by simp
    -- The other names are looked up in the directory that the first one names.
    have hbelow : ∀ upper, upper <+: names ++ [name] →
        ∀ t, root.get? (here ++ [first] ++ upper) ≠ some (.link t) := by
      intro upper hupper
      rw [← hway]
      exact hlinks (first :: upper) (List.cons_prefix_cons.2 ⟨rfl, hupper⟩)
    rw [List.cons_append, List.forall_mem_cons, hway]
    constructor
    · intro h
      generalize hmore : names ++ [name] = more at h
      have hne : more ≠ [] := by simp [← hmore]
      cases h with
      | dot => exact absurd rfl hnames.1.ne_dot
      | dots => exact absurd rfl hnames.1.ne_dots
      | absent | file => exact absurd rfl hne
      | enter hstep hget h =>
        subst hmore
        obtain ⟨hsteps, hdir, hp⟩ :=
          (ih (Entry.look_eq_dir_iff.2 ⟨_, hget⟩) hnames.2 hbelow).1 h
        exact ⟨⟨hstep, hsteps⟩, hdir, hp⟩
      | follow _ hget => exact absurd hget (hlinks [first] (by simp) _)
    · rintro ⟨⟨hstep, hsteps⟩, hdir, hp⟩
      have hfirst : root.look (here ++ [first]) = some .dir := by
        by_cases hnil : names = []
        · simpa [hnil] using hdir
        · exact Entry.look_eq_dir_of_append hnil (by rw [hdir]; exact nofun)
      obtain ⟨cs, hget⟩ := Entry.look_eq_dir_iff.1 hfirst
      exact .enter hstep hget ((ih hfirst hnames.2 hbelow).2 ⟨hsteps, hdir, hp⟩)

/-- Resolving goes through a directory: what is left is resolved from there. -/
theorem Leads.resolveFrom_append {way o : List String} {children : List (String × Entry)}
    (h : Leads root limit here way (.found o)) (ho : root.get? o = some (.dir children))
    {trail : Trail} (htrail : IsTrail root trail) (hplace : trail.place = here)
    (rest : List String) : ∃ left trail', IsTrail root trail' ∧ trail'.place = o ∧
      FileSystem.resolveFrom root limit trail (way ++ rest) =
        FileSystem.resolveFrom root left trail' rest := by
  -- By induction on the way, for any trail behind it; each part takes the trail one step on.
  generalize hq : Place.found o = q at h
  induction h generalizing trail with
  | @done limit =>
    cases hq
    exact ⟨limit, trail, htrail, hplace, rfl⟩
  | dot _ ih =>
    rw [List.cons_append, resolveFrom_eq, walkFrom, if_pos (beq_self_eq_true _), ← resolveFrom_eq]
    exact ih htrail hplace hq
  | dots _ ih =>
    rw [List.cons_append, resolveFrom_eq, walkFrom, if_neg (by decide),
      if_pos (beq_self_eq_true _), ← resolveFrom_eq]
    exact ih htrail.tail (by rw [place_tail, hplace]) hq
  | absent => cases hq
  | file _ hget =>
    cases hq
    cases ho.symm.trans hget
  | enter hpart hget _ ih =>
    subst hplace
    have hchild := htrail.get?_place_append _ ▸ hget
    rw [List.cons_append, resolveFrom_eq, walkFrom, ← resolveFrom_eq]
    simp only [beq_iff_eq, hpart.ne_dot, hpart.ne_dots, hpart.short, hchild, if_false]
    exact ih ⟨hchild, ⟨_, rfl⟩, htrail⟩ (place_cons _ _) hq
  | follow hpart hget _ ih =>
    subst hplace
    have hchild := htrail.get?_place_append _ ▸ hget
    rw [List.cons_append, resolveFrom_eq, walkFrom]
    simp only [beq_iff_eq, hpart.ne_dot, hpart.ne_dots, hpart.short, hchild, if_false, goOn]
    rw [← List.append_assoc]
    exact ih (htrail.ite _) (place_ite _ _) hq

/-- Resolving fails at the first name that is missing, unless something else is in the way. -/
theorem resolveFrom_of_missing {trail : Trail} (htrail : IsTrail root trail)
    (hsteps : ∀ n ∈ names, IsStep n)
    (hfree : ∀ upper, upper <+: names →
      root.look (trail.place ++ upper) = none ∨ root.look (trail.place ++ upper) = some .dir)
    (hmissing : root.look (trail.place ++ names) = none) :
    resolveFrom root limit trail (names ++ ["."]) = .error .notFound := by
  -- The trail goes down as long as there are directories.
  induction names generalizing trail with
  | nil =>
    rw [List.append_nil, Entry.look_eq_none_iff, htrail.get?_place] at hmissing
    exact nomatch hmissing
  | cons name names ih =>
    rw [List.forall_mem_cons] at hsteps
    have hway (more : List String) : trail.place ++ name :: more = trail.place ++ [name] ++ more := by
      simp
    have hlook : root.look (trail.place ++ [name]) = none ∨
        root.look (trail.place ++ [name]) = some .dir := hfree [name] (by simp)
    rw [List.cons_append, resolveFrom_eq, walkFrom, ← resolveFrom_eq]
    simp only [beq_iff_eq, hsteps.1.ne_dot, hsteps.1.ne_dots, hsteps.1.short, if_false]
    rcases hlook with hnone | hdir
    · rw [Entry.look_eq_none_iff, htrail.get?_place_append] at hnone
      simp [hnone]
    · obtain ⟨cs, hget⟩ := Entry.look_eq_dir_iff.1 hdir
      have hchild := htrail.get?_place_append [name] ▸ hget
      simp only [hchild]
      have hplace : Trail.place ((name, .dir cs) :: trail) = trail.place ++ [name] := place_cons _ _
      refine ih ⟨hchild, ⟨_, rfl⟩, htrail⟩ hsteps.2 (fun upper hupper => ?_) ?_
      · rw [hplace, ← hway]
        exact hfree (name :: upper) (List.cons_prefix_cons.2 ⟨rfl, hupper⟩)
      · rwa [hplace, ← hway]

/-! ## Parts of ways -/

/-- A list with some of its dots dropped. -/
inductive DropsDots : List String → List String → Prop where
  | nil : DropsDots [] []
  | keep {part : String} {a b : List String} (h : DropsDots a b) :
    DropsDots (part :: a) (part :: b)
  | drop {a b : List String} (h : DropsDots a b) : DropsDots ("." :: a) b

namespace DropsDots

protected theorem refl (parts : List String) : DropsDots parts parts := by
  induction parts with
  | nil => exact .nil
  | cons part parts ih => exact .keep ih

theorem append_left {a b : List String} (h : DropsDots a b) (before : List String) :
    DropsDots (before ++ a) (before ++ b) := by
  induction before with
  | nil => exact h
  | cons part before ih => exact .keep ih

theorem replicate (parts : List String) (n : Nat) :
    DropsDots (parts ++ List.replicate n ".") parts := by
  have hdots : DropsDots (List.replicate n ".") [] := by
    induction n with
    | zero => exact .nil
    | succ n ih => exact .drop ih
  simpa using hdots.append_left parts

theorem concat (parts : List String) : DropsDots (parts ++ ["."]) parts :=
  replicate parts 1

theorem filter (parts : List String) : DropsDots parts (parts.filter (· != ".")) := by
  induction parts with
  | nil => exact .nil
  | cons part parts ih =>
    by_cases hpart : part = "."
    · subst hpart
      exact .drop ih
    · rw [List.filter_cons_of_pos (by simpa using hpart)]
      exact .keep ih

end DropsDots

/-- Dots do not matter on a way. -/
theorem Leads.dropDots {a b : List String} (h : Leads root limit here a p) (hdots : DropsDots a b) :
    Leads root limit here b p := by
  -- By induction on the way: a dot stays where it is, and no other part can be dropped.
  induction h generalizing b with
  | done =>
    cases hdots
    exact .done
  | dot _ ih =>
    cases hdots with
    | keep hdots => exact .dot (ih hdots)
    | drop hdots => exact ih hdots
  | dots _ ih =>
    generalize heq : ".." = part at hdots
    cases hdots with
    | keep hdots => exact heq ▸ .dots (ih hdots)
    | drop => exact absurd heq (by decide)
  | absent hpart hget =>
    cases hdots with
    | keep hdots =>
      cases hdots
      exact .absent hpart hget
    | drop => exact absurd rfl hpart.ne_dot
  | file hpart hget =>
    cases hdots with
    | keep hdots =>
      cases hdots
      exact .file hpart hget
    | drop => exact absurd rfl hpart.ne_dot
  | enter hpart hget _ ih =>
    cases hdots with
    | keep hdots => exact .enter hpart hget (ih hdots)
    | drop => exact absurd rfl hpart.ne_dot
  | @follow _ _ _ _ target _ hpart hget _ ih =>
    cases hdots with
    | keep hdots => exact .follow hpart hget (ih (hdots.append_left (steps target)))
    | drop => exact absurd rfl hpart.ne_dot

/-- The last part of a way to a directory is looked up in a directory. -/
theorem Leads.of_concat {parts o : List String} {part : String}
    (h : Leads root limit here (parts ++ [part]) (.found o)) (ho : root.look o = some .dir)
    (hhere : ∃ children, root.get? here = some (.dir children)) :
    ∃ dir children, Leads root limit here parts (.found dir) ∧
      root.get? dir = some (.dir children) ∧
      (part = "." ∨ part = ".." ∨ IsStep part ∧ root.get? (dir ++ [part]) ≠ none) := by
  -- By induction on the way: the target of a link comes before what is left, so that the last part
  -- stays the last one.
  generalize hall : parts ++ [part] = all at h
  generalize hq : Place.found o = q at h
  obtain ⟨children, hdir⟩ := hhere
  induction h generalizing parts children with
  | done => simp at hall
  | dot _ ih =>
    cases parts with
    | nil =>
      obtain ⟨rfl, rfl⟩ := List.cons.inj hall
      exact ⟨_, children, .done, hdir, .inl rfl⟩
    | cons first parts =>
      obtain ⟨rfl, hrest⟩ := List.cons.inj hall
      obtain ⟨dir, cs, hway, hget, hpart⟩ := ih hrest hq children hdir
      exact ⟨dir, cs, .dot hway, hget, hpart⟩
  | dots _ ih =>
    cases parts with
    | nil =>
      obtain ⟨rfl, rfl⟩ := List.cons.inj hall
      exact ⟨_, children, .done, hdir, .inr (.inl rfl)⟩
    | cons first parts =>
      obtain ⟨rfl, hrest⟩ := List.cons.inj hall
      obtain ⟨cs', hup⟩ := exists_dir_dropLast hdir
      obtain ⟨dir, cs, hway, hget, hpart⟩ := ih hrest hq cs' hup
      exact ⟨dir, cs, .dots hway, hget, hpart⟩
  | absent => exact nomatch hq
  | file _ hget =>
    cases hq
    obtain ⟨cs, hcs⟩ := Entry.look_eq_dir_iff.1 ho
    exact nomatch hcs.symm.trans hget
  | enter hstep hget _ ih =>
    cases parts with
    | nil =>
      obtain ⟨rfl, rfl⟩ := List.cons.inj hall
      exact ⟨_, children, .done, hdir, .inr (.inr ⟨hstep, by simp [hget]⟩)⟩
    | cons first parts =>
      obtain ⟨rfl, hrest⟩ := List.cons.inj hall
      obtain ⟨dir, cs, hway, hget', hpart⟩ := ih hrest hq _ hget
      exact ⟨dir, cs, .enter hstep hget hway, hget', hpart⟩
  | @follow _ _ _ _ target _ hstep hget _ ih =>
    cases parts with
    | nil =>
      obtain ⟨rfl, rfl⟩ := List.cons.inj hall
      exact ⟨_, children, .done, hdir, .inr (.inr ⟨hstep, by simp [hget]⟩)⟩
    | cons first parts =>
      obtain ⟨rfl, hrest⟩ := List.cons.inj hall
      obtain ⟨cs', hbase⟩ := exists_dir_ite hdir (Path.isAbsolute target)
      have hmore : steps target ++ parts ++ [part] = _ := List.append_assoc _ _ _
      obtain ⟨dir, cs, hway, hget', hpart⟩ := ih (hmore.trans (congrArg _ hrest)) hq cs' hbase
      exact ⟨dir, cs, .follow hstep hget hway, hget', hpart⟩

end

/-! ## One directory -/

/-- A way leads from a base to a directory that has no link below it. -/
structure Opens (fs : FileSystem) (base way o : List String) : Prop where
  start : ∃ children, fs.root.get? base = some (.dir children)
  leads : Leads fs.root linkLimit base way (.found o)
  dir : ∃ children, fs.root.get? o = some (.dir children)
  noLinks : ∀ names t, fs.root.get? (o ++ names) ≠ some (.link t)

/-- Nothing but directories are on the way along names, and all names can be looked up. -/
structure IsFree (root : Entry) (o names : List String) : Prop where
  steps : ∀ n ∈ names, IsStep n
  free : ∀ upper, upper <+: names →
    root.look (o ++ upper) = none ∨ root.look (o ++ upper) = some .dir

/-- The places on the way along names. -/
def placesTo (o names : List String) : List (List String) :=
  names.inits.map (o ++ ·)

theorem mem_placesTo {o names p : List String} :
    p ∈ placesTo o names ↔ ∃ upper, upper <+: names ∧ o ++ upper = p := by
  simp [placesTo, List.mem_inits]

/-- There are directories at all places on the way along names, and nothing else is new. -/
structure MadeDirs (fs made : FileSystem) (o names : List String) : Prop where
  workingDir : made.workingDir = fs.workingDir
  look : ∀ p, made.root.look p = if p ∈ placesTo o names then some .dir else fs.root.look p

section

variable {fs fs' made : FileSystem} {base way o names : List String} {name : String}

/-- What is free stays so on a part of the way. -/
theorem IsFree.of_append {root : Entry} {more : List String} (h : IsFree root o (names ++ more)) :
    IsFree root o names where
  steps n hn := h.steps n (List.mem_append_left more hn)
  free upper hupper := h.free upper (hupper.trans (List.prefix_append names more))

theorem Opens.grew {free : List String → Prop} (h : Opens fs base way o)
    (hgrew : Grew free fs fs') : Opens fs' base way o where
  start := by
    obtain ⟨children, hbase⟩ := h.start
    exact hgrew.root.dirs hbase
  leads := h.leads.keeps hgrew.root
  dir := by
    obtain ⟨children, hdir⟩ := h.dir
    exact hgrew.root.dirs hdir
  noLinks names t ht := h.noLinks names t (hgrew.root.links.1 ht)

theorem Opens.dropDots {way' : List String} (h : Opens fs base way o)
    (hdots : DropsDots way way') : Opens fs base way' o :=
  { h with leads := h.leads.dropDots hdots }

/-- Names go on from an open directory to a directory below it. -/
theorem Opens.leads_append (h : Opens fs base way o) (hsteps : ∀ n ∈ names, IsStep n)
    (hdir : fs.root.look (o ++ names) = some .dir) :
    Leads fs.root linkLimit base (way ++ names) (.found (o ++ names)) := by
  obtain ⟨children, ho⟩ := h.dir
  obtain ⟨cs, hget⟩ := Entry.look_eq_dir_iff.1 hdir
  exact h.leads.append ho fun _ => leads_of_get? hget nofun hsteps

/-- Parts lead to a directory if they are found to. -/
theorem leadsToDir_eq_true_iff {parts : List String}
    (hbase : ∃ children, fs.root.get? base = some (.dir children)) :
    fs.leadsToDir base parts = true ↔
      ∃ q, Leads fs.root linkLimit base parts (.found q) ∧ fs.root.look q = some .dir := by
  simp only [← follow_eq_ok_iff hbase]
  unfold leadsToDir
  cases fs.follow base parts with
  | error e => simp
  | ok p =>
    cases p with
    -- Only a found entry can be a directory.
    | absent dir name => simp
    | found q =>
      cases hget : fs.root.get? q with
      | none => simp [Entry.look, hget]
      | some e => cases e <;> simp [Entry.look, Entry.view, Entry.isDir, hget]

/-- A directory that is made stands in a directory, where there was nothing before. -/
theorem makeDir_eq_ok {parts : List String}
    (hbase : ∃ children, fs.root.get? base = some (.dir children))
    (h : fs.makeDir base parts = .ok made) :
    ∃ init name dir, parts = init ++ [name] ∧ IsStep name ∧
      Leads fs.root linkLimit base (init ++ ["."]) (.found dir) ∧
      fs.root.look (dir ++ [name]) = none ∧ made = fs.putAt (dir ++ [name]) (.dir []) := by
  unfold makeDir at h
  cases hlast : parts.getLast? with
  | none => simp [hlast] at h
  | some name =>
    -- The last part is the name to make, in the directory that the parts before it lead to.
    obtain ⟨init, rfl⟩ := List.getLast?_eq_some_iff.1 hlast
    simp only [hlast, List.dropLast_concat] at h
    cases hway : fs.follow base (init ++ ["."]) with
    | error e => simp [hway, bind, Except.bind] at h
    | ok p =>
      cases p with
      | absent dir n => simp [hway, bind, Except.bind, throw, throwThe, MonadExceptOf.throw] at h
      | found dir =>
        simp only [hway, bind, Except.bind] at h
        split at h
        · exact nomatch h
        -- The name is refused if it is dots, too long or taken.
        rename_i hdots
        split at h
        · exact nomatch h
        rename_i hshort
        split at h
        · exact nomatch h
        rename_i hnone
        simp only [Bool.or_eq_true, beq_iff_eq, not_or] at hdots
        refine ⟨init, name, dir, rfl, ⟨hdots.1, hdots.2, by simpa using hshort⟩,
          (follow_eq_ok_iff hbase).1 hway, Entry.look_eq_none_iff.2 hnone, ?_⟩
        exact (Except.ok.inj h).symm

/-- What follows a dot behind an open directory. -/
theorem Opens.follow_dot (h : Opens fs base way o) (hsteps : ∀ n ∈ names, IsStep n)
    (hdir : fs.root.look (o ++ names) = some .dir) :
    fs.follow base (way ++ names ++ ["."]) = .ok (.found (o ++ names)) := by
  obtain ⟨cs, hget⟩ := Entry.look_eq_dir_iff.1 hdir
  exact (follow_eq_ok_iff h.start).2 ((h.leads_append hsteps hdir).append hget fun _ => .dot .done)

/-- A name in a directory below an open one is made if it is not taken. -/
theorem Opens.makeDir_of_dir (h : Opens fs base way o) (hsteps : ∀ n ∈ names ++ [name], IsStep n)
    (hdir : fs.root.look (o ++ names) = some .dir) :
    fs.makeDir base (way ++ names ++ [name]) =
      if fs.root.look (o ++ names ++ [name]) = none then
        .ok (fs.putAt (o ++ names ++ [name]) (.dir []))
      else .error .alreadyExists := by
  rw [List.forall_mem_append, List.forall_mem_singleton] at hsteps
  have hname := hsteps.2
  unfold makeDir
  rw [List.getLast?_concat, List.dropLast_concat]
  -- The way to the directory is open, so the name is tried there.
  simp only [h.follow_dot hsteps.1 hdir, bind, Except.bind, Bool.or_eq_true, beq_iff_eq,
    hname.ne_dot, hname.ne_dots, hname.short, or_self, if_false]
  cases hget : fs.root.get? (o ++ names ++ [name]) with
  | none =>
    rw [if_pos (Entry.look_eq_none_iff.2 hget)]
    rfl
  | some e =>
    have htaken : fs.root.look (o ++ names ++ [name]) ≠ none := by
      rw [ne_eq, Entry.look_eq_none_iff, hget]
      exact nofun
    rw [if_neg htaken]
    rfl

/-- A name is not made in a directory that is missing. -/
theorem Opens.makeDir_of_missing (h : Opens fs base way o)
    (hfree : IsFree fs.root o (names ++ [name])) (hmissing : fs.root.look (o ++ names) = none) :
    fs.makeDir base (way ++ names ++ [name]) = .error .notFound := by
  have hbefore := hfree.of_append
  obtain ⟨children, ho⟩ := h.dir
  -- The way breaks off before the last name.
  have hfollow : fs.follow base (way ++ names ++ ["."]) = .error .notFound := by
    obtain ⟨cs, hbase⟩ := h.start
    obtain ⟨htrail, hplace⟩ := isTrail_base hbase
    obtain ⟨left, trail, htrail', rfl, heq⟩ :=
      h.leads.resolveFrom_append ho htrail hplace (names ++ ["."])
    rw [follow, List.append_assoc, heq]
    exact resolveFrom_of_missing htrail' hbefore.steps hbefore.free hmissing
  unfold makeDir
  rw [List.getLast?_concat, List.dropLast_concat]
  simp only [hfollow, bind, Except.bind]

/-- An open directory is not made again. -/
theorem Opens.makeDir_self (h : Opens fs base way o) :
    fs.makeDir base way = .error .alreadyExists := by
  rcases List.eq_nil_or_concat way with rfl | ⟨init, name, rfl⟩
  -- Without parts there is no name to make.
  · rfl
  · rw [List.concat_eq_append] at h ⊢
    obtain ⟨dir, cs, hway, hdir, hname⟩ :=
      h.leads.of_concat (Entry.look_eq_dir_iff.2 h.dir) h.start
    -- The last part is dots or the name of a directory that is there.
    have hfollow : fs.follow base (init ++ ["."]) = .ok (.found dir) :=
      (follow_eq_ok_iff h.start).2 (hway.append hdir fun _ => .dot .done)
    unfold makeDir
    rw [List.getLast?_concat, List.dropLast_concat]
    simp only [hfollow, bind, Except.bind]
    rcases hname with rfl | rfl | ⟨hstep, htaken⟩
    · rfl
    · rfl
    · obtain ⟨e, he⟩ := Option.ne_none_iff_exists'.1 htaken
      simp [hstep.ne_dot, hstep.ne_dots, hstep.short, he, throw, throwThe, MonadExceptOf.throw]

theorem Opens.leadsToDir (h : Opens fs base way o) (hsteps : ∀ n ∈ names, IsStep n)
    (hdir : fs.root.look (o ++ names) = some .dir) :
    fs.leadsToDir base (way ++ names) = true :=
  (leadsToDir_eq_true_iff h.start).2 ⟨_, h.leads_append hsteps hdir, hdir⟩

theorem Opens.look_self (h : Opens fs base way o) : fs.root.look o = some .dir :=
  Entry.look_eq_dir_iff.2 h.dir

theorem Opens.leadsToDir_self (h : Opens fs base way o) : fs.leadsToDir base way = true :=
  (leadsToDir_eq_true_iff h.start).2 ⟨o, h.leads, h.look_self⟩

/-! ## Many directories -/

/-- Where all directories are there already, none is new. -/
theorem madeDirs_self (h : ∀ upper, upper <+: names → fs.root.look (o ++ upper) = some .dir) :
    MadeDirs fs fs o names where
  workingDir := rfl
  look p := by
    split
    · rename_i hp
      obtain ⟨upper, hupper, rfl⟩ := mem_placesTo.1 hp
      exact h upper hupper
    · rfl

/-- Where there are no names, there is nothing to make. -/
theorem Opens.madeDirs_nil (h : Opens fs base way o) : MadeDirs fs fs o [] := by
  refine madeDirs_self fun upper hupper => ?_
  rw [List.prefix_nil.1 hupper, List.append_nil]
  exact h.look_self

/-- On the way to a directory there are directories only. -/
theorem look_of_prefix {root : Entry} (h : root.look (o ++ names) = some .dir)
    {upper : List String} (hupper : upper <+: names) : root.look (o ++ upper) = some .dir := by
  obtain ⟨more, rfl⟩ := hupper
  by_cases hnil : more = []
  · simpa [hnil] using h
  · rw [← List.append_assoc] at h
    exact Entry.look_eq_dir_of_append hnil (by rw [h]; exact nofun)

theorem mem_placesTo_concat {p : List String} :
    p ∈ placesTo o (names ++ [name]) ↔ p ∈ placesTo o names ∨ p = o ++ names ++ [name] := by
  simp only [mem_placesTo]
  constructor
  · rintro ⟨upper, hupper, rfl⟩
    rcases List.prefix_concat_iff.1 hupper with rfl | hupper
    · exact .inr (List.append_assoc _ _ _).symm
    · exact .inl ⟨upper, hupper, rfl⟩
  · rintro (⟨upper, hupper, rfl⟩ | rfl)
    · exact ⟨upper, hupper.trans (List.prefix_append names [name]), rfl⟩
    · exact ⟨names ++ [name], List.prefix_refl _, (List.append_assoc _ _ _).symm⟩

/-- The last directory on the way is made once the others are there. -/
theorem MadeDirs.putAt (h : MadeDirs fs made o names)
    (hnone : made.root.look (o ++ names ++ [name]) = none) :
    MadeDirs fs (made.putAt (o ++ names ++ [name]) (.dir [])) o (names ++ [name]) where
  workingDir := h.workingDir
  look p := by
    -- The directory above was made before.
    have hdir : made.root.look (o ++ names) = some .dir := by
      rw [h.look, if_pos (mem_placesTo.2 ⟨names, List.prefix_refl names, rfl⟩)]
    have hput : (made.putAt (o ++ names ++ [name]) (.dir [])).root.look p =
        if p = o ++ names ++ [name] then some .dir else made.root.look p :=
      Entry.look_put_dir hdir hnone p
    rw [hput, h.look]
    simp only [mem_placesTo_concat]
    by_cases hp : p = o ++ names ++ [name]
    · simp only [hp, or_true, if_true]
    · simp only [hp, or_false, if_false]

/-- A name that is free is made in a directory below an open one, if it is not there yet. -/
theorem MadeDirs.ensureDir (h : MadeDirs fs made o names) (hopens : Opens made base way o)
    (hfree : IsFree made.root o (names ++ [name])) :
    ∃ done, made.ensureDir base (way ++ names ++ [name]) = .ok done ∧
      MadeDirs fs done o (names ++ [name]) := by
  have hdir : made.root.look (o ++ names) = some .dir := by
    rw [h.look, if_pos (mem_placesTo.2 ⟨names, List.prefix_refl names, rfl⟩)]
  have hmake := hopens.makeDir_of_dir hfree.steps hdir
  have hlast := hfree.free (names ++ [name]) (List.prefix_refl _)
  rw [← List.append_assoc] at hlast
  unfold FileSystem.ensureDir
  rcases hlast with hnone | htaken
  -- The name is free, so the directory is made.
  · rw [if_pos hnone] at hmake
    rw [hmake]
    exact ⟨_, rfl, h.putAt hnone⟩
  · rw [if_neg (by rw [htaken]; exact nofun)] at hmake
    -- The name is taken by a directory, which is left as it is.
    have hleads : made.leadsToDir base (way ++ names ++ [name]) = true := by
      rw [List.append_assoc] at htaken ⊢
      exact hopens.leadsToDir hfree.steps htaken
    rw [hmake]
    simp only [hleads, if_true]
    refine ⟨made, rfl, h.workingDir, fun p => ?_⟩
    rw [h.look]
    simp only [mem_placesTo_concat]
    by_cases hp : p = o ++ names ++ [name]
    · subst hp
      rw [← h.look, htaken, if_pos (.inr rfl)]
    · simp only [hp, or_false]

/-- What is free stays free when directories are made on the way. -/
theorem IsFree.of_made {more : List String} (h : IsFree fs.root o more)
    (hmade : MadeDirs fs made o names) : IsFree made.root o more where
  steps := h.steps
  free upper hupper := by
    rw [hmade.look]
    split
    · exact .inr rfl
    · exact h.free upper hupper

/-- Directories are made along free names behind an open directory. -/
theorem Opens.makeDirsFrom (h : Opens fs base way o) (hfree : IsFree fs.root o names) :
    ∃ made, FileSystem.makeDirsFrom fs base (way ++ names).reverse = .ok made ∧
      MadeDirs fs made o names := by
  -- By induction on the names from the last one, as they are given in this order.
  induction names using List.reverseRecOn with
  | nil =>
    refine ⟨fs, ?_, h.madeDirs_nil⟩
    rw [List.append_nil]
    cases hreversed : way.reverse with
    | nil => rfl
    | cons name reversed =>
      have hway : (name :: reversed).reverse = way := by rw [← hreversed, List.reverse_reverse]
      rw [FileSystem.makeDirsFrom, hway, h.makeDir_self]
      simp [h.leadsToDir_self]
  | append_singleton names name ih =>
    have hbefore := hfree.of_append
    obtain ⟨mid, hmid, hmade⟩ := ih hbefore
    have hreversed : (way ++ (names ++ [name])).reverse = name :: (way ++ names).reverse := by
      simp
    have hforward : (name :: (way ++ names).reverse).reverse = way ++ names ++ [name] := by
      simp
    rw [hreversed, FileSystem.makeDirsFrom, hforward]
    rcases hbefore.free names (List.prefix_refl names) with hmissing | hdir
    · -- The names before come first.
      have hbase := h.start
      have hopens := h.grew (grew_makeDirsFrom hbase hmid)
      obtain ⟨done, hdone, hall⟩ := hmade.ensureDir hopens (hfree.of_made hmade)
      rw [h.makeDir_of_missing hfree hmissing]
      simp only [hmid, bind, Except.bind]
      exact ⟨done, hdone, hall⟩
    · -- The names before are there, so that only the last one may be new.
      have hself := madeDirs_self fun upper hupper => look_of_prefix hdir hupper
      obtain ⟨done, hdone, hall⟩ := hself.ensureDir h hfree
      refine ⟨done, ?_, hall⟩
      rw [← hdone, FileSystem.ensureDir, h.makeDir_of_dir hfree.steps hdir]
      by_cases hnone : fs.root.look (o ++ names ++ [name]) = none
      · rw [if_pos hnone]
      · rw [if_neg hnone]

/-- The names of a path before its last one. -/
theorem leadingNames_of_parts {path : String} (h : Path.parts path = way ++ (names ++ [name]))
    (hnames : ∀ n ∈ names ++ [name], n ≠ ".") :
    leadingNames path = (way.filter (· != ".") ++ names).reverse := by
  have hkept : (names ++ [name]).filter (· != ".") = names ++ [name] :=
    List.filter_eq_self.2 fun n hn => by simpa using hnames n hn
  rw [leadingNames, Path.names, h, List.filter_append, hkept, ← List.append_assoc,
    List.dropLast_concat]

/-- Directories are made along the names of a path that are free behind an open directory. -/
theorem Opens.makeDirs {path : String} (h : Opens fs (fs.start path) way o)
    (hparts : Path.parts path = way ++ names) (hcheck : checkPath path = .ok ())
    (hfree : IsFree fs.root o names) :
    ∃ made, fs.makeDirs path = .ok made ∧ MadeDirs fs made o names := by
  have hne : path.isEmpty = false := by
    rw [← Bool.not_eq_true, String.isEmpty_iff]
    exact (checkPath_eq_ok_iff.1 hcheck).2.1
  unfold FileSystem.makeDirs
  simp only [hne, hcheck, hparts, bind, Except.bind, Bool.false_eq_true, if_false]
  rcases List.eq_nil_or_concat names with rfl | ⟨names, name, rfl⟩
  · refine ⟨fs, ?_, h.madeDirs_nil⟩
    rw [List.append_nil, h.makeDir_self]
    simp only [h.leadsToDir_self, if_true]
    rfl
  · rw [List.concat_eq_append] at hfree hparts ⊢
    rw [← List.append_assoc]
    rcases hfree.of_append.free names (List.prefix_refl names) with hmissing | hdir
    · -- The names before come first; dots on the way do not count among them.
      obtain ⟨mid, hmid, hmade⟩ := (h.dropDots (.filter way)).makeDirsFrom hfree.of_append
      have hopens := h.grew (grew_makeDirsFrom h.start hmid)
      obtain ⟨done, hdone, hall⟩ := hmade.ensureDir hopens (hfree.of_made hmade)
      rw [h.makeDir_of_missing hfree hmissing,
        leadingNames_of_parts hparts fun n hn => (hfree.steps n hn).ne_dot]
      simp only [hmid]
      exact ⟨done, hdone, hall⟩
    · have hself := madeDirs_self fun upper hupper => look_of_prefix hdir hupper
      obtain ⟨done, hdone, hall⟩ := hself.ensureDir h hfree
      refine ⟨done, ?_, hall⟩
      rw [← hdone, FileSystem.ensureDir, h.makeDir_of_dir hfree.steps hdir]
      by_cases hnone : fs.root.look (o ++ names ++ [name]) = none
      · rw [if_pos hnone]
        rfl
      · rw [if_neg hnone]
        rfl

/-! ## What made directories tell -/

/-- Parts lead to the directory that they made. -/
theorem leadsToDir_of_makeDir {parts : List String}
    (hbase : ∃ children, fs.root.get? base = some (.dir children))
    (h : fs.makeDir base parts = .ok made) : made.leadsToDir base parts = true := by
  have hgrew := grew_makeDir hbase h
  obtain ⟨init, name, dir, rfl, hstep, hway, hnone, rfl⟩ := makeDir_eq_ok hbase h
  obtain ⟨children, hdir⟩ := hway.exists_dir_of_dot hbase (by simp)
  -- The new directory is found where it was put.
  have hlook : (fs.putAt (dir ++ [name]) (.dir [])).root.look (dir ++ [name]) = some .dir := by
    rw [putAt, Entry.look_put_dir (Entry.look_eq_dir_iff.2 ⟨children, hdir⟩) hnone, if_pos rfl]
  obtain ⟨cs, hnew⟩ := Entry.look_eq_dir_iff.1 hlook
  obtain ⟨cs', hdir'⟩ := hgrew.root.dirs hdir
  obtain ⟨bs, hbase⟩ := hbase
  refine (leadsToDir_eq_true_iff (hgrew.root.dirs hbase)).2 ⟨dir ++ [name], ?_, hlook⟩
  -- The way to it is still there, and ends in the new directory.
  exact ((hway.keeps hgrew.root).dropDots (.concat init)).append hdir' fun _ =>
    .enter hstep hnew .done

theorem leadsToDir_of_ensureDir {parts : List String}
    (hbase : ∃ children, fs.root.get? base = some (.dir children))
    (h : fs.ensureDir base parts = .ok made) : made.leadsToDir base parts = true := by
  unfold ensureDir at h
  split at h
  -- It was made, or it is there already.
  · rename_i done hdone
    cases h
    exact leadsToDir_of_makeDir hbase hdone
  · split at h
    · rename_i hleads
      cases h
      exact hleads
    · exact nomatch h

/-- A path leads to the directory that it made. -/
theorem leadsToDir_of_makeDirs {path : String} (hfs : fs.Grounded) (hne : path ≠ "")
    (h : fs.makeDirs path = .ok made) :
    checkPath path = .ok () ∧ made.leadsToDir (fs.start path) (Path.parts path) = true := by
  have hbase := hfs.start path
  unfold makeDirs at h
  rw [if_neg (by simpa using hne)] at h
  cases hcheck : checkPath path with
  | error e => simp [hcheck, bind, Except.bind] at h
  | ok _ =>
    simp only [hcheck, bind, Except.bind] at h
    refine ⟨rfl, ?_⟩
    split at h
    -- The directory could be made at once.
    · rename_i done hdone
      cases h
      exact leadsToDir_of_makeDir hbase hdone
    -- The directories on the way are made first.
    · cases hfrom : makeDirsFrom fs (fs.start path) (leadingNames path) with
      | error e => simp [hfrom] at h
      | ok mid =>
        simp only [hfrom] at h
        have hmid := grew_makeDirsFrom hbase hfrom
        obtain ⟨children, hdir⟩ := hbase
        exact leadsToDir_of_ensureDir (hmid.root.dirs hdir) h
    · split at h
      -- It is there already.
      · rename_i hleads
        cases h
        exact hleads
      · exact nomatch h

/-- Nothing was in the way of directories that were made behind an open directory. -/
theorem Opens.isFree_of_makeDirs {path : String} (h : Opens fs (fs.start path) way o)
    (hfs : fs.Grounded) (hne : path ≠ "") (hparts : Path.parts path = way ++ names)
    (hnames : ∀ n ∈ names, Path.IsName n) (hmade : fs.makeDirs path = .ok made) :
    checkPath path = .ok () ∧ IsFree fs.root o names := by
  have hgrew := grew_makeDirs hfs hmade
  have hopens := h.grew hgrew
  obtain ⟨hcheck, hleads⟩ := leadsToDir_of_makeDirs hfs hne hmade
  refine ⟨hcheck, ?_⟩
  rw [hparts, leadsToDir_eq_true_iff hopens.start] at hleads
  obtain ⟨q, hway, hq⟩ := hleads
  obtain ⟨children, ho⟩ := hopens.dir
  obtain ⟨left, hdown⟩ := hopens.leads.of_append ho hway
  -- In the new tree the names lead to a directory below the open one.
  have hend : (∀ n ∈ names, IsStep n) ∧ made.root.look (o ++ names) = some .dir := by
    rcases List.eq_nil_or_concat names with rfl | ⟨names, name, rfl⟩
    · exact ⟨nofun, by simpa using hopens.look_self⟩
    · rw [List.concat_eq_append] at hnames hdown ⊢
      obtain ⟨hsteps, -, hplace⟩ := (leads_names_iff hopens.look_self hnames
        fun upper _ t => hopens.noLinks upper t).1 hdown
      have hplaces : q = o ++ names ++ [name] :=
        (congrArg Place.place hplace).trans (place_placeIn name)
      rw [hplaces, List.append_assoc] at hq
      exact ⟨hsteps, hq⟩
  refine ⟨hend.1, fun upper hupper => ?_⟩
  have hdir := look_of_prefix hend.2 hupper
  -- A file or a link would still be there.
  cases hget : fs.root.get? (o ++ upper) with
  | none => exact .inl (Entry.look_eq_none_iff.2 hget)
  | some e =>
    obtain ⟨cs, hcs⟩ := Entry.look_eq_dir_iff.1 hdir
    cases e with
    | dir cs => exact .inr (Entry.look_eq_dir_iff.2 ⟨cs, hget⟩)
    | link t => exact absurd hget (h.noLinks upper t)
    | file content =>
      obtain ⟨content', hfile⟩ := hgrew.root.files hget
      exact nomatch hcs.symm.trans hfile

/-! ## Directories that lead to a path -/

section

variable {out rel : String}

/-- The parent of a path in an open directory is there, or is made below it. -/
theorem Opens.parent (h : Opens fs (fs.start out) (Path.parts out) o) (hrel : Path.IsRelative rel)
    (hne : Path.parent (Path.join out rel) ≠ "") :
    ∃ way, Opens fs (fs.start (Path.parent (Path.join out rel))) way o ∧
      Path.parts (Path.parent (Path.join out rel)) = way ++ (Path.parts rel).dropLast := by
  obtain ⟨n, hparts⟩ := hrel.parts_parent out
  have hstart : fs.start (Path.parent (Path.join out rel)) = fs.start out := by
    rw [FileSystem.start, FileSystem.start, hrel.isAbsolute_parent hne]
  rw [hstart]
  rcases List.eq_nil_or_concat (Path.parts rel).dropLast with hnil | ⟨names, name, hnames⟩
  · -- Dots that lead nowhere may be missing in the parent.
    rw [hnil, List.append_nil] at hparts
    rw [hnil]
    refine ⟨_, h.dropDots ?_, (List.append_nil _).symm⟩
    rw [hparts]
    exact .replicate _ n
  · -- The parts before the last one end in a name, so no dots are missing.
    have hname : Path.IsName name := by
      refine hrel.isName_of_mem_parts name (List.dropLast_subset _ ?_)
      rw [hnames]
      simp
    cases n with
    | zero =>
      refine ⟨_, h, ?_⟩
      simpa using hparts.symm
    | succ n =>
      rw [hnames, List.concat_eq_append, List.replicate_succ', ← List.append_assoc,
        ← List.append_assoc] at hparts
      have hlast : [name] = ["."] := List.append_inj_right' hparts rfl
      exact absurd (List.singleton_inj.1 hlast) hname.ne_dot

/-- The directories that lead to a path in an open directory can be made: the path of the last one
    can be looked up, and nothing is in the way. -/
def CanLead (fs : FileSystem) (out : String) (o : List String) (rel : String) : Prop :=
  (Path.parent (Path.join out rel) ≠ "" → checkPath (Path.parent (Path.join out rel)) = .ok ()) ∧
    IsFree fs.root o (Path.parts rel).dropLast

/-- The directories that lead to a path in an open directory are made. -/
theorem Opens.makeLeading (h : Opens fs (fs.start out) (Path.parts out) o)
    (hrel : Path.IsRelative rel) (hcan : CanLead fs out o rel) :
    ∃ made, fs.makeLeading (Path.join out rel) = .ok made ∧
      MadeDirs fs made o (Path.parts rel).dropLast := by
  unfold FileSystem.makeLeading
  by_cases hne : Path.parent (Path.join out rel) = ""
  · -- There is nothing to make.
    rw [hne, hrel.dropLast_parts hne]
    exact ⟨fs, rfl, h.madeDirs_nil⟩
  · obtain ⟨way, hopens, hparts⟩ := h.parent hrel hne
    exact hopens.makeDirs hparts (hcan.1 hne) hcan.2

/-- The directories that lead to a path in an open directory can be made if they were made. -/
theorem Opens.canLead (h : Opens fs (fs.start out) (Path.parts out) o) (hfs : fs.Grounded)
    (hrel : Path.IsRelative rel) (hmade : fs.makeLeading (Path.join out rel) = .ok made) :
    CanLead fs out o rel := by
  by_cases hne : Path.parent (Path.join out rel) = ""
  -- The output stands at the top of the directory, so nothing is on the way.
  · refine ⟨fun h => absurd hne h, ?_⟩
    rw [hrel.dropLast_parts hne]
    refine ⟨nofun, fun upper hupper => .inr ?_⟩
    simpa [List.prefix_nil.1 hupper] using h.look_self
  -- The directories on the way could be made, so nothing stood in their way.
  · obtain ⟨way, hopens, hparts⟩ := h.parent hrel hne
    have hnames : ∀ n ∈ (Path.parts rel).dropLast, Path.IsName n := fun n hn =>
      hrel.isName_of_mem_parts n (List.dropLast_subset _ hn)
    obtain ⟨hcheck, hfree⟩ := hopens.isFree_of_makeDirs hfs hne hparts hnames hmade
    exact ⟨fun _ => hcheck, hfree⟩

end

end

/-! ## Paths along names -/

/-- A path that can be looked up, name by name. -/
structure CanLookUp (path : String) (names : List String) : Prop where
  check : checkPath path = .ok ()
  steps : ∀ n ∈ names, IsStep n

/-- A path that leads along names only: down from a place through directories, to what the last name
    names there. -/
def LeadsAlong (fs : FileSystem) (path : String) (here names : List String) (name : String) :
    Prop :=
  ∀ p, fs.LeadsTo path p ↔ CanLookUp path (names ++ [name]) ∧
    fs.root.look (here ++ names) = some .dir ∧ p = placeIn fs.root (here ++ names) name

section

variable {fs fs' : FileSystem} {path out rel name : String} {o here names : List String}
  {content : Bytes}

/-- A path in an open directory leads along its names. -/
theorem Opens.leadsAlong (h : Opens fs (fs.start out) (Path.parts out) o)
    (hrel : Path.IsRelative rel) (hparts : Path.parts rel = names ++ [name]) :
    LeadsAlong fs (Path.join out rel) o names name := by
  intro p
  obtain ⟨children, ho⟩ := h.dir
  have hnames : ∀ n ∈ names ++ [name], Path.IsName n := hparts ▸ hrel.isName_of_mem_parts
  -- Below the directory there are no links, so the names lead straight down.
  have hdown (limit : Nat) := @leads_names_iff fs.root limit o names p name h.look_self hnames
    fun upper _ t => h.noLinks upper t
  have hstart : fs.start (Path.join out rel) = fs.start out := by
    rw [FileSystem.start, FileSystem.start, hrel.isAbsolute_join]
  -- The path goes the way of the directory and then down by the names.
  have hsteps : steps (Path.join out rel) = Path.parts out ++ (names ++ [name]) := by
    rw [steps, hrel.endsInSlash_join, Path.parts_join out rel hrel.isAbsolute, hparts]
    simp
  rw [LeadsTo, hstart, hsteps]
  constructor
  · rintro ⟨hcheck, hleads⟩
    obtain ⟨left, hway⟩ := h.leads.of_append ho hleads
    obtain ⟨hshort, hdir, hp⟩ := (hdown left).1 hway
    exact ⟨⟨hcheck, hshort⟩, hdir, hp⟩
  · rintro ⟨⟨hcheck, hshort⟩, hdir, hp⟩
    exact ⟨hcheck, h.leads.append ho fun limit => (hdown limit).2 ⟨hshort, hdir, hp⟩⟩

/-- The path of a place leads along its names, if no link is on the way. -/
theorem leadsAlong_pathOf (hfs : fs.Grounded) (hnames : ∀ n ∈ names ++ [name], Path.IsName n)
    (hlinks : ∀ upper, upper <+: names ++ [name] → ∀ t, fs.root.get? upper ≠ some (.link t)) :
    LeadsAlong fs (pathOf (names ++ [name])) [] names name := by
  intro p
  obtain ⟨children, hworking⟩ := hfs
  have hroot : fs.root.look [] = some .dir := Entry.look_eq_dir_iff.2 (exists_dir_nil hworking)
  have hstart : fs.start (pathOf (names ++ [name])) = [] := by
    rw [FileSystem.start, isAbsolute_pathOf]
    rfl
  -- An absolute path goes down from the root by its names.
  have hsteps : steps (pathOf (names ++ [name])) = names ++ [name] := by
    rw [steps, parts_pathOf hnames, endsInSlash_pathOf (hnames name (by simp))]
    simp
  have hdown := @leads_names_iff fs.root linkLimit [] names p name hroot hnames hlinks
  rw [LeadsTo, hstart, hsteps, hdown]
  constructor
  · rintro ⟨hcheck, hshort, hdir, hp⟩
    exact ⟨⟨hcheck, hshort⟩, hdir, hp⟩
  · rintro ⟨⟨hcheck, hshort⟩, hdir, hp⟩
    exact ⟨hcheck, hshort, hdir, hp⟩

/-- Reading along names: the path can be looked up and there is a file. -/
theorem LeadsAlong.readBytes_eq_ok_iff (h : LeadsAlong fs path here names name)
    (hfs : fs.Grounded) : fs.readBytes path = .ok content ↔
      CanLookUp path (names ++ [name]) ∧
        fs.root.look (here ++ names ++ [name]) = some (.file content) := by
  rw [FileSystem.readBytes_eq_ok_iff hfs]
  simp only [h _, Entry.look_eq_file_iff]
  constructor
  · rintro ⟨q, ⟨hlook, -, hq⟩, hfile⟩
    have hplace : q = here ++ names ++ [name] :=
      (congrArg Place.place hq).trans (place_placeIn name)
    exact ⟨hlook, hplace ▸ hfile⟩
  -- A file that is there stands in a directory.
  · rintro ⟨hlook, hfile⟩
    have hdir : fs.root.look (here ++ names) = some .dir :=
      Entry.look_eq_dir_iff.2 (Entry.exists_dir_of_get?_append (List.cons_ne_nil name []) hfile)
    exact ⟨_, ⟨hlook, hdir, (placeIn_of_some hfile).symm⟩, hfile⟩

/-- Writing along names: the path can be looked up and there is no directory. -/
theorem LeadsAlong.writeBytes_eq_ok_iff (h : LeadsAlong fs path here names name)
    (hfs : fs.Grounded) (hdir : fs.root.look (here ++ names) = some .dir) :
    fs.writeBytes path content = .ok fs' ↔
      (CanLookUp path (names ++ [name]) ∧ fs.root.look (here ++ names ++ [name]) ≠ some .dir) ∧
        fs.putAt (here ++ names ++ [name]) (.file content) = fs' := by
  rw [FileSystem.writeBytes_eq_ok_iff hfs]
  simp only [h _, hdir, true_and]
  constructor
  -- Found or absent, the file is put at the same place.
  · rintro ⟨p, ⟨hlook, rfl⟩, hold, rfl⟩
    rw [place_placeIn] at hold ⊢
    exact ⟨⟨hlook, hold⟩, rfl⟩
  · rintro ⟨⟨hlook, hold⟩, rfl⟩
    exact ⟨_, ⟨hlook, rfl⟩, by rwa [place_placeIn], by rw [place_placeIn]⟩

end

end JavaOutline.FileSystem

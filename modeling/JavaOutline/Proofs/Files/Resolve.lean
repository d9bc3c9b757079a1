import JavaOutline.Files.System
import JavaOutline.Proofs.Files.Tree

/-!
# What a path leads to

Resolving goes along a trail of directories.  `Leads` says by places alone where parts lead, so
that facts about resolving are proved by induction on the way and not on the number of links that
are left.

## Key results

- `resolve_eq_ok_iff`: a path resolves to what its parts lead to
- `Leads.append`, `Leads.of_append`: a way through a directory is a way there and a way on
- `Leads.keeps`: a way to something that is there stays when the tree grows
-/

namespace JavaOutline

/-! ## Ways -/

/-- The place that a path names, whether something is there or not. -/
def Place.place : Place → List String
  | found place => place
  | absent dir name => dir ++ [name]

namespace FileSystem

/-- A part that is looked up in a directory. -/
structure IsStep (part : String) : Prop where
  ne_dot : part ≠ "."
  ne_dots : part ≠ ".."
  short : isNameTooLong part = false

theorem isStep {part : String} (hdot : ¬(part == ".") = true) (hdots : ¬(part == "..") = true)
    (hlong : ¬isNameTooLong part = true) : IsStep part :=
  ⟨by simpa using hdot, by simpa using hdots, by simpa using hlong⟩

/-- Where parts lead from the directory at a place, with `limit` links left to follow. -/
inductive Leads (root : Entry) : Nat → List String → List String → Place → Prop where
  | done {limit : Nat} {here : List String} : Leads root limit here [] (.found here)
  | dot {limit : Nat} {here rest : List String} {p : Place} (h : Leads root limit here rest p) :
    Leads root limit here ("." :: rest) p
  | dots {limit : Nat} {here rest : List String} {p : Place}
    (h : Leads root limit here.dropLast rest p) : Leads root limit here (".." :: rest) p
  | absent {limit : Nat} {here : List String} {part : String} (hpart : IsStep part)
    (hget : root.get? (here ++ [part]) = none) :
    Leads root limit here [part] (.absent here part)
  | file {limit : Nat} {here : List String} {part : String} {content : Bytes}
    (hpart : IsStep part) (hget : root.get? (here ++ [part]) = some (.file content)) :
    Leads root limit here [part] (.found (here ++ [part]))
  | enter {limit : Nat} {here rest : List String} {part : String} {p : Place}
    {children : List (String × Entry)} (hpart : IsStep part)
    (hget : root.get? (here ++ [part]) = some (.dir children))
    (h : Leads root limit (here ++ [part]) rest p) : Leads root limit here (part :: rest) p
  | follow {limit : Nat} {here rest : List String} {part target : String} {p : Place}
    (hpart : IsStep part) (hget : root.get? (here ++ [part]) = some (.link target))
    (h : Leads root limit (if Path.isAbsolute target then [] else here) (steps target ++ rest) p) :
    Leads root (limit + 1) here (part :: rest) p

/-! ## Trails -/

/-- A trail along directories of a tree. -/
def IsTrail (root : Entry) : Trail → Prop
  | [] => ∃ children, root = .dir children
  | (name, e) :: trail =>
    (Trail.dir root trail).get? [name] = some e ∧ (∃ children, e = .dir children) ∧
      IsTrail root trail

@[simp] theorem place_cons (step : String × Entry) (trail : Trail) :
    Trail.place (step :: trail) = Trail.place trail ++ [step.1] := by
  simp [Trail.place]

/-- A trail ends at its place. -/
theorem IsTrail.get?_place {root : Entry} {trail : Trail} (h : IsTrail root trail) :
    root.get? trail.place = some (trail.dir root) := by
  induction trail with
  | nil => exact Entry.get?_nil root
  | cons step trail ih =>
    rw [place_cons, Entry.get?_append, ih h.2.2]
    exact h.1

/-- What is in the directory where a trail ends. -/
theorem IsTrail.get?_place_append {root : Entry} {trail : Trail} (h : IsTrail root trail)
    (names : List String) : root.get? (trail.place ++ names) = (trail.dir root).get? names := by
  rw [Entry.get?_append, h.get?_place]
  rfl

theorem IsTrail.tail {root : Entry} {trail : Trail} (h : IsTrail root trail) :
    IsTrail root trail.tail := by
  cases trail with
  | nil => exact h
  | cons step trail => exact h.2.2

theorem place_tail (trail : Trail) : Trail.place trail.tail = trail.place.dropLast := by
  cases trail with
  | nil => rfl
  | cons step trail => simp

theorem IsTrail.nil {root : Entry} {trail : Trail} (h : IsTrail root trail) :
    IsTrail root [] := by
  induction trail with
  | nil => exact h
  | cons step trail ih => exact ih h.2.2

/-- A link leads on from the root or from where it stands. -/
theorem IsTrail.ite {root : Entry} {trail : Trail} (h : IsTrail root trail) (c : Prop)
    [Decidable c] : IsTrail root (if c then [] else trail) := by
  split
  · exact h.nil
  · exact h

theorem place_ite (c : Prop) [Decidable c] (trail : Trail) :
    Trail.place (if c then [] else trail) = if c then [] else trail.place := by
  split <;> rfl

/-- A trail goes down to a directory that is there. -/
theorem isTrail_descend {root : Entry} {trail : Trail} (htrail : IsTrail root trail)
    {names : List String} {children : List (String × Entry)}
    (h : root.get? (trail.place ++ names) = some (.dir children)) :
    IsTrail root (Trail.descend root trail names) ∧
      Trail.place (Trail.descend root trail names) = trail.place ++ names := by
  induction names generalizing trail with
  | nil => simpa [Trail.descend] using htrail
  | cons name names ih =>
    have hway : trail.place ++ name :: names = trail.place ++ [name] ++ names := by simp
    obtain ⟨e, he⟩ : ∃ e, root.get? (trail.place ++ [name]) = some e := by
      rw [hway, Entry.get?_append] at h
      cases he : root.get? (trail.place ++ [name]) with
      | none => simp [he] at h
      | some e => exact ⟨e, rfl⟩
    have hchild : (trail.dir root).get? [name] = some e := by
      rw [← htrail.get?_place_append, he]
    -- What is entered is a directory: the last one, or one with something below it.
    have hdir : ∃ cs, e = .dir cs := by
      by_cases hnil : names = []
      · subst hnil
        rw [he] at h
        exact ⟨children, Option.some.inj h⟩
      · rw [hway] at h
        obtain ⟨cs, hcs⟩ := Entry.exists_dir_of_get?_append hnil h
        rw [he] at hcs
        exact ⟨cs, Option.some.inj hcs⟩
    rw [Trail.descend, hchild]
    rw [hway] at h ⊢
    have hon : IsTrail root ((name, e) :: trail) := ⟨hchild, hdir, htrail⟩
    simpa using ih hon (by simpa using h)

/-- How resolving goes on at a link. -/
def goOn (root : Entry) : (limit : Nat) → Trail → List String → Except FileError Place
  | 0 => fun _ _ => .error .tooManyLinks
  | limit + 1 => resolveFrom root limit

theorem resolveFrom_eq (root : Entry) (limit : Nat) :
    resolveFrom root limit = walkFrom root (goOn root limit) := by
  cases limit <;> rfl

/-- Going along a trail as far as a link leads where the parts lead, if going on does. -/
theorem leads_of_walkFrom {root : Entry} {limit : Nat} {here : Trail} {parts : List String}
    {p : Place} {onLink : Trail → List String → Except FileError Place}
    (honLink : ∀ {trail rest}, IsTrail root trail → onLink trail rest = .ok p →
      ∃ left, limit = left + 1 ∧ Leads root left trail.place rest p)
    (htrail : IsTrail root here) (h : walkFrom root onLink here parts = .ok p) :
    Leads root limit here.place parts p := by
  -- By induction on the parts up to the first link, where `honLink` takes over.
  induction parts generalizing here with
  | nil =>
    cases h
    exact .done
  | cons part rest ih =>
    rw [walkFrom] at h
    split at h
    · rename_i hdot
      obtain rfl := eq_of_beq hdot
      exact .dot (ih htrail h)
    split at h
    · rename_i hdots
      obtain rfl := eq_of_beq hdots
      exact .dots (place_tail here ▸ ih htrail.tail h)
    split at h
    · exact nomatch h
    rename_i hdot hdots hlong
    -- From here on the part is looked up.
    have hpart := isStep hdot hdots hlong
    have hget := htrail.get?_place_append [part]
    split at h
    · rename_i hnone
      split at h
      · rename_i hrest
        obtain rfl := List.isEmpty_iff.1 hrest
        cases h
        exact .absent hpart (hget.trans hnone)
      · exact nomatch h
    · rename_i children hdir
      have hon : IsTrail root ((part, .dir children) :: here) := ⟨hdir, ⟨children, rfl⟩, htrail⟩
      refine .enter hpart (hget.trans hdir) ?_
      simpa using ih hon h
    · rename_i content hfile
      split at h
      · rename_i hrest
        obtain rfl := List.isEmpty_iff.1 hrest
        cases h
        exact .file hpart (hget.trans hfile)
      · exact nomatch h
    · rename_i target hlink
      obtain ⟨left, rfl, hleads⟩ := honLink (htrail.ite _) h
      rw [place_ite] at hleads
      exact .follow hpart (hget.trans hlink) hleads

/-- What resolving along a trail gives is where the parts lead. -/
theorem leads_of_resolveFrom {root : Entry} {limit : Nat} {here : Trail} {parts : List String}
    {p : Place} (htrail : IsTrail root here) (h : resolveFrom root limit here parts = .ok p) :
    Leads root limit here.place parts p := by
  -- By induction on the number of links that are left.
  induction limit generalizing here parts with
  | zero =>
    rw [resolveFrom] at h
    refine leads_of_walkFrom ?_ htrail h
    intro trail rest _ hnone
    exact nomatch hnone
  | succ limit ih =>
    rw [resolveFrom] at h
    exact leads_of_walkFrom (fun ht h => ⟨limit, rfl, ih ht h⟩) htrail h

/-- Resolving along a trail gives where the parts lead. -/
theorem Leads.resolveFrom {root : Entry} {limit : Nat} {place parts : List String} {p : Place}
    (h : Leads root limit place parts p) {here : Trail} (htrail : IsTrail root here)
    (hplace : here.place = place) : resolveFrom root limit here parts = .ok p := by
  induction h generalizing here with
  -- By induction on the way, with the trail that has come as far.
  | done => rw [resolveFrom_eq, walkFrom, hplace]
  | dot _ ih =>
    rw [resolveFrom_eq, walkFrom, if_pos (beq_self_eq_true _), ← resolveFrom_eq]
    exact ih htrail hplace
  | dots _ ih =>
    rw [resolveFrom_eq, walkFrom, if_neg (by decide), if_pos (beq_self_eq_true _),
      ← resolveFrom_eq]
    exact ih htrail.tail (by rw [place_tail, hplace])
  -- The last name is free, or it is that of a file.
  | absent hpart hget =>
    subst hplace
    rw [htrail.get?_place_append] at hget
    simp [resolveFrom_eq, walkFrom, hpart.ne_dot, hpart.ne_dots, hpart.short, hget]
  | file hpart hget =>
    subst hplace
    rw [htrail.get?_place_append] at hget
    simp [resolveFrom_eq, walkFrom, hpart.ne_dot, hpart.ne_dots, hpart.short, hget]
  | enter hpart hget _ ih =>
    subst hplace
    have hchild := htrail.get?_place_append _ ▸ hget
    rw [resolveFrom_eq, walkFrom, ← resolveFrom_eq]
    simp only [beq_iff_eq, hpart.ne_dot, hpart.ne_dots, hpart.short, hchild, if_false]
    exact ih ⟨hchild, ⟨_, rfl⟩, htrail⟩ (place_cons _ _)
  -- The link takes one from the limit and goes on from the root or from here.
  | follow hpart hget _ ih =>
    subst hplace
    have hchild := htrail.get?_place_append _ ▸ hget
    rw [resolveFrom_eq, walkFrom]
    simp only [beq_iff_eq, hpart.ne_dot, hpart.ne_dots, hpart.short, hchild, if_false]
    exact ih (htrail.ite _) (place_ite _ _)

/-! ## Where ways end -/

section

variable {root root' : Entry} {limit : Nat} {here parts : List String} {p : Place}

/-- What is above a directory is a directory. -/
theorem exists_dir_dropLast {children : List (String × Entry)}
    (h : root.get? here = some (.dir children)) :
    ∃ children, root.get? here.dropLast = some (.dir children) := by
  rcases List.eq_nil_or_concat here with rfl | ⟨init, last, rfl⟩
  · exact ⟨children, h⟩
  · rw [List.concat_eq_append] at h ⊢
    rw [List.dropLast_concat]
    exact Entry.exists_dir_of_get?_append (by simp) h

/-- The root of a tree with a directory is a directory. -/
theorem exists_dir_nil {children : List (String × Entry)}
    (h : root.get? here = some (.dir children)) :
    ∃ children, root.get? [] = some (.dir children) := by
  cases here with
  | nil => exact ⟨children, h⟩
  | cons name names => exact Entry.exists_dir_of_get?_append (by simp) h

/-- A link leads on from a directory. -/
theorem exists_dir_ite {children : List (String × Entry)}
    (h : root.get? here = some (.dir children)) (c : Prop) [Decidable c] :
    ∃ children, root.get? (if c then [] else here) = some (.dir children) := by
  split
  · exact exists_dir_nil h
  · exact ⟨children, h⟩

/-- A way that starts in a directory ends at an entry that is no link, or at a free name in a
    directory. -/
theorem Leads.end_cases (h : Leads root limit here parts p)
    (hhere : ∃ children, root.get? here = some (.dir children)) :
    (∃ q e, p = .found q ∧ root.get? q = some e ∧ ∀ t, e ≠ .link t) ∨
      ∃ dir name children, p = .absent dir name ∧ root.get? dir = some (.dir children) ∧
        root.get? (dir ++ [name]) = none := by
  induction h with
  | done =>
    obtain ⟨children, hhere⟩ := hhere
    exact .inl ⟨_, _, rfl, hhere, nofun⟩
  | dot _ ih => exact ih hhere
  -- Upwards there are directories only.
  | dots _ ih =>
    obtain ⟨children, hhere⟩ := hhere
    exact ih (exists_dir_dropLast hhere)
  | absent _ hget =>
    obtain ⟨children, hhere⟩ := hhere
    exact .inr ⟨_, _, children, rfl, hhere, hget⟩
  | file _ hget => exact .inl ⟨_, _, rfl, hget, nofun⟩
  | enter _ hget _ ih => exact ih ⟨_, hget⟩
  -- Behind a link the way goes on from a directory.
  | follow _ _ _ ih =>
    obtain ⟨children, hhere⟩ := hhere
    apply ih
    split
    · exact exists_dir_nil hhere
    · exact ⟨children, hhere⟩

/-- Parts that end in a dot lead to a directory. -/
theorem Leads.exists_dir_of_dot {q : List String} (h : Leads root limit here parts (.found q))
    (hhere : ∃ children, root.get? here = some (.dir children))
    (hparts : parts.getLast? = some ".") : ∃ children, root.get? q = some (.dir children) := by
  -- The dot is the last part of every rest of the way, so the way cannot end in a file.
  generalize hp : Place.found q = p at h
  induction h with
  | done => simp at hparts
  | @dot _ here rest _ h ih =>
    cases rest with
    | nil =>
      cases h
      cases hp
      exact hhere
    | cons part rest => exact ih hhere (by simpa using hparts) hp
  | @dots _ here rest _ h ih =>
    obtain ⟨children, hhere⟩ := hhere
    cases rest with
    | nil => simp at hparts
    | cons part rest => exact ih (exists_dir_dropLast hhere) (by simpa using hparts) hp
  | absent => exact nomatch hp
  | file hpart => exact absurd (by simpa using hparts) hpart.ne_dot
  | @enter _ here rest part _ _ hpart hget h ih =>
    cases rest with
    | nil => exact absurd (by simpa using hparts) hpart.ne_dot
    | cons next rest => exact ih ⟨_, hget⟩ (by simpa using hparts) hp
  | @follow _ here rest part target _ hpart _ h ih =>
    obtain ⟨children, hhere⟩ := hhere
    cases rest with
    | nil => exact absurd (by simpa using hparts) hpart.ne_dot
    | cons next rest =>
      refine ih ?_ (by simpa using hparts) hp
      split
      · exact exists_dir_nil hhere
      · exact ⟨children, hhere⟩

/-- A way stays when the tree grows; a free name at its end may be taken by a file. -/
theorem Leads.grow {free : List String → Prop} (h : Leads root limit here parts p)
    (hkeeps : Entry.Keeps free root root')
    (hend : ∀ dir name, p = .absent dir name →
      ∃ content, root'.get? (dir ++ [name]) = some (.file content)) :
    Leads root' limit here parts (.found p.place) := by
  induction h with
  | done => exact .done
  | dot _ ih => exact .dot (ih hend)
  | dots _ ih => exact .dots (ih hend)
  -- The file that was missing is there now.
  | absent hpart _ =>
    obtain ⟨content, hget⟩ := hend _ _ rfl
    exact .file hpart hget
  -- Files, directories and links on the way are still there.
  | file hpart hget =>
    obtain ⟨content, hget⟩ := hkeeps.files hget
    exact .file hpart hget
  | enter hpart hget _ ih =>
    obtain ⟨children, hget⟩ := hkeeps.dirs hget
    exact .enter hpart hget (ih hend)
  | follow hpart hget _ ih => exact .follow hpart (hkeeps.links.2 hget) (ih hend)

/-- A way to something that is there stays when the tree grows. -/
theorem Leads.keeps {free : List String → Prop} {q : List String}
    (h : Leads root limit here parts (.found q)) (hkeeps : Entry.Keeps free root root') :
    Leads root' limit here parts (.found q) :=
  h.grow hkeeps nofun

/-! ## Ways through a directory -/

/-- A way to a directory goes on behind it. -/
theorem Leads.append {o rest : List String} {children : List (String × Entry)}
    (h : Leads root limit here parts (.found o)) (ho : root.get? o = some (.dir children))
    (hrest : ∀ limit, Leads root limit o rest p) : Leads root limit here (parts ++ rest) p := by
  -- A way that ends in a directory does not end with a file.
  generalize hq : Place.found o = q at h
  induction h with
  | done =>
    cases hq
    exact hrest _
  | dot _ ih => exact .dot (ih hq)
  | dots _ ih => exact .dots (ih hq)
  | absent => exact nomatch hq
  | file _ hget =>
    cases hq
    rw [hget] at ho
    exact nomatch ho
  | enter hpart hget _ ih => exact .enter hpart hget (ih hq)
  | follow hpart hget _ ih => exact .follow hpart hget (List.append_assoc _ _ _ ▸ ih hq)

/-- A dot stays where it is. -/
theorem Leads.of_dot {rest : List String} (h : Leads root limit here ("." :: rest) p) :
    Leads root limit here rest p := by
  generalize heq : "." = part at h
  cases h with
  | dot h => exact h
  | dots => exact absurd heq (by decide)
  | absent hpart | file hpart | enter hpart | follow hpart => exact absurd heq.symm hpart.ne_dot

/-- Two dots go up. -/
theorem Leads.of_dots {rest : List String} (h : Leads root limit here (".." :: rest) p) :
    Leads root limit here.dropLast rest p := by
  generalize heq : ".." = part at h
  cases h with
  | dot => exact absurd heq (by decide)
  | dots h => exact h
  | absent hpart | file hpart | enter hpart | follow hpart => exact absurd heq.symm hpart.ne_dots

/-- The name of a directory goes down. -/
theorem Leads.of_enter {rest : List String} {part : String} {children : List (String × Entry)}
    (h : Leads root limit here (part :: rest) p) (hpart : IsStep part)
    (hget : root.get? (here ++ [part]) = some (.dir children)) :
    Leads root limit (here ++ [part]) rest p := by
  cases h with
  | dot => exact absurd rfl hpart.ne_dot
  | dots => exact absurd rfl hpart.ne_dots
  | enter _ _ h => exact h
  | absent _ h | file _ h | follow _ h => exact nomatch hget.symm.trans h

/-- The name of a link goes where the link leads. -/
theorem Leads.of_follow {rest : List String} {part target : String}
    (h : Leads root (limit + 1) here (part :: rest) p) (hpart : IsStep part)
    (hget : root.get? (here ++ [part]) = some (.link target)) :
    Leads root limit (if Path.isAbsolute target then [] else here) (steps target ++ rest) p := by
  cases h with
  -- Where there is a link, no other step is possible.
  | dot => exact absurd rfl hpart.ne_dot
  | dots => exact absurd rfl hpart.ne_dots
  | follow _ hlink h =>
    rw [hget] at hlink
    cases hlink
    exact h
  | absent _ h | file _ h | enter _ h => exact nomatch hget.symm.trans h

/-- A way through a directory goes on behind it. -/
theorem Leads.of_append {o rest : List String} {children : List (String × Entry)}
    (h : Leads root limit here parts (.found o)) (ho : root.get? o = some (.dir children))
    (hway : Leads root limit here (parts ++ rest) p) : ∃ limit, Leads root limit o rest p := by
  -- Both ways take the same steps as far as the directory.
  generalize hq : Place.found o = q at h
  induction h with
  | done =>
    cases hq
    exact ⟨_, hway⟩
  | dot _ ih => exact ih hway.of_dot hq
  | dots _ ih => exact ih hway.of_dots hq
  | absent => exact nomatch hq
  | file _ hget =>
    cases hq
    rw [hget] at ho
    exact nomatch ho
  | enter hpart hget _ ih => exact ih (hway.of_enter hpart hget) hq
  | follow hpart hget _ ih =>
    refine ih ?_ hq
    rw [List.append_assoc]
    exact hway.of_follow hpart hget

/-- Where no link is in the way, names lead to the place of these names. -/
theorem Leads.place_eq (h : Leads root limit here parts p)
    (hlinks : ∀ names t, root.get? (here ++ names) ≠ some (.link t))
    (hparts : ∀ part ∈ parts, part ≠ "." ∧ part ≠ "..") : p.place = here ++ parts := by
  induction h with
  | done => simp [Place.place]
  | dot => exact absurd rfl (hparts "." List.mem_cons_self).1
  | dots => exact absurd rfl (hparts ".." List.mem_cons_self).2
  | absent | file => rfl
  -- Below a directory without links the way goes straight down.
  | @enter _ here rest part _ _ _ _ _ ih =>
    have hplace := ih (fun names t => by simpa using hlinks (part :: names) t)
      fun next hnext => hparts next (List.mem_cons_of_mem part hnext)
    simpa using hplace
  | follow _ hget => exact absurd hget (hlinks _ _)

/-- Names lead to the entry at their place, if it is no link. -/
theorem leads_of_get? {e : Entry} (hget : root.get? (here ++ parts) = some e)
    (he : ∀ t, e ≠ .link t) (hparts : ∀ part ∈ parts, IsStep part) :
    Leads root limit here parts (.found (here ++ parts)) := by
  induction parts generalizing here with
  | nil =>
    rw [List.append_nil]
    exact .done
  | cons part rest ih =>
    have hpart := hparts part List.mem_cons_self
    have hway : here ++ part :: rest = here ++ [part] ++ rest := by simp
    rw [hway] at hget ⊢
    have hrest := ih hget fun next hnext => hparts next (List.mem_cons_of_mem part hnext)
    -- Every entry before the last one is a directory, as something is below it.
    by_cases hnil : rest = []
    · subst hnil
      rw [List.append_nil] at hget hrest ⊢
      cases e with
      | file content => exact .file hpart hget
      | dir children => exact .enter hpart hget hrest
      | link t => exact absurd rfl (he t)
    · obtain ⟨children, hdir⟩ := Entry.exists_dir_of_get?_append hnil hget
      exact .enter hpart hdir hrest

end

/-! ## Paths -/

/-- A file system whose working directory is there. -/
def Grounded (fs : FileSystem) : Prop :=
  ∃ children, fs.root.get? fs.workingDir = some (.dir children)

instance (fs : FileSystem) : Decidable fs.Grounded :=
  match h : fs.root.get? fs.workingDir with
  | some (.dir children) => isTrue ⟨children, h⟩
  | some (.file _) | some (.link _) | none => isFalse fun ⟨_, hdir⟩ => nomatch h.symm.trans hdir

/-- What a path leads to. -/
def LeadsTo (fs : FileSystem) (path : String) (p : Place) : Prop :=
  checkPath path = .ok () ∧ Leads fs.root linkLimit (fs.start path) (steps path) p

section

variable {fs fs' : FileSystem} {path : String}

/-- A path starts in a directory. -/
theorem Grounded.start (h : fs.Grounded) (path : String) :
    ∃ children, fs.root.get? (fs.start path) = some (.dir children) := by
  obtain ⟨children, h⟩ := h
  unfold FileSystem.start
  split
  · exact exists_dir_nil h
  · exact ⟨children, h⟩

/-- A trail goes down to a base that is there. -/
theorem isTrail_base {root : Entry} {base : List String} {children : List (String × Entry)}
    (h : root.get? base = some (.dir children)) :
    IsTrail root (Trail.descend root [] base) ∧
      Trail.place (Trail.descend root [] base) = base := by
  have hroot : IsTrail root [] := by
    obtain ⟨cs, hcs⟩ := exists_dir_nil h
    exact ⟨cs, by simpa using hcs⟩
  have hway : root.get? (Trail.place [] ++ base) = some (.dir children) := h
  obtain ⟨htrail, hplace⟩ := isTrail_descend hroot hway
  exact ⟨htrail, hplace⟩

/-- Following parts from a directory gives where they lead. -/
theorem follow_eq_ok_iff {base parts : List String} {p : Place}
    (hbase : ∃ children, fs.root.get? base = some (.dir children)) :
    fs.follow base parts = .ok p ↔ Leads fs.root linkLimit base parts p := by
  obtain ⟨children, hbase⟩ := hbase
  obtain ⟨htrail, hplace⟩ := isTrail_base hbase
  constructor
  · intro h
    exact hplace ▸ leads_of_resolveFrom htrail h
  · intro h
    exact h.resolveFrom htrail hplace

/-- A path resolves to what it leads to. -/
theorem resolve_eq_ok_iff (h : fs.Grounded) {p : Place} :
    fs.resolve path = .ok p ↔ fs.LeadsTo path p := by
  rw [LeadsTo, ← follow_eq_ok_iff (h.start path), resolve]
  cases checkPath path with
  | error e => simp [bind, Except.bind]
  | ok _ => simp [bind, Except.bind]

/-- The entry of a path is what is found where it leads. -/
theorem entryOf_eq_ok_iff (h : fs.Grounded) {e : Entry} :
    fs.entryOf path = .ok e ↔ ∃ q, fs.LeadsTo path (.found q) ∧ fs.root.get? q = some e := by
  simp only [← resolve_eq_ok_iff h]
  unfold entryOf placeOf
  -- Once the path is resolved, both sides look at the same place.
  cases fs.resolve path with
  | error e => simp [bind, Except.bind]
  | ok p =>
    cases p with
    | absent dir name => simp [bind, Except.bind, throw, throwThe, MonadExceptOf.throw]
    | found q =>
      cases hget : fs.root.get? q with
      | none => simp [bind, Except.bind, pure, Except.pure, hget, throw, throwThe,
          MonadExceptOf.throw]
      | some x => simp [bind, Except.bind, pure, Except.pure, hget]

/-- A path is read where it leads. -/
theorem readBytes_eq_ok_iff (h : fs.Grounded) {content : Bytes} :
    fs.readBytes path = .ok content ↔
      ∃ q, fs.LeadsTo path (.found q) ∧ fs.root.get? q = some (.file content) := by
  rw [← entryOf_eq_ok_iff h, readBytes]
  cases fs.entryOf path with
  | error e => simp [bind, Except.bind]
  | ok e =>
    cases e <;> simp [bind, Except.bind, pure, Except.pure, throw, throwThe, MonadExceptOf.throw]

/-- A path names a file if it can be read. -/
theorem exists_readBytes_of_isFile (h : fs.isFile path = true) :
    ∃ content, fs.readBytes path = .ok content := by
  unfold isFile at h
  unfold readBytes
  cases he : fs.entryOf path with
  | error e => simp [he] at h
  | ok e =>
    cases e with
    | file content => exact ⟨content, rfl⟩
    | dir _ | link _ => simp [he, Entry.isFile] at h

/-- What can be read is a file. -/
theorem isFile_of_readBytes {content : Bytes} (h : fs.readBytes path = .ok content) :
    fs.isFile path = true := by
  unfold readBytes at h
  unfold isFile
  cases he : fs.entryOf path with
  | error e => simp [he, bind, Except.bind] at h
  | ok e =>
    cases e with
    | file content => rfl
    | dir _ | link _ => simp [he, bind, Except.bind, throw, throwThe, MonadExceptOf.throw] at h

end

end FileSystem

end JavaOutline

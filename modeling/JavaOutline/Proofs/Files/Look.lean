import JavaOutline.Proofs.Files.Growth

/-!
# What file systems look like

Operations on files depend on what is at each place: a file with its content, a directory or a link,
but not on the order in which a directory lists its children.  File systems that look the same
behave the same.

## Key results

- `Entry.look_put_file`, `Entry.look_put_dir`: what a tree looks like with a new file or directory
- `Leads.congr`: ways depend on what the tree looks like
- `isFile_writeBytes`: which paths name a file once one is written
- `SameFiles.writeBytes`: writing depends on what the file system looks like
-/

namespace JavaOutline

namespace Entry

/-! ## Views of trees -/

/-- What an entry shows of itself: not what is below it. -/
inductive View where
  | file (content : Bytes)
  | dir
  | link (target : String)
deriving DecidableEq

/-- The view of an entry. -/
def view : Entry → View
  | file content => .file content
  | dir _ => .dir
  | link target => .link target

/-- What is seen at a place. -/
def look (root : Entry) (place : List String) : Option View :=
  (root.get? place).map view

section

variable {root root' : Entry} {place p q : List String} {name : String}

theorem look_eq_none_iff : root.look p = none ↔ root.get? p = none := by
  simp [look]

theorem look_eq_dir_iff : root.look p = some .dir ↔ ∃ cs, root.get? p = some (dir cs) := by
  unfold look
  cases root.get? p with
  | none => simp
  | some e => cases e <;> simp [view]

theorem look_eq_file_iff {content : Bytes} :
    root.look p = some (.file content) ↔ root.get? p = some (file content) := by
  unfold look
  cases root.get? p with
  | none => simp
  | some e => cases e <;> simp [view]

theorem look_eq_link_iff {target : String} :
    root.look p = some (.link target) ↔ root.get? p = some (link target) := by
  unfold look
  cases root.get? p with
  | none => simp
  | some e => cases e <;> simp [view]

/-- What has something below it is a directory. -/
theorem look_eq_dir_of_append (hq : q ≠ []) (h : root.look (p ++ q) ≠ none) :
    root.look p = some .dir := by
  rw [ne_eq, look_eq_none_iff] at h
  obtain ⟨e, he⟩ := Option.ne_none_iff_exists'.1 h
  exact look_eq_dir_iff.2 (exists_dir_of_get?_append hq he)

/-- What is seen elsewhere stays with a new entry in a directory that is there. -/
theorem look_put_elsewhere (new : Entry) (h : root.look place = some .dir)
    (hp : ¬ (place ++ [name]) <+: p) : (put new (place ++ [name]) root).look p = root.look p := by
  obtain ⟨cs, hdir⟩ := look_eq_dir_iff.1 h
  rcases get?_put_of_not_prefix new hdir hp with heq | ⟨⟨ds, hds⟩, ds', hds'⟩
  · rw [look, look, heq]
  · rw [look, look, hds, hds']
    rfl

/-- A tree with a new entry that has nothing below it, at a place where there was nothing below. -/
theorem look_put (new : Entry) (h : root.look place = some .dir)
    (hold : root.look (place ++ [name]) ≠ some .dir)
    (hnew : ∀ n rest, new.get? (n :: rest) = none) (p : List String) :
    (put new (place ++ [name]) root).look p =
      if p = place ++ [name] then some new.view else root.look p := by
  obtain ⟨cs, hdir⟩ := look_eq_dir_iff.1 h
  by_cases hprefix : (place ++ [name]) <+: p
  · obtain ⟨rest, rfl⟩ := hprefix
    cases rest with
    | nil =>
      rw [if_pos (List.append_nil _), look, get?_put new name hdir, get?_nil]
      rfl
    | cons n rest =>
      -- Below the new entry there is nothing, and there was nothing before.
      have hbefore : root.look (place ++ [name] ++ n :: rest) = none := by
        by_contra hsome
        exact hold (look_eq_dir_of_append (by simp) hsome)
      have hlonger : place ++ [name] ++ n :: rest ≠ place ++ [name] := by
        intro heq
        simpa using congrArg List.length heq
      rw [if_neg hlonger, hbefore, look, get?_put new name hdir, hnew]
      rfl
  · have hne : p ≠ place ++ [name] := by
      rintro rfl
      exact hprefix (List.prefix_refl _)
    rw [look_put_elsewhere new h hprefix, if_neg hne]

/-- A tree with a file that is new or written over. -/
theorem look_put_file (content : Bytes) (h : root.look place = some .dir)
    (hold : root.look (place ++ [name]) ≠ some .dir) (p : List String) :
    (put (file content) (place ++ [name]) root).look p =
      if p = place ++ [name] then some (.file content) else root.look p :=
  look_put (file content) h hold (fun _ _ => rfl) p

/-- A tree with a new directory. -/
theorem look_put_dir (h : root.look place = some .dir)
    (hold : root.look (place ++ [name]) = none) (p : List String) :
    (put (dir []) (place ++ [name]) root).look p =
      if p = place ++ [name] then some .dir else root.look p :=
  look_put (dir []) h (by simp [hold]) (fun _ _ => rfl) p

end

end Entry

namespace FileSystem

variable {fs fs' : FileSystem} {path : String}

/-! ## Same views -/

/-- Ways depend on what the tree looks like. -/
theorem Leads.congr {root root' : Entry} (hsame : ∀ p, root.look p = root'.look p) {limit : Nat}
    {here parts : List String} {p : Place} (h : Leads root limit here parts p) :
    Leads root' limit here parts p := by
  induction h with
  | done => exact .done
  | dot _ ih => exact .dot ih
  | dots _ ih => exact .dots ih
  -- Every step only looks at what a place shows, never at the order of children.
  | absent hpart hget =>
    rw [← Entry.look_eq_none_iff, hsame, Entry.look_eq_none_iff] at hget
    exact .absent hpart hget
  | file hpart hget =>
    rw [← Entry.look_eq_file_iff, hsame, Entry.look_eq_file_iff] at hget
    exact .file hpart hget
  | enter hpart hget _ ih =>
    have hdir := Entry.look_eq_dir_iff.2 ⟨_, hget⟩
    rw [hsame, Entry.look_eq_dir_iff] at hdir
    obtain ⟨cs, hdir⟩ := hdir
    exact .enter hpart hdir ih
  | follow hpart hget _ ih =>
    rw [← Entry.look_eq_link_iff, hsame, Entry.look_eq_link_iff] at hget
    exact .follow hpart hget ih

/-- Two file systems that look the same. -/
structure SameFiles (fs fs' : FileSystem) : Prop where
  look : ∀ p, fs.root.look p = fs'.root.look p
  workingDir : fs.workingDir = fs'.workingDir

namespace SameFiles

protected theorem refl (fs : FileSystem) : SameFiles fs fs :=
  ⟨fun _ => rfl, rfl⟩

protected theorem symm (h : SameFiles fs fs') : SameFiles fs' fs :=
  ⟨fun p => (h.look p).symm, h.workingDir.symm⟩

protected theorem trans {a b c : FileSystem} (hab : SameFiles a b) (hbc : SameFiles b c) :
    SameFiles a c :=
  ⟨fun p => (hab.look p).trans (hbc.look p), hab.workingDir.trans hbc.workingDir⟩

theorem grounded (h : SameFiles fs fs') (hfs : fs.Grounded) : fs'.Grounded := by
  rw [Grounded, ← Entry.look_eq_dir_iff] at hfs ⊢
  rwa [← h.look, ← h.workingDir]

theorem start_eq (h : SameFiles fs fs') (path : String) : fs.start path = fs'.start path := by
  rw [start, start, h.workingDir]

/-- A path leads to the same place. -/
theorem leadsTo (h : SameFiles fs fs') {p : Place} (hpath : fs.LeadsTo path p) :
    fs'.LeadsTo path p :=
  ⟨hpath.1, h.start_eq path ▸ hpath.2.congr h.look⟩

end SameFiles

/-- A path can be written if it leads to no directory. -/
theorem writeBytes_eq_ok_iff (hfs : fs.Grounded) {content : Bytes} :
    fs.writeBytes path content = .ok fs' ↔
      ∃ p, fs.LeadsTo path p ∧ fs.root.look p.place ≠ some .dir ∧
        fs.putAt p.place (.file content) = fs' := by
  simp only [← resolve_eq_ok_iff hfs]
  unfold writeBytes
  cases hp : fs.resolve path with
  | error e => simp [bind, Except.bind]
  | ok p =>
    have hend := ((resolve_eq_ok_iff hfs).1 hp).2.end_cases (hfs.start path)
    cases p with
    -- A name that is free shows nothing.
    | absent dir name =>
      have hnone : fs.root.get? (dir ++ [name]) = none := by
        rcases hend with ⟨_, _, heq, -, -⟩ | ⟨_, _, _, heq, -, hnone⟩
        · exact nomatch heq
        · cases heq
          exact hnone
      simp [bind, Except.bind, pure, Except.pure, Place.place, Entry.look, hnone]
    -- A directory refuses to be written over, a file does not.
    | found q =>
      cases hget : fs.root.get? q with
      | none => simp [bind, Except.bind, pure, Except.pure, Place.place, Entry.look, hget]
      | some e =>
        cases e <;> simp [bind, Except.bind, pure, Except.pure, throw, throwThe,
          MonadExceptOf.throw, Place.place, Entry.look, Entry.view, hget]

/-- What a written file changes. -/
theorem look_writeBytes (hfs : fs.Grounded) {p : Place} {content : Bytes}
    (hpath : fs.LeadsTo path p) (hold : fs.root.look p.place ≠ some .dir) (q : List String) :
    (fs.putAt p.place (.file content)).root.look q =
      if q = p.place then some (.file content) else fs.root.look q := by
  obtain ⟨dir, name, hplace, hdir⟩ :
      ∃ dir name, p.place = dir ++ [name] ∧ fs.root.look dir = some .dir := by
    rcases hpath.2.end_cases (hfs.start path) with ⟨place, e, rfl, he, hlink⟩ |
      ⟨dir, name, cs, rfl, hdir, -⟩
    · -- Only a directory is at the root.
      rcases List.eq_nil_or_concat place with rfl | ⟨dir, name, rfl⟩
      · obtain ⟨_, hworking⟩ := hfs
        exact absurd (Entry.look_eq_dir_iff.2 (exists_dir_nil hworking)) hold
      · rw [List.concat_eq_append] at he ⊢
        refine ⟨dir, name, rfl, Entry.look_eq_dir_of_append (List.cons_ne_nil name []) ?_⟩
        simp [Entry.look, he]
    · exact ⟨dir, name, rfl, Entry.look_eq_dir_iff.2 ⟨cs, hdir⟩⟩
  rw [hplace] at hold ⊢
  exact Entry.look_put_file content hdir hold q

/-- Ways that end at the same place end alike: either something is there or nothing is. -/
theorem Leads.eq_of_place_eq {root : Entry} {limit limit' : Nat} {here here' parts parts' : List String}
    {p p' : Place} (h : Leads root limit here parts p) (h' : Leads root limit' here' parts' p')
    (hhere : ∃ children, root.get? here = some (.dir children))
    (hhere' : ∃ children, root.get? here' = some (.dir children)) (heq : p.place = p'.place) :
    p = p' := by
  rcases h.end_cases hhere with ⟨q, e, rfl, he, -⟩ | ⟨dir, name, -, rfl, -, hnone⟩ <;>
    rcases h'.end_cases hhere' with ⟨q', e', rfl, he', -⟩ | ⟨dir', name', -, rfl, -, hnone'⟩ <;>
      simp only [Place.place] at heq
  -- Both are found, or both are absent with one directory and one name.
  · rw [heq]
  -- What is found at a place is not absent there.
  · rw [heq, hnone'] at he
    cases he
  · rw [← heq, hnone] at he'
    cases he'
  · obtain ⟨rfl, hname⟩ := List.append_inj' heq rfl
    cases hname
    rfl

/-- A way in a tree with a written file led to the same place before. -/
theorem Leads.of_written {root root' : Entry} {written q : List String} {content : Bytes}
    {limit : Nat} {here parts : List String} (h : Leads root' limit here parts (.found q))
    (hlook : ∀ p, root'.look p = if p = written then some (.file content) else root.look p)
    (hold : root.look written = none ∨ ∃ c, root.look written = some (.file c)) :
    ∃ p, p.place = q ∧ Leads root limit here parts p := by
  -- Directories and links on the way are not what was written, so they were there before.
  have hbefore : ∀ {p view}, root'.look p = some view → (∀ c, view ≠ .file c) →
      root.look p = some view := by
    intro p view hview hfile
    rw [hlook] at hview
    split at hview
    · exact absurd (Option.some.inj hview).symm (hfile content)
    · exact hview
  generalize hp : Place.found q = p at h
  induction h with
  | done => exact ⟨_, congrArg Place.place hp.symm, .done⟩
  | dot _ ih =>
    obtain ⟨p, hplace, hleads⟩ := ih hp
    exact ⟨p, hplace, .dot hleads⟩
  | dots _ ih =>
    obtain ⟨p, hplace, hleads⟩ := ih hp
    exact ⟨p, hplace, .dots hleads⟩
  | absent => exact nomatch hp
  | @file _ here part _ hpart hget =>
    cases hp
    rw [← Entry.look_eq_file_iff, hlook] at hget
    split at hget
    · -- The way ends at the written file, where there was nothing or a file.
      rename_i heq
      rw [← heq] at hold
      rcases hold with hnone | ⟨c, hfile⟩
      · exact ⟨.absent here part, rfl, .absent hpart (Entry.look_eq_none_iff.1 hnone)⟩
      · exact ⟨_, rfl, .file hpart (Entry.look_eq_file_iff.1 hfile)⟩
    · exact ⟨_, rfl, .file hpart (Entry.look_eq_file_iff.1 hget)⟩
  | enter hpart hget _ ih =>
    obtain ⟨p, hplace, hleads⟩ := ih hp
    have hdir := hbefore (Entry.look_eq_dir_iff.2 ⟨_, hget⟩) nofun
    obtain ⟨children, hdir⟩ := Entry.look_eq_dir_iff.1 hdir
    exact ⟨p, hplace, .enter hpart hdir hleads⟩
  | follow hpart hget _ ih =>
    obtain ⟨p, hplace, hleads⟩ := ih hp
    have hlink := hbefore (Entry.look_eq_link_iff.2 hget) nofun
    exact ⟨p, hplace, .follow hpart (Entry.look_eq_link_iff.1 hlink) hleads⟩

/-- Where a path leads there is nothing, a directory or a file. -/
theorem LeadsTo.look_cases (hfs : fs.Grounded) {p : Place} (h : fs.LeadsTo path p) :
    fs.root.look p.place = none ∨ p = .found p.place ∧
      (fs.root.look p.place = some .dir ∨ ∃ c, fs.root.look p.place = some (.file c)) := by
  rcases h.2.end_cases (hfs.start path) with ⟨place, e, rfl, he, hlink⟩ |
    ⟨dir, name, -, rfl, -, hnone⟩
  · right
    cases e with
    | file c => exact ⟨rfl, .inr ⟨c, Entry.look_eq_file_iff.2 he⟩⟩
    | dir cs => exact ⟨rfl, .inl (Entry.look_eq_dir_iff.2 ⟨cs, he⟩)⟩
    | link t => exact absurd rfl (hlink t)
  · exact .inl (Entry.look_eq_none_iff.2 hnone)

/-- What is a file once another one is written was a file before, unless the path leads to the
    written one. -/
theorem isFile_or_resolve_eq_of_writeBytes (hfs : fs.Grounded) {written : String} {content : Bytes}
    (h : fs.writeBytes written content = .ok fs') (hpath : fs'.isFile path = true) :
    fs.isFile path = true ∨ fs.resolve path = fs.resolve written := by
  obtain ⟨_, -, hgrew, -, -⟩ := grew_writeBytes hfs h
  obtain ⟨c, hread⟩ := exists_readBytes_of_isFile hpath
  obtain ⟨q, hleads, hget⟩ := (readBytes_eq_ok_iff (hgrew.grounded hfs)).1 hread
  obtain ⟨p, hwritten, hold, rfl⟩ := (writeBytes_eq_ok_iff hfs).1 h
  have hlook (q : List String) : (fs.putAt p.place (.file content)).root.look q =
      if q = p.place then some (.file content) else fs.root.look q :=
    look_writeBytes hfs hwritten hold q
  have hfree : fs.root.look p.place = none ∨ ∃ c, fs.root.look p.place = some (.file c) :=
    (hwritten.look_cases hfs).imp_right fun h => h.2.resolve_left hold
  obtain ⟨r, hr, hway⟩ := hleads.2.of_written hlook hfree
  have hbefore : fs.LeadsTo path r := ⟨hleads.1, hway⟩
  by_cases hq : q = p.place
  · -- Both paths end at the written file, and so they did before.
    right
    have heq : r = p :=
      hway.eq_of_place_eq hwritten.2 (hfs.start path) (hfs.start written) (hr.trans hq)
    rw [(resolve_eq_ok_iff hfs).2 hbefore, (resolve_eq_ok_iff hfs).2 hwritten, heq]
  · -- Elsewhere nothing has changed, so the file was there before.
    left
    have hfile : fs.root.look r.place = some (.file c) := by
      have hsame := hlook q
      rw [if_neg hq, Entry.look_eq_file_iff.2 hget] at hsame
      rw [hr, ← hsame]
    rcases hbefore.look_cases hfs with hnone | ⟨hfound, -⟩
    · exact nomatch hnone.symm.trans hfile
    · exact isFile_of_readBytes ((readBytes_eq_ok_iff hfs).2
        ⟨r.place, hfound ▸ hbefore, Entry.look_eq_file_iff.1 hfile⟩)

/-- Once a file is written, a path names a file if it did so before or if it leads to the written
    one. -/
theorem isFile_writeBytes (hfs : fs.Grounded) {written : String} {content : Bytes}
    (h : fs.writeBytes written content = .ok fs') :
    fs'.isFile path = true ↔ fs.isFile path = true ∨ fs.resolve path = fs.resolve written := by
  constructor
  · exact isFile_or_resolve_eq_of_writeBytes hfs h
  · obtain ⟨p, hwritten, hgrew, -, hfile⟩ := grew_writeBytes hfs h
    rintro (hpath | hpath)
    · exact hgrew.isFile hfs hpath
    · rw [(resolve_eq_ok_iff hfs).2 hwritten, resolve_eq_ok_iff hfs] at hpath
      -- The path led to the free name or the old file, so now it leads to the new file.
      have hleads : fs'.LeadsTo path (.found p.place) := by
        refine ⟨hpath.1, ?_⟩
        rw [hgrew.start_eq]
        refine hpath.2.grow hgrew.root fun dir name hp => ⟨content, ?_⟩
        rw [hp] at hfile
        exact hfile
      exact isFile_of_readBytes
        ((readBytes_eq_ok_iff (hgrew.grounded hfs)).2 ⟨p.place, hleads, hfile⟩)

/-- Writing depends on what the file system looks like. -/
theorem SameFiles.writeBytes {g : FileSystem} (h : SameFiles fs fs') (hfs : fs.Grounded)
    {content : Bytes} (hwrite : fs.writeBytes path content = .ok g) :
    ∃ g', fs'.writeBytes path content = .ok g' ∧ SameFiles g g' := by
  obtain ⟨p, hpath, hold, rfl⟩ := (writeBytes_eq_ok_iff hfs).1 hwrite
  have hold' : fs'.root.look p.place ≠ some .dir := h.look p.place ▸ hold
  refine ⟨_, (writeBytes_eq_ok_iff (h.grounded hfs)).2 ⟨p, h.leadsTo hpath, hold', rfl⟩, ?_⟩
  refine ⟨fun q => ?_, h.workingDir⟩
  rw [look_writeBytes hfs hpath hold, look_writeBytes (h.grounded hfs) (h.leadsTo hpath) hold',
    h.look q]

/-- What cannot succeed fails. -/
theorem exists_error_of_ne_ok {α : Type} {x : Except FileError α} (h : ∀ a, x ≠ .ok a) :
    ∃ e, x = .error e := by
  cases x with
  | error e => exact ⟨e, rfl⟩
  | ok a => exact absurd rfl (h a)

/-- The same for writing that fails. -/
theorem SameFiles.writeBytes_error {e : FileError} (h : SameFiles fs fs') (hfs : fs.Grounded)
    {content : Bytes} (hwrite : fs.writeBytes path content = .error e) :
    ∃ e', fs'.writeBytes path content = .error e' := by
  refine exists_error_of_ne_ok fun g' hwrite' => ?_
  obtain ⟨g, hg, -⟩ := h.symm.writeBytes (h.grounded hfs) hwrite'
  exact nomatch hwrite.symm.trans hg

end FileSystem

end JavaOutline

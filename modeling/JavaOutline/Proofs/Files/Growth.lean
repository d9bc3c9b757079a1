import JavaOutline.Proofs.Files.Resolve

/-!
# Growing file systems

Writing a file and making directories take nothing away: whatever was there stays, links lead where
they led, and of the files only the written one may change.

## Key results

- `Grew`: what a file system has in common with an earlier one
- `grew_writeBytes`: a written file is found where its path leads
- `grew_makeDirs`: making directories changes no file
-/

namespace JavaOutline.FileSystem

variable {fs fs' : FileSystem} {path : String}

/-- A file system that grew from another one: nothing is gone, and files are the same outside the
    places that are free to change. -/
structure Grew (free : List String → Prop) (fs fs' : FileSystem) : Prop where
  root : Entry.Keeps free fs.root fs'.root
  workingDir : fs'.workingDir = fs.workingDir

namespace Grew

variable {free free' : List String → Prop}

protected theorem refl (free : List String → Prop) (fs : FileSystem) : Grew free fs fs :=
  ⟨.refl free fs.root, rfl⟩

protected theorem trans {a b c : FileSystem} (hab : Grew free a b) (hbc : Grew free b c) :
    Grew free a c :=
  ⟨hab.root.trans hbc.root, hbc.workingDir.trans hab.workingDir⟩

theorem mono (h : Grew free fs fs') (hfree : ∀ p, free p → free' p) : Grew free' fs fs' :=
  ⟨h.root.mono hfree, h.workingDir⟩

theorem grounded (h : Grew free fs fs') (hfs : fs.Grounded) : fs'.Grounded := by
  obtain ⟨children, hdir⟩ := hfs
  rw [Grounded, h.workingDir]
  exact h.root.dirs hdir

theorem start_eq (h : Grew free fs fs') (path : String) : fs'.start path = fs.start path := by
  rw [start, start, h.workingDir]

/-- A path still leads to what it led to. -/
theorem leadsTo (h : Grew free fs fs') {q : List String} (hpath : fs.LeadsTo path (.found q)) :
    fs'.LeadsTo path (.found q) :=
  ⟨hpath.1, h.start_eq path ▸ hpath.2.keeps h.root⟩

/-- A file outside the free places still reads the same. -/
theorem readBytes (h : Grew free fs fs') (hfs : fs.Grounded) {q : List String} {content : Bytes}
    (hpath : fs.LeadsTo path (.found q)) (hfile : fs.root.get? q = some (.file content))
    (hq : ¬ free q) : fs'.readBytes path = .ok content :=
  (readBytes_eq_ok_iff (h.grounded hfs)).2
    ⟨q, h.leadsTo hpath, (h.root.fixed hq).2 hfile⟩

/-- What was a file stays one, whatever may be written into it. -/
theorem isFile (h : Grew free fs fs') (hfs : fs.Grounded) (hfile : fs.isFile path = true) :
    fs'.isFile path = true := by
  obtain ⟨content, hread⟩ := exists_readBytes_of_isFile hfile
  obtain ⟨q, hleads, hget⟩ := (readBytes_eq_ok_iff hfs).1 hread
  obtain ⟨content', hget'⟩ := h.root.files hget
  have hread' : fs'.readBytes path = .ok content' :=
    (readBytes_eq_ok_iff (h.grounded hfs)).2 ⟨q, h.leadsTo hleads, hget'⟩
  exact isFile_of_readBytes hread'

end Grew

/-- A written file is found where its path leads, and nothing else changes. -/
theorem grew_writeBytes (hfs : fs.Grounded) {content : Bytes}
    (h : fs.writeBytes path content = .ok fs') :
    ∃ p, fs.LeadsTo path p ∧ Grew (· = p.place) fs fs' ∧
      fs'.LeadsTo path (.found p.place) ∧ fs'.root.get? p.place = some (.file content) := by
  obtain ⟨p, hp⟩ : ∃ p, fs.resolve path = .ok p := by
    unfold writeBytes at h
    cases hp : fs.resolve path with
    | error e => simp [hp, bind, Except.bind] at h
    | ok p => exact ⟨p, rfl⟩
  have hleads := (resolve_eq_ok_iff hfs).1 hp
  -- Either way the file is put into a directory, under a name that only a file may have.
  obtain ⟨dir, name, children, hplace, hdir, hold, hput⟩ :
      ∃ dir name children, p.place = dir ++ [name] ∧ fs.root.get? dir = some (.dir children) ∧
        (∀ x, fs.root.get? (dir ++ [name]) = some x → ∃ c, x = .file c) ∧
        fs.putAt (dir ++ [name]) (.file content) = fs' := by
    unfold writeBytes at h
    rcases hleads.2.end_cases (hfs.start path) with ⟨q, e, rfl, he, hlink⟩ |
      ⟨dir, name, children, rfl, hdir, hnone⟩
    · simp only [hp, bind, Except.bind, he] at h
      cases e with
      | dir _ => cases h
      | link t => exact absurd rfl (hlink t)
      | file c =>
        obtain ⟨children, hdir⟩ := hfs
        rcases List.eq_nil_or_concat q with rfl | ⟨dir, name, rfl⟩
        · obtain ⟨cs, hroot⟩ := exists_dir_nil hdir
          cases he.symm.trans hroot
        · rw [List.concat_eq_append] at he h ⊢
          obtain ⟨cs, hcs⟩ := Entry.exists_dir_of_get?_append (by simp) he
          refine ⟨dir, name, cs, rfl, hcs, fun x hx => ⟨c, ?_⟩, Except.ok.inj h⟩
          exact Option.some.inj (hx.symm.trans he)
    · simp only [hp, bind, Except.bind, pure, Except.pure, Except.ok.injEq] at h
      refine ⟨dir, name, children, rfl, hdir, fun x hx => ?_, h⟩
      rw [hnone] at hx
      cases hx
  have hkeeps : Entry.Keeps (· = dir ++ [name]) fs.root fs'.root :=
    hput ▸ Entry.keeps_put_file hdir hold
  have hgrew : Grew (· = dir ++ [name]) fs fs' := ⟨hkeeps, hput ▸ rfl⟩
  have hfile : fs'.root.get? (dir ++ [name]) = some (.file content) := by
    rw [← hput]
    simpa [putAt] using Entry.get?_put (.file content) name hdir []
  -- The path leads to the new file, also where nothing was before.
  refine ⟨p, hleads, hplace ▸ hgrew, ⟨hleads.1, ?_⟩, hplace ▸ hfile⟩
  rw [hgrew.start_eq]
  refine hleads.2.grow hkeeps ?_
  intro d n hp
  rw [hp] at hplace
  exact ⟨content, (congrArg fs'.root.get? hplace).trans hfile⟩

/-- A made directory changes no file. -/
theorem grew_makeDir {base parts : List String}
    (hbase : ∃ children, fs.root.get? base = some (.dir children))
    (h : fs.makeDir base parts = .ok fs') : Grew (fun _ => False) fs fs' := by
  unfold makeDir at h
  cases hlast : parts.getLast? with
  | none => simp [hlast] at h
  | some name =>
    simp only [hlast] at h
    cases hway : fs.follow base (parts.dropLast ++ ["."]) with
    | error e => simp [hway, bind, Except.bind] at h
    | ok p =>
      cases p with
      | absent dir n =>
        simp [hway, bind, Except.bind, throw, throwThe, MonadExceptOf.throw] at h
      | found dir =>
        simp only [hway, bind, Except.bind] at h
        split at h
        · exact nomatch h
        split at h
        · exact nomatch h
        split at h
        · exact nomatch h
        rename_i hnone
        cases h
        -- The dot at the end makes sure that the new directory gets into a directory.
        have hleads := (follow_eq_ok_iff hbase).1 hway
        obtain ⟨children, hdir⟩ := hleads.exists_dir_of_dot hbase (by simp)
        exact ⟨Entry.keeps_put_dir _ hdir hnone, rfl⟩

theorem grew_ensureDir {base parts : List String}
    (hbase : ∃ children, fs.root.get? base = some (.dir children))
    (h : fs.ensureDir base parts = .ok fs') : Grew (fun _ => False) fs fs' := by
  unfold ensureDir at h
  split at h
  -- The directory was made, or it was there and nothing happens.
  · rename_i made hmade
    cases h
    exact grew_makeDir hbase hmade
  · split at h
    · cases h
      exact .refl _ fs
    · exact nomatch h

theorem grew_makeDirsFrom {base reversed : List String}
    (hbase : ∃ children, fs.root.get? base = some (.dir children))
    (h : makeDirsFrom fs base reversed = .ok fs') : Grew (fun _ => False) fs fs' := by
  -- By induction on the names, the last of which is made after the others.
  induction reversed generalizing fs' with
  | nil =>
    rw [makeDirsFrom] at h
    cases h
    exact .refl _ fs
  | cons name reversed ih =>
    rw [makeDirsFrom] at h
    split at h
    · rename_i made hmade
      cases h
      exact grew_makeDir hbase hmade
    · cases hfrom : makeDirsFrom fs base reversed with
      | error e => simp [hfrom, bind, Except.bind] at h
      | ok mid =>
        simp only [hfrom, bind, Except.bind] at h
        have hmid := ih hfrom
        obtain ⟨children, hdir⟩ := hbase
        exact hmid.trans (grew_ensureDir (hmid.root.dirs hdir) h)
    · split at h
      · cases h
        exact .refl _ fs
      · exact nomatch h

/-- Making directories changes no file. -/
theorem grew_makeDirs (hfs : fs.Grounded) (h : fs.makeDirs path = .ok fs') :
    Grew (fun _ => False) fs fs' := by
  have hbase := hfs.start path
  unfold makeDirs at h
  split at h
  · cases h
    exact .refl _ fs
  cases hcheck : checkPath path with
  | error e => simp [hcheck, bind, Except.bind] at h
  | ok _ =>
    simp only [hcheck, bind, Except.bind] at h
    split at h
    -- The directory itself can be made.
    · rename_i made hmade
      cases h
      exact grew_makeDir hbase hmade
    -- Those that lead to it are made first.
    · cases hfrom : makeDirsFrom fs (fs.start path) (leadingNames path) with
      | error e => simp [hfrom] at h
      | ok mid =>
        simp only [hfrom] at h
        have hmid := grew_makeDirsFrom hbase hfrom
        obtain ⟨children, hdir⟩ := hbase
        exact hmid.trans (grew_ensureDir (hmid.root.dirs hdir) h)
    -- It is there already.
    · split at h
      · cases h
        exact .refl _ fs
      · exact nomatch h

end JavaOutline.FileSystem

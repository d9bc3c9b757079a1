import JavaOutline.Proofs.Command.Batch
import JavaOutline.Proofs.Files.MakeDirs

/-!
# Two sources in either order

What becomes of a source depends on its own content, on what is at the place of its output and on
whether anything is in the way there.  A source makes the directories that lead to its output and
writes this output.  None of this concerns another source, unless one output is on the way to the
other, so that two sources can be dealt with in either order.

## Key results

- `Adds`: what a source changes
- `Batch.process_congr`: what becomes of a source depends on what concerns it only
- `Batch.process_swap`: two sources in either order
-/

namespace JavaOutline.Command

open FileSystem (Grew SameFiles LeadsAlong CanLookUp CanLead MadeDirs placesTo mem_placesTo
  exists_error_of_ne_ok)

/-! ## What a source adds -/

/-- The directories on the way to an output, from the output directory on. -/
def outputDirs (o : List String) (rel : String) : List (List String) :=
  placesTo o (Path.parts (outputOf rel)).dropLast

/-- Files as a source leaves them: what is new are directories on the way to its output, where
    nothing else was, and its output, which is a file. -/
structure Adds (o : List String) (rel : String) (new : List String → Option Entry.View)
    (fs done : FileSystem) : Prop where
  workingDir : done.workingDir = fs.workingDir
  look : ∀ p, done.root.look p = (new p).or (fs.root.look p)
  dirs : ∀ p, new p = some .dir →
    p ∈ outputDirs o rel ∧ (fs.root.look p = none ∨ fs.root.look p = some .dir)
  files : ∀ p content, new p = some (.file content) →
    p = outputPlace o rel ∧ fs.root.look p ≠ some .dir ∧ ∀ t, fs.root.look p ≠ some (.link t)
  noLinks : ∀ p target, new p ≠ some (.link target)

namespace Adds

variable {o : List String} {rel : String} {new : List String → Option Entry.View}
  {fs done : FileSystem}

/-- Nothing is new. -/
protected theorem refl (o : List String) (rel : String) (fs : FileSystem) :
    Adds o rel (fun _ => none) fs fs where
  workingDir := rfl
  look _ := rfl
  dirs _ := nofun
  files _ _ := nofun
  noLinks _ _ := nofun

/-- Elsewhere nothing changes. -/
theorem look_eq (h : Adds o rel new fs done) {p : List String} (hdirs : p ∉ outputDirs o rel)
    (hplace : p ≠ outputPlace o rel) : done.root.look p = fs.root.look p := by
  rw [h.look]
  cases hnew : new p with
  | none => rfl
  | some v =>
    cases v with
    | dir => exact absurd (h.dirs p hnew).1 hdirs
    | file content => exact absurd (h.files p content hnew).1 hplace
    | link target => exact absurd hnew (h.noLinks p target)

/-- At each place there is what was there before, or something new that may stand there. -/
theorem look_cases (h : Adds o rel new fs done) (p : List String) :
    done.root.look p = fs.root.look p ∨
      done.root.look p = some .dir ∧ (fs.root.look p = none ∨ fs.root.look p = some .dir) ∨
      (∃ content, done.root.look p = some (.file content)) ∧ p = outputPlace o rel ∧
        fs.root.look p ≠ some .dir ∧ ∀ t, fs.root.look p ≠ some (.link t) := by
  rw [h.look]
  cases hnew : new p with
  | none => exact .inl rfl
  | some v =>
    cases v with
    | dir => exact .inr (.inl ⟨rfl, (h.dirs p hnew).2⟩)
    -- A file is new only at the place of the output.
    | file content => exact .inr (.inr ⟨⟨content, rfl⟩, h.files p content hnew⟩)
    | link target => exact absurd hnew (h.noLinks p target)

/-- The files only grew. -/
theorem grew (h : Adds o rel new fs done) : Grew (· = outputPlace o rel) fs done where
  workingDir := h.workingDir
  root := by
    constructor
    case dirs =>
      intro p cs hget
      have hdir := Entry.look_eq_dir_iff.2 ⟨cs, hget⟩
      refine Entry.look_eq_dir_iff.1 ?_
      rcases h.look_cases p with heq | ⟨hnew, -⟩ | ⟨-, -, hne, -⟩
      · exact heq.trans hdir
      · exact hnew
      -- The output is put at no place where there is a directory.
      · exact absurd hdir hne
    case files =>
      intro p c hget
      have hfile := Entry.look_eq_file_iff.2 hget
      simp only [← Entry.look_eq_file_iff]
      rcases h.look_cases p with heq | ⟨-, hnone | hdir⟩ | ⟨hnew, -⟩
      · exact ⟨c, heq.trans hfile⟩
      -- A directory is new only where there was nothing or a directory.
      · exact nomatch hfile.symm.trans hnone
      · exact nomatch hfile.symm.trans hdir
      · exact hnew
    case links =>
      intro p t
      simp only [← Entry.look_eq_link_iff]
      -- A link is neither put nor written over.
      rcases h.look_cases p with heq | ⟨hnew, hnone | hdir⟩ | ⟨⟨c, hnew⟩, -, -, hne⟩
      · rw [heq]
      · simp [hnew, hnone]
      · simp [hnew, hdir]
      · simp [hnew, hne t]
    case fixed =>
      intro p c hp
      simp only [← Entry.look_eq_file_iff]
      rcases h.look_cases p with heq | ⟨hnew, hnone | hdir⟩ | ⟨-, hplace, -⟩
      · rw [heq]
      · simp [hnew, hnone]
      · simp [hnew, hdir]
      -- Only the place of the output is free to change.
      · exact absurd hplace hp

end Adds

/-! ## What concerns a source -/

/-- A source waiting to be dealt with: an absolute path along names, with no link on the way, and an
    ordinary relative path.  Its file may be gone or unreadable. -/
structure Queued (fs : FileSystem) (s : SourceFile) : Prop where
  java : Path.isJava s.path = true
  rel : Path.IsRelative s.rel
  path_eq : s.path = FileSystem.pathOf (Path.parts s.path)
  names : ∀ n ∈ Path.parts s.path, Path.IsName n
  noLinks : ∀ upper, upper <+: Path.parts s.path → ∀ t, fs.root.get? upper ≠ some (.link t)

/-- Files that are alike in all that concerns a source: its content, its output and whether
    anything is in the way of its output. -/
structure Alike (o : List String) (s : SourceFile) (fs fs' : FileSystem) : Prop where
  content : ∀ c, fs.root.look (Path.parts s.path) = some (.file c) ↔
    fs'.root.look (Path.parts s.path) = some (.file c)
  output : fs.root.look (outputPlace o s.rel) = fs'.root.look (outputPlace o s.rel)
  dirs : ∀ p ∈ outputDirs o s.rel,
    (fs.root.look p = none ∨ fs.root.look p = some .dir) ↔
      (fs'.root.look p = none ∨ fs'.root.look p = some .dir)

/-- A result but for what was logged. -/
def FileResult.unlogged (result : FileResult) : FileResult :=
  { result with events := [] }

section

variable {fs fs' : FileSystem} {s : SourceFile} {o : List String} {out rel : String}
  {content : Bytes}

theorem Queued.grew {free : List String → Prop} (h : Queued fs s) (hgrew : Grew free fs fs') :
    Queued fs' s :=
  { h with noLinks := fun upper hupper t ht => h.noLinks upper hupper t (hgrew.root.links.1 ht) }

/-- A Java file that is there can wait to be dealt with. -/
theorem queued_pathOf {place : List String} (hget : fs.root.get? place = some (.file content))
    (hnames : ∀ n ∈ place, Path.IsName n) (hrel : Path.IsRelative rel)
    (hjava : Path.isJava (FileSystem.pathOf place) = true) :
    Queued fs ⟨rel, FileSystem.pathOf place⟩ := by
  have hparts := FileSystem.parts_pathOf hnames
  refine ⟨hjava, hrel, by rw [hparts], by rwa [hparts], fun upper hupper t hlink => ?_⟩
  rw [hparts] at hupper
  obtain ⟨more, rfl⟩ := hupper
  -- A link has nothing below it.
  by_cases hnil : more = []
  · rw [hnil, List.append_nil, hlink] at hget
    exact nomatch hget
  · obtain ⟨children, hdir⟩ := Entry.exists_dir_of_get?_append hnil hget
    exact nomatch hdir.symm.trans hlink

/-- The path of a source ends in a name. -/
theorem Queued.exists_parts (h : Queued fs s) :
    ∃ names name, Path.parts s.path = names ++ [name] := by
  have hne : Path.parts s.path ≠ [] := by
    intro hnil
    have hpath := h.path_eq
    rw [hnil] at hpath
    have hjava := h.java
    rw [hpath] at hjava
    exact absurd hjava (by decide)
  obtain ⟨names, name, hparts⟩ := (List.eq_nil_or_concat _).resolve_left hne
  exact ⟨names, name, hparts.trans (List.concat_eq_append)⟩

/-- The path of a source leads along its names. -/
theorem Queued.leadsAlong (h : Queued fs s) (hfs : fs.Grounded) {names : List String}
    {name : String} (hparts : Path.parts s.path = names ++ [name]) :
    LeadsAlong fs s.path [] names name := by
  rw [h.path_eq, hparts]
  exact FileSystem.leadsAlong_pathOf hfs (hparts ▸ h.names) (hparts ▸ h.noLinks)

/-- Whether a source can be read depends on what concerns it only. -/
theorem readBytes_congr (hfs : fs.Grounded) (hfs' : fs'.Grounded) (hs : Queued fs s)
    (hs' : Queued fs' s) (h : Alike o s fs fs') :
    fs.readBytes s.path = .ok content ↔ fs'.readBytes s.path = .ok content := by
  obtain ⟨names, name, hparts⟩ := hs.exists_parts
  have hcontent := h.content content
  rw [hparts] at hcontent
  rw [(hs.leadsAlong hfs hparts).readBytes_eq_ok_iff hfs,
    (hs'.leadsAlong hfs' hparts).readBytes_eq_ok_iff hfs', List.nil_append, hcontent]

/-! ## Outputs -/

theorem OutputDir.opens (h : OutputDir fs out o) :
    FileSystem.Opens fs (fs.start out) (Path.parts out) o where
  start := h.grounded.start out
  leads := h.leads
  dir := h.dir
  noLinks := h.noLinks

/-- The path of an output leads along its names from the output directory on. -/
theorem OutputDir.leadsAlong (h : OutputDir fs out o) (hrel : Path.IsRelative rel)
    {names : List String} {name : String} (hparts : Path.parts (outputOf rel) = names ++ [name]) :
    LeadsAlong fs (Path.join out (outputOf rel)) o names name :=
  h.opens.leadsAlong (isRelative_outputOf hrel) hparts

/-- An output has a name. -/
theorem exists_parts_eq_concat (hrel : Path.IsRelative rel) :
    ∃ names name, Path.parts (outputOf rel) = names ++ [name] := by
  obtain ⟨names, name, houtput, hnames⟩ := exists_parts_outputOf hrel
  exact ⟨names, name ++ ".ast", by rw [houtput, Path.parts_intercalate hnames]⟩

/-- An output is not on the way to itself. -/
theorem outputPlace_not_mem_outputDirs (hrel : Path.IsRelative rel) :
    outputPlace o rel ∉ outputDirs o rel := by
  obtain ⟨names, name, hparts⟩ := exists_parts_eq_concat hrel
  rw [outputPlace, outputDirs, hparts, List.dropLast_concat, mem_placesTo]
  rintro ⟨upper, hupper, heq⟩
  have hlength := hupper.length_le
  rw [List.append_cancel_left heq, List.length_append, List.length_singleton] at hlength
  omega

/-- Whether an output is there depends on what concerns its source only. -/
theorem isFile_congr (hout : OutputDir fs out o) (hout' : OutputDir fs' out o)
    (hrel : Path.IsRelative s.rel) (h : Alike o s fs fs') :
    fs.isFile (Path.join out (outputOf s.rel)) = fs'.isFile (Path.join out (outputOf s.rel)) := by
  obtain ⟨names, name, hparts⟩ := exists_parts_eq_concat hrel
  have houtput := h.output
  rw [outputPlace, hparts, ← List.append_assoc] at houtput
  rw [Bool.eq_iff_iff]
  -- Either is the case if the output can be read, and both are read in the same way.
  have hread (c : Bytes) : fs.readBytes (Path.join out (outputOf s.rel)) = .ok c ↔
      fs'.readBytes (Path.join out (outputOf s.rel)) = .ok c := by
    rw [(hout.leadsAlong hrel hparts).readBytes_eq_ok_iff hout.grounded,
      (hout'.leadsAlong hrel hparts).readBytes_eq_ok_iff hout'.grounded, houtput]
  constructor
  · intro hfile
    obtain ⟨c, hc⟩ := FileSystem.exists_readBytes_of_isFile hfile
    exact FileSystem.isFile_of_readBytes ((hread c).1 hc)
  · intro hfile
    obtain ⟨c, hc⟩ := FileSystem.exists_readBytes_of_isFile hfile
    exact FileSystem.isFile_of_readBytes ((hread c).2 hc)

/-- Whether a source is unchanged depends on what concerns it only. -/
theorem fresh?_congr {previous : Manifest} (hout : OutputDir fs out o)
    (hout' : OutputDir fs' out o) (hrel : Path.IsRelative s.rel) (h : Alike o s fs fs')
    (hprevious : ∀ rel e, previous.files.get? rel = some e → e.output = outputOf rel)
    (hash : String) : previous.fresh? fs out s.rel hash = previous.fresh? fs' out s.rel hash := by
  unfold Manifest.fresh?
  cases hget : previous.files.get? s.rel with
  | none => rw [Option.filter_none, Option.filter_none]
  | some e =>
    simp only [Option.filter_some, hprevious s.rel e hget, isFile_congr hout hout' hrel h]

/-! ## Writing an output -/

/-- The directories on the way to an output, as something new. -/
def newDirs (o : List String) (rel : String) (p : List String) : Option Entry.View :=
  if p ∈ outputDirs o rel then some .dir else none

/-- An output and the directories on the way to it, as something new. -/
def newOutput (o : List String) (rel : String) (bytes : Bytes) (p : List String) :
    Option Entry.View :=
  if p = outputPlace o rel then some (.file bytes) else newDirs o rel p

/-- An output can be written once the directories on the way to it are there. -/
def CanWrite (fs : FileSystem) (out : String) (o : List String) (rel : String) : Prop :=
  CanLookUp (Path.join out (outputOf rel)) (Path.parts (outputOf rel)) ∧
    fs.root.look (outputPlace o rel) ≠ some .dir

theorem canLead_congr (h : Alike o s fs fs') :
    CanLead fs out o (outputOf s.rel) ↔ CanLead fs' out o (outputOf s.rel) := by
  -- Whether the way to the output is free is told by the directories on it.
  have hfree : FileSystem.IsFree fs.root o (Path.parts (outputOf s.rel)).dropLast ↔
      FileSystem.IsFree fs'.root o (Path.parts (outputOf s.rel)).dropLast := by
    constructor
    · intro hfree
      exact ⟨hfree.steps, fun upper hupper =>
        (h.dirs _ (mem_placesTo.2 ⟨upper, hupper, rfl⟩)).1 (hfree.free upper hupper)⟩
    · intro hfree
      exact ⟨hfree.steps, fun upper hupper =>
        (h.dirs _ (mem_placesTo.2 ⟨upper, hupper, rfl⟩)).2 (hfree.free upper hupper)⟩
  rw [CanLead, CanLead, hfree]

theorem canWrite_congr (h : Alike o s fs fs') :
    CanWrite fs out o s.rel ↔ CanWrite fs' out o s.rel := by
  rw [CanWrite, CanWrite, h.output]

/-- Directories on the way to an output are new where nothing is in the way. -/
theorem adds_newDirs {made : FileSystem} (hcan : CanLead fs out o (outputOf rel))
    (h : MadeDirs fs made o (Path.parts (outputOf rel)).dropLast) :
    Adds o rel (newDirs o rel) fs made where
  workingDir := h.workingDir
  look p := by
    rw [h.look, newDirs, outputDirs]
    split <;> rfl
  -- Directories are made on the way to the output only, and this way is free.
  dirs p hp := by
    unfold newDirs at hp
    split at hp
    · rename_i hmem
      obtain ⟨upper, hupper, rfl⟩ := mem_placesTo.1 hmem
      exact ⟨hmem, hcan.2.free upper hupper⟩
    · exact nomatch hp
  files p content hp := by
    unfold newDirs at hp
    split at hp <;> exact nomatch hp
  noLinks p target hp := by
    unfold newDirs at hp
    split at hp <;> exact nomatch hp

/-- An output is new where no directory is. -/
theorem adds_newOutput {made : FileSystem} {names : List String} {name : String}
    (h : Adds o rel (newDirs o rel) fs made) (bytes : Bytes)
    (hplace : outputPlace o rel = o ++ names ++ [name])
    (hdir : made.root.look (o ++ names) = some .dir)
    (hmade : made.root.look (outputPlace o rel) = fs.root.look (outputPlace o rel))
    (hold : fs.root.look (outputPlace o rel) ≠ some .dir)
    (hlink : ∀ t, fs.root.look (outputPlace o rel) ≠ some (.link t)) :
    Adds o rel (newOutput o rel bytes) fs (made.putAt (outputPlace o rel) (.file bytes)) where
  workingDir := by simp only [FileSystem.putAt, h.workingDir]
  -- The output is put into a directory that is there by now.
  look p := by
    rw [← hmade, hplace] at hold
    rw [FileSystem.putAt, hplace, Entry.look_put_file bytes hdir hold, ← hplace, newOutput, h.look]
    split <;> rfl
  -- Away from the output the change is that of making the directories.
  dirs p hp := by
    unfold newOutput at hp
    split at hp
    · cases hp
    · exact h.dirs p hp
  files p content hp := by
    unfold newOutput at hp
    split at hp
    · rename_i heq
      rw [heq]
      exact ⟨rfl, hold, hlink⟩
    · exact h.files p content hp
  noLinks p target hp := by
    unfold newOutput at hp
    split at hp
    · cases hp
    · exact h.noLinks p target hp

/-! ## Two sources -/

/-- Neither of two outputs is on the way to the other one. -/
structure Apart (s t : SourceFile) : Prop where
  left : ¬ Path.parts (outputOf s.rel) <+: Path.parts (outputOf t.rel)
  right : ¬ Path.parts (outputOf t.rel) <+: Path.parts (outputOf s.rel)

theorem Apart.symm {t : SourceFile} (h : Apart s t) : Apart t s :=
  ⟨h.right, h.left⟩

/-- Another output is not on the way. -/
theorem Apart.not_mem_outputDirs {t : SourceFile} (h : Apart s t) :
    outputPlace o s.rel ∉ outputDirs o t.rel := by
  rw [outputDirs, mem_placesTo]
  rintro ⟨upper, hupper, heq⟩
  rw [List.append_cancel_left heq] at hupper
  exact h.left (hupper.trans (List.dropLast_prefix _))

theorem Apart.outputPlace_ne {t : SourceFile} (h : Apart s t) :
    outputPlace o s.rel ≠ outputPlace o t.rel := by
  intro heq
  have hparts := List.append_cancel_left heq
  exact h.left (hparts ▸ List.prefix_refl _)

protected theorem Alike.refl (o : List String) (s : SourceFile) (fs : FileSystem) : Alike o s fs fs :=
  ⟨fun _ => .rfl, rfl, fun _ _ => .rfl⟩

/-- What another source adds does not concern a source. -/
theorem alike_of_adds {t : SourceFile} {new : List String → Option Entry.View}
    {done : FileSystem} (h : Adds o t.rel new fs done) (hs : Queued fs s)
    (ht : Path.IsRelative t.rel) (hapart : Apart s t) : Alike o s fs done where
  content c := by
    -- The other source writes outputs, and none of them is a Java source.
    have hne := ne_outputPlace_of_isJava hs.java o ht
    rw [Entry.look_eq_file_iff, Entry.look_eq_file_iff]
    exact (h.grew.root.fixed hne).symm
  output := (h.look_eq hapart.not_mem_outputDirs hapart.outputPlace_ne).symm
  dirs p hp := by
    rw [h.look]
    cases hnew : new p with
    | none => rfl
    | some v =>
      cases v with
      | dir => simp [(h.dirs p hnew).2]
      -- Its output is no directory on the way to this one.
      | file content =>
        rw [(h.files p content hnew).1] at hp
        exact absurd hp hapart.symm.not_mem_outputDirs
      | link target => exact absurd hnew (h.noLinks p target)

/-- What two sources both add at one place is a directory. -/
theorem eq_of_adds {t : SourceFile} {new new' : List String → Option Entry.View}
    {done done' : FileSystem} (h : Adds o s.rel new fs done) (h' : Adds o t.rel new' fs' done')
    (hapart : Apart s t) {p : List String} {v v' : Entry.View} (hnew : new p = some v)
    (hnew' : new' p = some v') : v = v' := by
  cases v with
  | link target => exact absurd hnew (h.noLinks p target)
  | dir =>
    cases v' with
    | link target => exact absurd hnew' (h'.noLinks p target)
    | dir => rfl
    | file content =>
      -- The output of one source is not on the way to the output of the other one.
      have hmem := (h.dirs p hnew).1
      rw [(h'.files p content hnew').1] at hmem
      exact absurd hmem hapart.symm.not_mem_outputDirs
  | file content =>
    have hplace := (h.files p content hnew).1
    cases v' with
    | link target => exact absurd hnew' (h'.noLinks p target)
    | dir =>
      have hmem := (h'.dirs p hnew').1
      rw [hplace] at hmem
      exact absurd hmem hapart.not_mem_outputDirs
    | file content' =>
      have hplace' := (h'.files p content' hnew').1
      exact absurd (hplace.symm.trans hplace') hapart.outputPlace_ne

namespace Batch

variable {b : Batch} {bytes : Bytes} {hash : String} {result result' : FileResult}

/-- A result whose output could not be written. -/
def unwritten (result : FileResult) : FileResult :=
  { result with
    metrics := { result.metrics with ioErrors := result.metrics.ioErrors + 1 }
    failed := true }

/-- What comes of writing an output. -/
inductive Writing (b : Batch) (o : List String) (fs : FileSystem) (s : SourceFile) (hash : String)
    (bytes : Bytes) (result : FileResult) (done : FileSystem × FileResult) : Prop where
  /-- Something is in the way of the directories. -/
  | blocked (hlead : ¬ CanLead fs b.outDir o (outputOf s.rel))
    (hadds : Adds o s.rel (fun _ => none) fs done.1)
    (hresult : done.2.unlogged = unwritten result.unlogged)
  /-- The directories are there, but the output cannot be written. -/
  | refused (hlead : CanLead fs b.outDir o (outputOf s.rel))
    (hwrite : ¬ CanWrite fs b.outDir o s.rel) (hadds : Adds o s.rel (newDirs o s.rel) fs done.1)
    (hresult : done.2.unlogged = unwritten result.unlogged)
  | written (hlead : CanLead fs b.outDir o (outputOf s.rel))
    (hwrite : CanWrite fs b.outDir o s.rel)
    (hadds : Adds o s.rel (newOutput o s.rel bytes) fs done.1)
    (hresult : done.2.unlogged =
      { result.unlogged with recorded := some ⟨hash, outputOf s.rel⟩ })

/-- An output is written if its directories can be made and nothing is at its place. -/
theorem writing_write (hout : OutputDir fs b.outDir o) (hrel : Path.IsRelative s.rel) :
    Writing b o fs s hash bytes result (b.write fs s hash bytes result) := by
  have hrelative := isRelative_outputOf hrel
  by_cases hlead : CanLead fs b.outDir o (outputOf s.rel)
  · obtain ⟨made, hmake, hmade⟩ := hout.opens.makeLeading hrelative hlead
    have hadds := adds_newDirs hlead hmade
    have houtMade := hout.grew hadds.grew
    obtain ⟨names, name, hparts⟩ := exists_parts_eq_concat hrel
    have hplace : outputPlace o s.rel = o ++ names ++ [name] := by
      rw [outputPlace, hparts, List.append_assoc]
    -- The directories do not change what is at the place of the output.
    have hsame : made.root.look (outputPlace o s.rel) = fs.root.look (outputPlace o s.rel) := by
      have hnone : newDirs o s.rel (outputPlace o s.rel) = none :=
        if_neg (outputPlace_not_mem_outputDirs hrel)
      rw [hadds.look, hnone, Option.none_or]
    have hdir : made.root.look (o ++ names) = some .dir := by
      rw [hmade.look, if_pos]
      rw [hparts, List.dropLast_concat, mem_placesTo]
      exact ⟨names, List.prefix_refl names, rfl⟩
    have hiff (done : FileSystem) := @LeadsAlong.writeBytes_eq_ok_iff made done _ name o names bytes
      (houtMade.leadsAlong hrel hparts) houtMade.grounded hdir
    rw [← hplace, hsame, ← hparts] at hiff
    by_cases hwrite : CanWrite fs b.outDir o s.rel
    · have hwritten := (hiff _).2 ⟨hwrite, rfl⟩
      refine .written hlead hwrite ?_ ?_
      · unfold write
        simp only [hmake, hwritten]
        refine adds_newOutput hadds bytes hplace hdir hsame hwrite.2 fun t hlink => ?_
        exact hout.noLinks _ t (Entry.look_eq_link_iff.1 hlink)
      · unfold write
        simp only [hmake, hwritten]
        rfl
    · obtain ⟨e, he⟩ := exists_error_of_ne_ok fun done hwritten =>
        absurd ((hiff done).1 hwritten).1 hwrite
      unfold write
      simp only [hmake, he]
      exact .refused hlead hwrite hadds rfl
  · obtain ⟨e, he⟩ := exists_error_of_ne_ok fun made hmake =>
      absurd (hout.opens.canLead hout.grounded hrelative hmake) hlead
    unfold write
    simp only [he]
    exact .blocked hlead (.refl o s.rel fs) rfl

/-- Writing an output depends on what concerns its source only. -/
theorem write_congr (hout : OutputDir fs b.outDir o) (hout' : OutputDir fs' b.outDir o)
    (hrel : Path.IsRelative s.rel) (h : Alike o s fs fs')
    (hresult : result.unlogged = result'.unlogged) :
    ∃ new, Adds o s.rel new fs (b.write fs s hash bytes result).1 ∧
      Adds o s.rel new fs' (b.write fs' s hash bytes result').1 ∧
      (b.write fs s hash bytes result).2.unlogged =
        (b.write fs' s hash bytes result').2.unlogged := by
  have hlead : CanLead fs b.outDir o (outputOf s.rel) ↔ CanLead fs' b.outDir o (outputOf s.rel) :=
    canLead_congr h
  have hwrite : CanWrite fs b.outDir o s.rel ↔ CanWrite fs' b.outDir o s.rel := canWrite_congr h
  -- Both writings come to the same, as what decides is the same.
  have hfirst := @writing_write fs s o b bytes hash result hout hrel
  have hsecond := @writing_write fs' s o b bytes hash result' hout' hrel
  cases hfirst with
  | blocked hblocked hadds hdone =>
    cases hsecond with
    | blocked _ hadds' hdone' => exact ⟨_, hadds, hadds', by rw [hdone, hdone', hresult]⟩
    | refused hcan | written hcan => exact absurd (hlead.2 hcan) hblocked
  | refused hcan hrefused hadds hdone =>
    cases hsecond with
    | blocked hblocked => exact absurd (hlead.1 hcan) hblocked
    | refused _ _ hadds' hdone' => exact ⟨_, hadds, hadds', by rw [hdone, hdone', hresult]⟩
    | written _ hcan => exact absurd (hwrite.2 hcan) hrefused
  | written hcan hcanWrite hadds hdone =>
    cases hsecond with
    | blocked hblocked => exact absurd (hlead.1 hcan) hblocked
    | refused _ hrefused => exact absurd (hwrite.1 hcanWrite) hrefused
    | written _ _ hadds' hdone' => exact ⟨_, hadds, hadds', by rw [hdone, hdone', hresult]⟩

/-! ## One source -/

/-- Extracting a source that can be read depends on what concerns it only. -/
theorem extract_congr (hout : OutputDir fs b.outDir o) (hout' : OutputDir fs' b.outDir o)
    (hs : Queued fs s) (h : Alike o s fs fs') (hread : fs.readBytes s.path = .ok content)
    (hread' : fs'.readBytes s.path = .ok content) :
    ∃ new, Adds o s.rel new fs (b.extract fs s hash).1 ∧
      Adds o s.rel new fs' (b.extract fs' s hash).1 ∧
      (b.extract fs s hash).2.unlogged = (b.extract fs' s hash).2.unlogged := by
  -- Both times the same content is extracted.
  have houtcome : extractFile b.parser b.options fs (!b.all) s.path = b.outcome content s.path :=
    extractFile_eq hs.java hread
  have houtcome' : extractFile b.parser b.options fs' (!b.all) s.path = b.outcome content s.path :=
    extractFile_eq hs.java hread'
  unfold extract
  simp only [houtcome, houtcome']
  cases b.outcome content s.path with
  -- Only an outline is written, so otherwise the files stay.
  | error e => exact ⟨_, .refl o s.rel fs, .refl o s.rel fs', rfl⟩
  | ok found =>
    cases found with
    | none => exact ⟨_, .refl o s.rel fs, .refl o s.rel fs', rfl⟩
    | some bytes => exact write_congr hout hout' hs.rel h rfl

/-- What becomes of a source depends on what concerns it only. -/
theorem process_congr (hout : OutputDir fs b.outDir o) (hout' : OutputDir fs' b.outDir o)
    (hs : Queued fs s) (hs' : Queued fs' s) (h : Alike o s fs fs')
    (hprevious : ∀ rel e, b.previous.files.get? rel = some e → e.output = outputOf rel) :
    ∃ new, Adds o s.rel new fs (b.process fs s).1 ∧ Adds o s.rel new fs' (b.process fs' s).1 ∧
      (b.process fs s).2.unlogged = (b.process fs' s).2.unlogged := by
  have hsame (c : Bytes) : fs.readBytes s.path = .ok c ↔ fs'.readBytes s.path = .ok c :=
    readBytes_congr hout.grounded hout'.grounded hs hs' h
  cases hread : fs.readBytes s.path with
  | error e =>
    -- What cannot be read in one place cannot be read in the other.
    obtain ⟨e', hread'⟩ := exists_error_of_ne_ok fun c hread' =>
      nomatch hread.symm.trans ((hsame c).2 hread')
    unfold process
    simp only [hread, hread']
    exact ⟨_, .refl o s.rel fs, .refl o s.rel fs', rfl⟩
  | ok c =>
    have hread' := (hsame c).1 hread
    have hfresh := fresh?_congr hout hout' hs.rel h hprevious (Blake3.hexHash c)
    unfold process
    simp only [hread, hread', ← hfresh]
    cases b.previous.fresh? fs b.outDir s.rel (Blake3.hexHash c) with
    | some e => exact ⟨_, .refl o s.rel fs, .refl o s.rel fs', rfl⟩
    | none => exact extract_congr hout hout' hs h hread hread'

/-- A result is about its source. -/
theorem rel_process (b : Batch) (fs : FileSystem) (s : SourceFile) :
    (b.process fs s).2.rel = s.rel := by
  -- The result of every branch is made from one that names the source.
  have hwrite (hash : String) (bytes : Bytes) (result : FileResult) :
      (b.write fs s hash bytes result).2.rel = result.rel := by
    unfold write
    simp only
    split
    · rfl
    · split <;> rfl
  unfold process
  split
  · rfl
  · simp only
    split
    · rfl
    · unfold extract
      simp only
      split
      · exact hwrite _ _ _
      · rfl
      · rfl

/-! ## Either order -/

/-- Two sources can be dealt with in either order. -/
theorem process_swap {t : SourceFile} (hout : OutputDir fs b.outDir o) (hs : Queued fs s)
    (ht : Queued fs t) (hapart : Apart s t)
    (hprevious : ∀ rel e, b.previous.files.get? rel = some e → e.output = outputOf rel) :
    SameFiles (b.process (b.process fs s).1 t).1 (b.process (b.process fs t).1 s).1 ∧
      (b.process fs s).2.unlogged = (b.process (b.process fs t).1 s).2.unlogged ∧
      (b.process fs t).2.unlogged = (b.process (b.process fs s).1 t).2.unlogged := by
  obtain ⟨_, hfirst, -, -⟩ := process_congr hout hout hs hs (.refl o s fs) hprevious
  obtain ⟨_, hsecond, -, -⟩ := process_congr hout hout ht ht (.refl o t fs) hprevious
  -- Each source finds what concerns it as if it came first.
  obtain ⟨new, hadds, haddsAfter, hresult⟩ := process_congr hout (hout.grew hsecond.grew) hs
    (hs.grew hsecond.grew) (alike_of_adds hsecond hs ht.rel hapart) hprevious
  obtain ⟨new', hadds', haddsAfter', hresult'⟩ := process_congr hout (hout.grew hfirst.grew) ht
    (ht.grew hfirst.grew) (alike_of_adds hfirst ht hs.rel hapart.symm) hprevious
  refine ⟨⟨fun p => ?_, ?_⟩, hresult, hresult'⟩
  · rw [haddsAfter'.look, hadds.look, haddsAfter.look, hadds'.look]
    cases hnew : new p with
    | none => rfl
    | some v =>
      cases hnew' : new' p with
      | none => rfl
      | some v' => rw [eq_of_adds hadds hadds' hapart hnew hnew']
  · rw [haddsAfter'.workingDir, hadds.workingDir, haddsAfter.workingDir, hadds'.workingDir]

end Batch

end

end JavaOutline.Command

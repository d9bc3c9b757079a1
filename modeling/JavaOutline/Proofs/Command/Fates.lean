import JavaOutline.Proofs.Command.Completed
import JavaOutline.Proofs.Command.Schedule

/-!
# The fate of each source

A source of a batch meets one of six fates, told by the files as they are when it is dealt with:
it is unreadable, unchanged, passed over, without an outline, or its outline is written or cannot
be.  The fate settles what the source counts as, whether it failed, what is recorded of it and
what is done to the files, whatever else is in the batch and in the file system.

## Key results

- `Batch.process_spec`: what comes of a source, by its fate
- `Batch.processAll_eq_map_steps`: the results of a batch are those of its steps
- `Batch.get?_manifestOf_steps`: what a batch records of a source
- `Batch.isFile_of_recorded`: a recorded output stays a file to the end of the batch
-/

namespace JavaOutline.Command

open FileSystem (Grew)

/-! ## Fates -/

/-- A source of a batch, with the files as they are when it is dealt with. -/
structure Step where
  source : SourceFile
  before : FileSystem

/-- What becomes of a source. -/
inductive Fate where
  | unreadable (e : FileError)
  /-- The previous manifest records it with this content, and its output is still there. -/
  | unchanged (content : Bytes) (recorded : ManifestEntry)
  /-- It is no benchmark candidate. -/
  | passedOver
  /-- It has no outline. -/
  | failed (e : ExtractError)
  /-- Its outline cannot be written. -/
  | unwritten (e : FileError)
  | written (content encoded : Bytes)
deriving DecidableEq

namespace Fate

/-- Whether a source with this fate counts as failed. -/
def isFailure : Fate → Bool
  | unreadable _ | failed _ | unwritten _ => true
  | unchanged .. | passedOver | written .. => false

/-- Whether the outline of a source was there and could not be written. -/
def isUnwritten : Fate → Bool
  | unwritten _ => true
  | _ => false

/-- What a source with this fate counts as.  An outline counts when it is extracted, before it is
    written. -/
def metrics : Fate → Metrics
  | unreadable _ => { ioErrors := 1 }
  | unchanged .. => { cacheHits := 1 }
  | passedOver => { candidatesSkipped := 1 }
  | failed e => Metrics.recordError {} e
  | unwritten _ => { filesExtracted := 1, ioErrors := 1 }
  | written .. => { filesExtracted := 1 }

/-- What the manifest records of a source with this fate. -/
def recorded? (rel : String) : Fate → Option ManifestEntry
  | unchanged _ recorded => some recorded
  | written content _ => some ⟨Blake3.hexHash content, outputOf rel⟩
  | unreadable _ | passedOver | failed _ | unwritten _ => none

/-- The result that this fate makes of a source, but for what is logged. -/
def result (rel : String) (fate : Fate) : FileResult where
  rel
  recorded := fate.recorded? rel
  metrics := fate.metrics
  failed := fate.isFailure

/-- A source is recorded if it neither failed nor was passed over. -/
theorem isSome_recorded?_iff (rel : String) (fate : Fate) :
    (fate.recorded? rel).isSome = true ↔ fate.isFailure = false ∧ fate ≠ passedOver := by
  cases fate <;> simp [recorded?, isFailure]

end Fate

namespace Batch

variable (b : Batch)

/-- The steps of a batch: each source with the files that those before it left. -/
def steps (fs : FileSystem) : List SourceFile → List Step
  | [] => []
  | s :: sources => ⟨s, fs⟩ :: steps (b.process fs s).1 sources

/-- What becomes of a source, as the files tell when it is dealt with. -/
def fate (step : Step) : Fate :=
  match step.before.readBytes step.source.path with
  | .error e => .unreadable e
  | .ok content =>
    match b.previous.fresh? step.before b.outDir step.source.rel (Blake3.hexHash content) with
    | some recorded => .unchanged content recorded
    | none =>
      match extractFile b.parser b.options step.before (!b.all) step.source.path with
      | .error e => .failed e
      | .ok none => .passedOver
      | .ok (some encoded) =>
        match step.before.writeDeep (Path.join b.outDir (outputOf step.source.rel)) encoded with
        | .error e => .unwritten e
        | .ok _ => .written content encoded

/-- What a fate tells of a source and of the files that it leaves. -/
inductive Dealt (b : Batch) (step : Step) (after : FileSystem) : Fate → Prop where
  | unreadable (e : FileError) (hread : step.before.readBytes step.source.path = .error e)
    (hafter : after = step.before) : Dealt b step after (.unreadable e)
  | unchanged (content : Bytes) (recorded : ManifestEntry)
    (hread : step.before.readBytes step.source.path = .ok content)
    (hfresh : b.previous.fresh? step.before b.outDir step.source.rel (Blake3.hexHash content) =
      some recorded)
    (hafter : after = step.before) : Dealt b step after (.unchanged content recorded)
  | passedOver
    (houtcome : extractFile b.parser b.options step.before (!b.all) step.source.path = .ok none)
    (hafter : after = step.before) : Dealt b step after .passedOver
  | failed (e : ExtractError)
    (houtcome : extractFile b.parser b.options step.before (!b.all) step.source.path = .error e)
    (hafter : after = step.before) : Dealt b step after (.failed e)
  /-- The directories that lead to the output may have been made. -/
  | unwritten (e : FileError)
    (hafter : after = step.before ∨
      step.before.makeLeading (Path.join b.outDir (outputOf step.source.rel)) = .ok after) :
    Dealt b step after (.unwritten e)
  | written (content encoded : Bytes)
    (hread : step.before.readBytes step.source.path = .ok content)
    (hwrite : step.before.writeDeep (Path.join b.outDir (outputOf step.source.rel)) encoded =
      .ok after) : Dealt b step after (.written content encoded)

variable {b} {fs after : FileSystem} {s : SourceFile} {sources : List SourceFile} {step : Step}
  {content : Bytes}

/-! ## One source -/

section

variable {hash : String} {encoded : Bytes} {result : FileResult}

/-- An output that can be written is written and recorded. -/
theorem write_of_ok
    (h : fs.writeDeep (Path.join b.outDir (outputOf s.rel)) encoded = .ok after) :
    (b.write fs s hash encoded result).1 = after ∧
      (b.write fs s hash encoded result).2.unlogged =
        { result.unlogged with recorded := some ⟨hash, outputOf s.rel⟩ } := by
  unfold FileSystem.writeDeep at h
  unfold write
  cases hmake : fs.makeLeading (Path.join b.outDir (outputOf s.rel)) with
  | error e => simp [hmake, bind, Except.bind] at h
  -- The directories can be made, so the write that follows is the one that succeeded.
  | ok made =>
    simp only [hmake, bind, Except.bind] at h
    simp only [hmake, h]
    exact ⟨trivial, rfl⟩

/-- Of an output that cannot be written at most the directories that lead to it are made. -/
theorem write_of_error {e : FileError}
    (h : fs.writeDeep (Path.join b.outDir (outputOf s.rel)) encoded = .error e) :
    ((b.write fs s hash encoded result).1 = fs ∨
      fs.makeLeading (Path.join b.outDir (outputOf s.rel)) =
        .ok (b.write fs s hash encoded result).1) ∧
      (b.write fs s hash encoded result).2.unlogged = unwritten result.unlogged := by
  unfold FileSystem.writeDeep at h
  unfold write
  cases hmake : fs.makeLeading (Path.join b.outDir (outputOf s.rel)) with
  -- No directory is made.
  | error e =>
    simp only [hmake]
    exact ⟨.inl trivial, rfl⟩
  -- The directories are made, and the write of the file itself fails.
  | ok made =>
    simp only [hmake, bind, Except.bind] at h
    simp only [hmake, h]
    exact ⟨.inr trivial, rfl⟩

end

/-- What comes of a Java source is told by its fate: the result, and what is done to the files. -/
theorem process_spec (hjava : Path.isJava step.source.path = true) :
    (b.process step.before step.source).2.unlogged = (b.fate step).result step.source.rel ∧
      Dealt b step (b.process step.before step.source).1 (b.fate step) := by
  unfold process fate
  cases hread : step.before.readBytes step.source.path with
  | error e => exact ⟨rfl, .unreadable e hread rfl⟩
  | ok content =>
    simp only
    cases hfresh : b.previous.fresh? step.before b.outDir step.source.rel
        (Blake3.hexHash content) with
    | some recorded => exact ⟨rfl, .unchanged content recorded hread hfresh rfl⟩
    | none =>
      simp only
      unfold extract
      cases houtcome : extractFile b.parser b.options step.before (!b.all) step.source.path with
      | error e =>
        simp only [Metrics.recordFile, hjava, if_true]
        exact ⟨rfl, .failed e houtcome rfl⟩
      | ok found =>
        cases found with
        | none =>
          simp only [Metrics.recordFile, hjava, if_true]
          exact ⟨rfl, .passedOver houtcome rfl⟩
        | some encoded =>
          -- The source counts as extracted before it is known whether its output can be written.
          simp only [Metrics.recordFile, hjava, if_true, Metrics.recordOutcome]
          cases hwrite : step.before.writeDeep
              (Path.join b.outDir (outputOf step.source.rel)) encoded with
          | error e =>
            obtain ⟨hafter, hresult⟩ := write_of_error hwrite
            exact ⟨hresult, .unwritten e hafter⟩
          | ok after =>
            obtain ⟨hafter, hresult⟩ := write_of_ok hwrite
            exact ⟨hresult, .written content encoded hread (hafter ▸ hwrite)⟩

/-- A source with a fresh record is left alone. -/
theorem fate_of_fresh {recorded : ManifestEntry}
    (hread : step.before.readBytes step.source.path = .ok content)
    (hfresh : b.previous.fresh? step.before b.outDir step.source.rel (Blake3.hexHash content) =
      some recorded) : b.fate step = .unchanged content recorded := by
  simp only [fate, hread, hfresh]

/-- A source that is new or changed and has an outline is written if the outline can be. -/
theorem fate_of_written {encoded : Bytes} (hjava : Path.isJava step.source.path = true)
    (hread : step.before.readBytes step.source.path = .ok content)
    (hfresh : b.previous.fresh? step.before b.outDir step.source.rel (Blake3.hexHash content) =
      none)
    (houtcome : extractFile b.parser b.options step.before (!b.all) step.source.path =
      .ok (some encoded))
    (hwrite : step.before.writeDeep (Path.join b.outDir (outputOf step.source.rel)) encoded =
      .ok after) :
    b.fate step = .written content encoded ∧ (b.process step.before step.source).1 = after := by
  have hfate : b.fate step = .written content encoded := by
    simp only [fate, hread, hfresh, houtcome, hwrite]
  have hdealt := (process_spec (b := b) hjava).2
  rw [hfate] at hdealt
  cases hdealt with
  | written _ _ _ hwrite' => exact ⟨hfate, Except.ok.inj (hwrite'.symm.trans hwrite)⟩

/-- One without an outline fails, and the files stay as they are. -/
theorem fate_of_failed {e : ExtractError} (hjava : Path.isJava step.source.path = true)
    (hread : step.before.readBytes step.source.path = .ok content)
    (hfresh : b.previous.fresh? step.before b.outDir step.source.rel (Blake3.hexHash content) =
      none)
    (houtcome : extractFile b.parser b.options step.before (!b.all) step.source.path = .error e) :
    b.fate step = .failed e ∧ (b.process step.before step.source).1 = step.before := by
  have hfate : b.fate step = .failed e := by
    simp only [fate, hread, hfresh, houtcome]
  have hdealt := (process_spec (b := b) hjava).2
  rw [hfate] at hdealt
  cases hdealt with
  | failed _ _ hafter => exact ⟨hfate, hafter⟩

/-! ## Files -/

/-- Writing a file makes directories, which changes no file, and then puts the file. -/
theorem exists_of_writeDeep {path : String}
    (h : fs.writeDeep path content = .ok after) (hfs : fs.Grounded) :
    ∃ made, Grew (fun _ => False) fs made ∧ made.writeBytes path content = .ok after := by
  unfold FileSystem.writeDeep at h
  cases hmake : fs.makeLeading path with
  | error e => simp [hmake, bind, Except.bind] at h
  | ok made =>
    simp only [hmake, bind, Except.bind] at h
    exact ⟨made, FileSystem.grew_makeDirs hfs hmake, h⟩

/-- Only a source whose output is written changes a file. -/
theorem Dealt.grew_of_ne_written {fate : Fate} (h : Dealt b step after fate)
    (hfs : step.before.Grounded) (hfate : ∀ content encoded, fate ≠ .written content encoded) :
    Grew (fun _ => False) step.before after := by
  cases h with
  | unreadable e hread hafter => exact hafter ▸ .refl _ _
  | unchanged content recorded hread hfresh hafter => exact hafter ▸ .refl _ _
  | passedOver houtcome hafter => exact hafter ▸ .refl _ _
  | failed e houtcome hafter => exact hafter ▸ .refl _ _
  -- At most directories were made.
  | unwritten e hafter =>
    rcases hafter with hafter | hmake
    · exact hafter ▸ .refl _ _
    · exact FileSystem.grew_makeDirs hfs hmake
  | written content encoded => exact absurd rfl (hfate content encoded)

/-- Nothing is taken away while a source is dealt with. -/
theorem Dealt.grew {fate : Fate} (h : Dealt b step after fate) (hfs : step.before.Grounded) :
    Grew (fun _ => True) step.before after := by
  by_cases hfate : ∀ content encoded, fate ≠ .written content encoded
  · exact (h.grew_of_ne_written hfs hfate).mono fun _ _ => trivial
  -- A written outline puts one file, behind directories that may be new.
  · cases h with
    | written content encoded hread hwrite =>
      obtain ⟨made, hmade, hwrite⟩ := exists_of_writeDeep hwrite hfs
      obtain ⟨p, -, hgrew, -, -⟩ := FileSystem.grew_writeBytes (hmade.grounded hfs) hwrite
      exact (hmade.mono fun _ _ => trivial).trans (hgrew.mono fun _ _ => trivial)
    | _ => exact absurd (fun _ _ => nofun) hfate

/-- A recorded source has an output that is there. -/
theorem Dealt.isFile {fate : Fate} (h : Dealt b step after fate) (hfs : step.before.Grounded)
    {e : ManifestEntry} (he : fate.recorded? step.source.rel = some e) :
    after.isFile (Path.join b.outDir e.output) = true := by
  cases h with
  | unchanged content recorded hread hfresh hafter =>
    obtain rfl : recorded = e := Option.some.inj he
    obtain ⟨-, -, hfile⟩ := Manifest.fresh?_eq_some_iff.1 hfresh
    rwa [hafter]
  | written content encoded hread hwrite =>
    obtain rfl : ⟨Blake3.hexHash content, outputOf step.source.rel⟩ = e := Option.some.inj he
    obtain ⟨made, hmade, hwrite⟩ := exists_of_writeDeep hwrite hfs
    obtain ⟨p, -, hgrew, hleads, hfile⟩ :=
      FileSystem.grew_writeBytes (hmade.grounded hfs) hwrite
    -- The output is found again where it was put.
    exact FileSystem.isFile_of_readBytes ((FileSystem.readBytes_eq_ok_iff
      (hgrew.grounded (hmade.grounded hfs))).2 ⟨p.place, hleads, hfile⟩)
  | unreadable | passedOver | failed | unwritten => exact nomatch he

/-- What is recorded of a source has the hash of its content, and names the output that the
    previous manifest or its relative path says. -/
theorem Dealt.recorded {fate : Fate} (h : Dealt b step after fate)
    (hprevious : ∀ rel e, b.previous.files.get? rel = some e → e.output = outputOf rel)
    {e : ManifestEntry} (he : fate.recorded? step.source.rel = some e) :
    e.output = outputOf step.source.rel ∧
      ∃ content, step.before.readBytes step.source.path = .ok content ∧
        e.hash = Blake3.hexHash content := by
  cases h with
  -- The old entry is kept, and its hash is that of the content.
  | unchanged content recorded hread hfresh hafter =>
    obtain rfl : recorded = e := Option.some.inj he
    obtain ⟨hget, hhash, -⟩ := Manifest.fresh?_eq_some_iff.1 hfresh
    exact ⟨hprevious _ _ hget, content, hread, hhash⟩
  -- The new entry is made from the content and the relative path.
  | written content encoded hread hwrite =>
    obtain rfl : ⟨Blake3.hexHash content, outputOf step.source.rel⟩ = e := Option.some.inj he
    exact ⟨rfl, content, hread, rfl⟩
  | unreadable | passedOver | failed | unwritten => exact nomatch he

/-! ## All sources -/

/-- The steps of a batch are about its sources in order. -/
@[simp] theorem map_source_steps (b : Batch) (fs : FileSystem) (sources : List SourceFile) :
    (b.steps fs sources).map (·.source) = sources := by
  induction sources generalizing fs with
  | nil => rfl
  | cons s sources ih => rw [steps, List.map_cons, ih]

/-- The first source is dealt with first. -/
theorem processAll_cons (b : Batch) (fs : FileSystem) (s : SourceFile)
    (sources : List SourceFile) :
    b.processAll fs (s :: sources) =
      ((b.processAll (b.process fs s).1 sources).1,
        (b.process fs s).2 :: (b.processAll (b.process fs s).1 sources).2) :=
  rfl

/-- The results of a batch are those of its steps. -/
theorem processAll_eq_map_steps (b : Batch) (fs : FileSystem) (sources : List SourceFile) :
    (b.processAll fs sources).2 =
      (b.steps fs sources).map fun step => (b.process step.before step.source).2 := by
  induction sources generalizing fs with
  | nil => rfl
  | cons s sources ih => rw [processAll_cons, steps, List.map_cons, ← ih]

/-- A step is about one of the sources. -/
theorem source_mem_of_mem_steps (h : step ∈ b.steps fs sources) : step.source ∈ sources := by
  rw [← map_source_steps b fs sources]
  exact List.mem_map_of_mem h

/-- Nothing is taken away while the sources of a batch are dealt with. -/
theorem grew_processAll (hfs : fs.Grounded) (hjava : ∀ s ∈ sources, Path.isJava s.path = true) :
    Grew (fun _ => True) fs (b.processAll fs sources).1 := by
  -- By induction on the sources, from any files on.
  induction sources generalizing fs with
  | nil => exact .refl _ fs
  | cons s sources ih =>
    rw [List.forall_mem_cons] at hjava
    have hfirst : Grew (fun _ => True) fs (b.process fs s).1 :=
      (@process_spec b ⟨s, fs⟩ hjava.1).2.grew hfs
    exact hfirst.trans (ih (hfirst.grounded hfs) hjava.2)

/-- The files that a step starts from grew from the first ones, and the last ones grow from those
    that it leaves. -/
theorem grew_of_mem_steps (hfs : fs.Grounded)
    (hjava : ∀ s ∈ sources, Path.isJava s.path = true) (h : step ∈ b.steps fs sources) :
    Grew (fun _ => True) fs step.before ∧
      Grew (fun _ => True) (b.process step.before step.source).1 (b.processAll fs sources).1 := by
  -- By induction on the sources, for any files to start from.
  induction sources generalizing fs with
  | nil => exact nomatch h
  | cons s sources ih =>
    rw [List.forall_mem_cons] at hjava
    have hfirst : Grew (fun _ => True) fs (b.process fs s).1 :=
      (@process_spec b ⟨s, fs⟩ hjava.1).2.grew hfs
    have hmid := hfirst.grounded hfs
    rw [steps] at h
    rcases List.mem_cons.1 h with rfl | h
    · exact ⟨.refl _ fs, grew_processAll hmid hjava.2⟩
    · obtain ⟨hbefore, hafter⟩ := ih hmid hjava.2 h
      exact ⟨hfirst.trans hbefore, hafter⟩

/-- A recorded output stays a file to the end of the batch. -/
theorem isFile_of_recorded (hfs : fs.Grounded)
    (hjava : ∀ s ∈ sources, Path.isJava s.path = true) (h : step ∈ b.steps fs sources)
    {e : ManifestEntry} (he : (b.fate step).recorded? step.source.rel = some e) :
    (b.processAll fs sources).1.isFile (Path.join b.outDir e.output) = true := by
  obtain ⟨hbefore, hafter⟩ := grew_of_mem_steps hfs hjava h
  have hgrounded := hbefore.grounded hfs
  -- The output is there behind its step, and no later step takes it away.
  have hdealt := (process_spec (b := b) (hjava _ (source_mem_of_mem_steps h))).2
  exact hafter.isFile ((hdealt.grew hgrounded).grounded hgrounded) (hdealt.isFile hgrounded he)

end Batch

/-! ## Results together -/

section

variable {results : List FileResult} {r : FileResult} {rel : String}

/-- Recording a result changes nothing under other keys. -/
theorem get?_record_of_ne (h : r.rel ≠ rel) (m : Manifest) :
    (record m r).files.get? rel = m.files.get? rel := by
  unfold record
  split
  · rw [Manifest.insert, FileTable.get?_insert, if_neg h.symm]
  · rfl

/-- Recording results changes nothing under other keys. -/
theorem get?_foldl_record_of_ne (h : ∀ r ∈ results, r.rel ≠ rel) (m : Manifest) :
    (results.foldl record m).files.get? rel = m.files.get? rel := by
  induction results generalizing m with
  | nil => rfl
  | cons r results ih =>
    rw [List.forall_mem_cons] at h
    rw [List.foldl_cons, ih h.2, get?_record_of_ne h.1]

/-- Under the key of a result a new manifest has what this result records. -/
theorem get?_record {m : Manifest} (h : m.files.get? r.rel = none) :
    (record m r).files.get? r.rel = r.recorded := by
  unfold record
  split
  · rename_i e he
    rw [Manifest.insert, FileTable.get?_insert, if_pos rfl, he]
  · rename_i he
    rw [h, he]

/-- The manifest of results with different keys has under each key what its result records. -/
theorem get?_manifestOf (fingerprint : String) (hnodup : (results.map (·.rel)).Nodup)
    (hr : r ∈ results) : (manifestOf fingerprint results).files.get? r.rel = r.recorded := by
  -- By induction on the results, for any manifest that has nothing under the key.
  have hfold : ∀ m : Manifest, m.files.get? r.rel = none →
      (results.foldl record m).files.get? r.rel = r.recorded := by
    induction results with
    | nil => exact nomatch hr
    | cons x results ih =>
      intro m hm
      rw [List.map_cons, List.nodup_cons] at hnodup
      rw [List.foldl_cons]
      by_cases hx : r = x
      · subst hx
        have hothers : ∀ x ∈ results, x.rel ≠ r.rel := fun x hx heq =>
          hnodup.1 (heq ▸ List.mem_map_of_mem hx)
        rw [get?_foldl_record_of_ne hothers, get?_record hm]
      · have hmem : r ∈ results := (List.mem_cons.1 hr).resolve_left hx
        have hne : x.rel ≠ r.rel := fun heq => hnodup.1 (heq ▸ List.mem_map_of_mem hmem)
        exact ih hnodup.2 hmem _ (by rw [get?_record_of_ne hne, hm])
  exact hfold _ rfl

end

/-- A batch of sources with different relative paths records of each what its fate says. -/
theorem Batch.get?_manifestOf_steps {b : Batch} {fs : FileSystem} {sources : List SourceFile}
    {step : Step} (fingerprint : String) (hjava : ∀ s ∈ sources, Path.isJava s.path = true)
    (hnodup : (sources.map (·.rel)).Nodup) (h : step ∈ b.steps fs sources) :
    (manifestOf fingerprint (b.processAll fs sources).2).files.get? step.source.rel =
      (b.fate step).recorded? step.source.rel := by
  -- The results have the relative paths of the sources, so these differ too.
  have hrels : ((b.processAll fs sources).2.map (·.rel)).Nodup := by
    rwa [map_rel_processAll]
  have hresult : (b.process step.before step.source).2 ∈ (b.processAll fs sources).2 := by
    rw [processAll_eq_map_steps]
    exact List.mem_map_of_mem h
  -- What the result records is what its fate says.
  have hrecorded := congrArg FileResult.recorded
    (process_spec (b := b) (hjava _ (source_mem_of_mem_steps h))).1
  have hget := get?_manifestOf fingerprint hrels hresult
  rw [rel_process] at hget
  exact hget.trans hrecorded

end JavaOutline.Command

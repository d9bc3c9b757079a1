import JavaOutline.Proofs.Command.Accounting
import JavaOutline.Proofs.Command.Incremental

/-!
# Outputs of earlier runs

A run writes the outputs of the sources that it extracts and takes nothing away.  So a source that
fails gets no output, but the output that an earlier run wrote for it stays where it is, and only
the manifest tells that it is out of date.

## Key results

- `Batch.file_of_processAll`: where the files come from that a batch leaves
- `Completed.file_of_runAll`: where the outputs come from that a run leaves
- `traced_of_history`: every output was written by one of the runs
- `leftover_of_failed`: what there may be at the output of a source that failed
- `failed_beside_output`: a source may fail and have an output
-/

namespace JavaOutline.Command

open FileSystem (Grew)

/-! ## One batch -/

namespace Batch

variable {b : Batch} {fs after : FileSystem} {step : Step} {fate : Fate} {bytes : Bytes}
  {o place : List String}

/-- A file that is there after a source was dealt with was there before, or is its output. -/
theorem Dealt.file (h : Dealt b step after fate) (hout : OutputDir step.before b.outDir o)
    (hrel : Path.IsRelative step.source.rel) (hget : after.root.get? place = some (.file bytes)) :
    step.before.root.get? place = some (.file bytes) ∨
      place = outputPlace o step.source.rel ∧ ∃ content, fate = .written content bytes := by
  by_cases hfate : ∀ content encoded, fate ≠ .written content encoded
  -- A source that is not written changes no file.
  · left
    exact ((h.grew_of_ne_written hout.grounded hfate).root.fixed not_false).1 hget
  · cases h with
    -- A source that is written changes the file at its own output only.
    | written content encoded hread hwrite =>
      obtain ⟨made, hmade, hwrite⟩ := exists_of_writeDeep hwrite hout.grounded
      obtain ⟨hgrew, -, hfile⟩ :=
        (hout.grew hmade).grew_writeBytes (isRelative_outputOf hrel) hwrite
      by_cases hplace : place = outputPlace o step.source.rel
      · right
        subst hplace
        cases hget.symm.trans hfile
        exact ⟨rfl, content, rfl⟩
      · left
        exact (hmade.root.fixed not_false).1 ((hgrew.root.fixed hplace).1 hget)
    | _ => exact absurd (fun _ _ => nofun) hfate

variable {sources : List SourceFile}

/-- A file that is there after a batch was there before, or is the output of a source. -/
theorem file_of_processAll (hout : OutputDir fs b.outDir o)
    (hjava : ∀ s ∈ sources, Path.isJava s.path = true)
    (hrel : ∀ s ∈ sources, Path.IsRelative s.rel)
    (hget : (b.processAll fs sources).1.root.get? place = some (.file bytes)) :
    fs.root.get? place = some (.file bytes) ∨
      ∃ step ∈ b.steps fs sources, place = outputPlace o step.source.rel ∧
        ∃ content, b.fate step = .written content bytes := by
  -- By induction on the sources: what is there at last was there in the middle or came later.
  induction sources generalizing fs with
  | nil => exact .inl hget
  | cons s sources ih =>
    rw [List.forall_mem_cons] at hjava hrel
    have hdealt := (@process_spec b ⟨s, fs⟩ hjava.1).2
    have hmid : OutputDir (b.process fs s).1 b.outDir o := hout.grew (hdealt.grew hout.grounded)
    rw [processAll_cons] at hget
    rcases ih hmid hjava.2 hrel.2 hget with hget | ⟨step, hstep, hwritten⟩
    · rcases hdealt.file hout hrel.1 hget with hget | hwritten
      · exact .inl hget
      · exact .inr ⟨⟨s, fs⟩, List.mem_cons_self, hwritten⟩
    · exact .inr ⟨step, List.mem_cons_of_mem _ hstep, hwritten⟩

end Batch

/-! ## One run -/

variable {parser : Parser} {home : String} {r : ExtractRequest} {fs fs' : FileSystem}
  {o : List String}

namespace Completed

variable (c : Completed parser home r fs)

/-- Whether a run wrote an outline as the output of a relative path. -/
def Produced (rel : String) (encoded : Bytes) : Prop :=
  ∃ step ∈ c.steps, step.source.rel = rel ∧ ∃ content, c.fate step = .written content encoded

/-- Whether a run wrote its metrics to a place. -/
def MetricsAt (place : List String) : Prop :=
  ∃ path p, r.metrics = some path ∧ path ≠ "-" ∧ c.saved.resolve path = .ok p ∧ p.place = place

/-- A run into the directory at a place, on sources with different and ordinary relative paths. -/
structure WritesInto (o : List String) : Prop where
  grounded : fs.Grounded
  leads : c.made.follow (c.made.start r.out) (Path.parts r.out) = .ok (.found o)
  relative : ∀ s ∈ c.sources, Path.IsRelative s.rel
  nodup : (c.sources.map (·.rel)).Nodup

variable {c} {rel : String} {bytes : Bytes}

/-- The output directory is there from when it is made to the end of the run. -/
theorem outputDir_runAll (hfs : fs.Grounded) (hout : OutputDir c.made r.out o) :
    OutputDir c.written r.out o ∧ OutputDir (r.runAll parser home fs).files r.out o := by
  have hbatch := Batch.grew_processAll (b := c.batch) hout.grounded c.isJava_of_mem_sources
  rw [c.processAll_eq] at hbatch
  exact ⟨hout.grew hbatch, (hout.grew hbatch).grew (c.grew_written hfs)⟩

/-- A file at the output of a relative path after a run was there before, or is written by the run:
    as the output of this relative path or as the metrics. -/
theorem file_of_runAll (hinto : c.WritesInto o) (hout : OutputDir c.made r.out o)
    (hrel : Path.IsRelative rel)
    (hget : (r.runAll parser home fs).files.root.get? (outputPlace o rel) = some (.file bytes)) :
    c.MetricsAt (outputPlace o rel) ∨ c.Produced rel bytes ∨
      fs.root.get? (outputPlace o rel) = some (.file bytes) := by
  have hwritten := (outputDir_runAll hinto.grounded hout).1
  obtain ⟨hgrew, -, -⟩ := hwritten.grew_writeBytes isName_manifest.isRelative c.saved_eq
  rw [isName_manifest.parts] at hgrew
  -- From the end to the start of the run, each stage may have written the file.
  have hsaved : c.saved.root.get? (outputPlace o rel) = some (.file bytes) ∨
      c.MetricsAt (outputPlace o rel) := by
    rcases c.runAll_spec.1 with heq | ⟨path, hpath, hne, hwrite⟩
    · rw [heq] at hget
      exact .inl hget
    · have hgrounded := hgrew.grounded hwritten.grounded
      obtain ⟨p, hp, hmetrics, -, -⟩ := FileSystem.grew_writeBytes hgrounded hwrite
      by_cases hplace : p.place = outputPlace o rel
      · right
        exact ⟨path, p, hpath, hne, (FileSystem.resolve_eq_ok_iff hgrounded).2 hp, hplace⟩
      · left
        exact (hmetrics.root.fixed (Ne.symm hplace)).1 hget
  rcases hsaved with hsaved | hmetrics
  · right
    have hmanifest : outputPlace o rel ≠ o ++ [Manifest.fileName] := fun heq =>
      manifestPlace_ne_outputPlace hrel heq.symm
    have hfile := (hgrew.root.fixed hmanifest).1 hsaved
    have hprocess : (c.batch.processAll c.made c.sources).1 = c.written := by rw [c.processAll_eq]
    rw [← hprocess] at hfile
    rcases Batch.file_of_processAll hout c.isJava_of_mem_sources hinto.relative hfile with
      hmade | ⟨step, hstep, hplace, hfate⟩
    · right
      exact ((FileSystem.grew_makeDirs hinto.grounded c.made_eq).root.fixed not_false).1 hmade
    · left
      have hsource := hinto.relative _ (Batch.source_mem_of_mem_steps hstep)
      exact ⟨step, hstep, (outputPlace_inj hrel hsource hplace).symm, hfate⟩
  · exact .inl hmetrics

/-- A run produces nothing for a source that fails. -/
theorem not_produced_of_failed (hnodup : (c.sources.map (·.rel)).Nodup) {step : Step}
    (hstep : step ∈ c.steps) (hfailed : (c.fate step).isFailure = true) (encoded : Bytes) :
    ¬ c.Produced step.source.rel encoded := by
  rintro ⟨other, hother, hrel, content, hwritten⟩
  have hsteps : (c.steps.map (·.source.rel)).Nodup := by
    rw [← c.map_source_steps, List.map_map] at hnodup
    exact hnodup
  -- There is one step with this relative path, so the same source would have failed.
  obtain rfl := List.inj_on_of_nodup_map hsteps hother hstep hrel
  rw [hwritten] at hfailed
  exact nomatch hfailed

end Completed

/-! ## Runs one after the other -/

/-- A completed run, with the files that it started from. -/
structure PastRun (parser : Parser) where
  home : String
  request : ExtractRequest
  before : FileSystem
  completed : Completed parser home request before

/-- The files that runs into the directory at a place lead to, from files where this directory is
    empty and with edits between the runs. -/
inductive History (parser : Parser) (o : List String) :
    FileSystem → List (PastRun parser) → Prop where
  | start {fs : FileSystem} (h : Vacant fs o) : History parser o fs []
  | run {home : String} {r : ExtractRequest} {fs : FileSystem} {past : List (PastRun parser)}
    (h : History parser o fs past) (c : Completed parser home r fs) (hinto : c.WritesInto o) :
    History parser o (r.runAll parser home fs).files (⟨home, r, fs, c⟩ :: past)
  | edit {fs fs' : FileSystem} {past : List (PastRun parser)} (h : History parser o fs past)
    (hedited : Edited o fs fs') : History parser o fs' past

/-- Whether a run wrote a content to the output of a relative path, as an outline or because the
    metrics go there. -/
def PastRun.Wrote (run : PastRun parser) (o : List String) (rel : String) (bytes : Bytes) : Prop :=
  run.completed.Produced rel bytes ∨ run.completed.MetricsAt (outputPlace o rel)

/-- A directory without links where every output was written by one of the runs. -/
structure Traced (o : List String) (fs : FileSystem) (past : List (PastRun parser)) : Prop where
  noFile : ∀ content, fs.root.get? o ≠ some (.file content)
  noLinks : ∀ names t, fs.root.get? (o ++ names) ≠ some (.link t)
  output : ∀ rel bytes, Path.IsRelative rel →
    fs.root.get? (outputPlace o rel) = some (.file bytes) → ∃ run ∈ past, run.Wrote o rel bytes

namespace Traced

variable {past : List (PastRun parser)}

/-- Nothing is in an empty directory. -/
theorem of_vacant (h : Vacant fs o) : Traced o fs ([] : List (PastRun parser)) where
  noFile := h.ne_file
  noLinks := h.ne_link
  output rel bytes _ hget := nomatch h (Path.parts (outputOf rel)) (.file bytes) hget

/-- Edits put no outputs. -/
theorem edited (h : Traced o fs past) (hedited : Edited o fs fs') : Traced o fs' past where
  noFile := hedited.ne_file h.noFile
  noLinks := hedited.ne_link h.noLinks
  output rel bytes hrel hget := by
    -- An output that is there after an edit was left alone by it.
    rcases hedited (Path.parts (outputOf rel)) (.file bytes) hget with hdir | hold
    · exact nomatch hdir
    · exact h.output rel bytes hrel hold

/-- The directory that a run is into, once it is made. -/
theorem outputDir {c : Completed parser home r fs} (h : Traced o fs past)
    (hinto : c.WritesInto o) : OutputDir c.made r.out o := by
  have hgrew := FileSystem.grew_makeDirs hinto.grounded c.made_eq
  have hmade := h.edited (edited_of_grew hgrew o)
  exact .of_follow (hgrew.grounded hinto.grounded) hinto.leads hmade.noFile hmade.noLinks

/-- A run writes the outputs that it puts. -/
theorem run {c : Completed parser home r fs} (h : Traced o fs past) (hinto : c.WritesInto o) :
    Traced o (r.runAll parser home fs).files (⟨home, r, fs, c⟩ :: past) := by
  have hmade := h.outputDir hinto
  have hout := (Completed.outputDir_runAll hinto.grounded hmade).2
  constructor
  case noFile => exact hout.ne_file
  case noLinks => exact hout.noLinks
  -- A file below the output directory is from this run, or it was there before.
  case output =>
    intro rel bytes hrel hget
    -- In this run it comes from the metrics or from a source.
    rcases Completed.file_of_runAll hinto hmade hrel hget with hmetrics | hproduced | hold
    · exact ⟨_, List.mem_cons_self, .inr hmetrics⟩
    · exact ⟨_, List.mem_cons_self, .inl hproduced⟩
    · obtain ⟨run, hrun, hwrote⟩ := h.output rel bytes hrel hold
      exact ⟨run, List.mem_cons_of_mem _ hrun, hwrote⟩

end Traced

/-- After any runs and edits every output was written by one of the runs. -/
theorem traced_of_history {past : List (PastRun parser)} (h : History parser o fs past) :
    Traced o fs past := by
  induction h with
  | start h => exact .of_vacant h
  | run _ c hinto ih => exact ih.run hinto
  | edit _ hedited ih => exact ih.edited hedited

/-- A source that fails in a run, after any runs and edits, gets no output in this run and is not
    recorded.  What there is at its output, unless the metrics of the run go there, was there before
    the run with the same content, and was written there by an earlier run. -/
theorem leftover_of_failed {past : List (PastRun parser)} (h : History parser o fs past)
    (c : Completed parser home r fs) (hinto : c.WritesInto o) {step : Step}
    (hstep : step ∈ c.steps) (hfailed : (c.fate step).isFailure = true) :
    (∀ encoded, ¬ c.Produced step.source.rel encoded) ∧
    Manifest.read? c.saved r.out = some c.manifest ∧
    c.manifest.files.get? step.source.rel = none ∧
    ∀ bytes, (r.runAll parser home fs).files.readBytes
        (Path.join r.out (outputOf step.source.rel)) = .ok bytes →
      c.MetricsAt (outputPlace o step.source.rel) ∨
        fs.root.get? (outputPlace o step.source.rel) = some (.file bytes) ∧
        ∃ run ∈ past, run.Wrote o step.source.rel bytes := by
  have htraced := traced_of_history h
  have hmade := htraced.outputDir hinto
  have hout := (Completed.outputDir_runAll hinto.grounded hmade).2
  have hrel := hinto.relative _ (Batch.source_mem_of_mem_steps hstep)
  have hnone := Completed.not_produced_of_failed hinto.nodup hstep hfailed
  refine ⟨hnone, c.read?_saved hinto.grounded, ?_, fun bytes hread => ?_⟩
  · rw [c.get?_manifest hinto.nodup hstep]
    cases hrecorded : (c.fate step).recorded? step.source.rel with
    | none => rfl
    | some e =>
      have hsome := ((c.fate step).isSome_recorded?_iff step.source.rel).1 (by simp [hrecorded])
      exact absurd (hsome.1.symm.trans hfailed) nofun
  · -- The path of the output leads into the directory, where files are traced to the runs.
    obtain ⟨q, hleads, hfile⟩ := (FileSystem.readBytes_eq_ok_iff hout.grounded).1 hread
    have hplace : q = outputPlace o step.source.rel :=
      hout.place_eq (isRelative_outputOf hrel) hleads
    rw [hplace] at hfile
    rcases Completed.file_of_runAll hinto hmade hrel hfile with hmetrics | hproduced | hold
    · exact .inl hmetrics
    · exact absurd hproduced (hnone bytes)
    · exact .inr ⟨hold, htraced.output _ bytes hrel hold⟩

/-! ## Sources that fail and have an output -/

/-- Whether a source without an outline has a file at its output at the end of a run. -/
def Completed.FailsBesideOutput (c : Completed parser home r fs) : Prop :=
  ∃ step ∈ c.steps, (∃ e, c.fate step = .failed e) ∧
    (r.runAll parser home fs).files.isFile (Path.join r.out (outputOf step.source.rel)) = true

/-- One source and an output directory. -/
def leftoverFiles (content : String) (outputs : List (String × Entry)) : FileSystem where
  root := .dir [("src", .dir [("A.java", .file (utf8 content))]), ("out", .dir outputs)]
  workingDir := []

/-- The source. -/
def leftoverSource : SourceFile := ⟨"A.java", "/src/A.java"⟩

/-- A request that leaves no source out and may write the metrics somewhere. -/
def leftoverRequest (metrics : Option String) : ExtractRequest where
  path := "/src"
  out := "/out"
  all := true
  maxFileSize := 0
  noDefaultExclude := true
  metrics

/-- The batch of the source. -/
def leftoverBatch (parser : Parser) (metrics : Option String) (content : String)
    (outputs : List (String × Entry)) : Batch :=
  (leftoverRequest metrics).batch parser {} (leftoverFiles content outputs)

/-- The manifest of a run that wrote the outline of the source. -/
def leftoverManifest (content : String) : Manifest where
  fingerprint := fingerprint {} true
  files := ⟨[("A.java", ⟨Blake3.hexHash (utf8 content), "A.java.ast"⟩)],
    List.pairwise_singleton _ _⟩

/-- The batch of the source in a run that goes on from a manifest. -/
def batchFrom (parser : Parser) (previous : Manifest) : Batch where
  parser
  options := {}
  all := true
  outDir := "/out"
  previous

/-- A run goes on from the manifest that it finds.  With the manifest known, none has to be read
    where the run is evaluated. -/
theorem batch_leftover {parser : Parser} (metrics : Option String) {content : String}
    {outputs : List (String × Entry)} {m : Manifest}
    (h : Manifest.load (leftoverFiles content outputs) "/out" (fingerprint {} true) = m) :
    leftoverBatch parser metrics content outputs = batchFrom parser m :=
  congrArg (batchFrom parser) h

/-- The path of the sources is as short as can be. -/
theorem canonical_leftover (content : String) (outputs : List (String × Entry)) :
    (leftoverFiles content outputs).canonical "/src" = .ok "/src" := by
  have hnames : FileSystem.checkNames "/src" = .ok () := by decide
  have hfollow : (leftoverFiles content outputs).follow
      ((leftoverFiles content outputs).start "/src") (FileSystem.steps "/src") =
      .ok (.found ["src"]) := rfl
  have hpath : FileSystem.pathOf ["src"] = "/src" := by decide
  have hshort : FileSystem.isPathTooLong "/src" = false := by decide
  unfold FileSystem.canonical
  simp only [hnames, hfollow, hpath, hshort, bind, Except.bind]
  rfl

/-- The output directory is there. -/
theorem makeDirs_leftover (content : String) (outputs : List (String × Entry)) :
    (leftoverFiles content outputs).makeDirs "/out" = .ok (leftoverFiles content outputs) := by
  have hcheck : FileSystem.checkPath "/out" = .ok () := by decide
  have hmake : (leftoverFiles content outputs).makeDir
      ((leftoverFiles content outputs).start "/out") (Path.parts "/out") = .error .alreadyExists := rfl
  have hdir : (leftoverFiles content outputs).leadsToDir
      ((leftoverFiles content outputs).start "/out") (Path.parts "/out") = true := rfl
  unfold FileSystem.makeDirs
  simp only [hcheck, hmake, hdir, bind, Except.bind]
  rfl

/-- A run on the source that can save its manifest has come to its end. -/
theorem closeBatch_leftover {written saved : FileSystem} {results : List FileResult}
    (logged : List Event)
    (h : (manifestOf (fingerprint {} true) results).save written "/out" = .ok saved) :
    ((leftoverRequest none).closeBatch ((leftoverRequest none).optionsOver {}) written logged
        results).fatal = none ∧
      ((leftoverRequest none).closeBatch ((leftoverRequest none).optionsOver {}) written logged
        results).files = saved := by
  have hsave : (manifestOf (fingerprint ((leftoverRequest none).optionsOver {})
      (leftoverRequest none).all) results).save written (leftoverRequest none).out = .ok saved := h
  -- Without metrics, nothing comes after the manifest.
  unfold ExtractRequest.closeBatch
  simp only [hsave]
  exact ⟨rfl, rfl⟩

theorem isJava_leftoverSource : Path.isJava leftoverSource.path = true := by
  decide

/-- How a run on the source ends, told by the fate of the source. -/
theorem runBatch_leftover {parser : Parser} {content : String} {outputs : List (String × Entry)}
    {m : Manifest} {fate : Fate} {after saved : FileSystem}
    (hload : Manifest.load (leftoverFiles content outputs) "/out" (fingerprint {} true) = m)
    (hfate : (batchFrom parser m).fate ⟨leftoverSource, leftoverFiles content outputs⟩ = fate ∧
      ((batchFrom parser m).process (leftoverFiles content outputs) leftoverSource).1 = after)
    (hsave : (manifestOf (fingerprint {} true) [fate.result "A.java"]).save after "/out" =
      .ok saved) :
    ((leftoverRequest none).runBatch parser ((leftoverRequest none).optionsOver {})
        (leftoverFiles content outputs) [] [leftoverSource]).fatal = none ∧
      ((leftoverRequest none).runBatch parser ((leftoverRequest none).optionsOver {})
        (leftoverFiles content outputs) [] [leftoverSource]).files = saved := by
  have hover : (leftoverRequest none).batchOver parser ((leftoverRequest none).optionsOver {})
      (leftoverFiles content outputs) = batchFrom parser m := batch_leftover none hload
  obtain ⟨logged, hrun⟩ := @ExtractRequest.exists_runBatch_eq (leftoverRequest none) parser
    ((leftoverRequest none).optionsOver {}) _ _ (makeDirs_leftover content outputs) []
    [leftoverSource]
  obtain ⟨hfate, hafter⟩ := hfate
  rw [hrun, hover, Batch.processAll_cons]
  simp only [Batch.processAll, hafter]
  refine closeBatch_leftover logged ?_
  -- The manifest depends on the fate only, not on what is logged.
  have hresult : ((batchFrom parser m).process (leftoverFiles content outputs)
      leftoverSource).2.unlogged = fate.result "A.java" := by
    rw [← hfate]
    exact (@Batch.process_spec (batchFrom parser m)
      ⟨leftoverSource, leftoverFiles content outputs⟩ isJava_leftoverSource).1
  rw [manifestOf_eq, ← foldl_record_unlogged, List.map_singleton, hresult, ← manifestOf_eq]
  exact hsave

/-- A run on the source completes if its batch does. -/
theorem exists_leftoverRun {parser : Parser} {metrics : Option String} {content : String}
    {outputs : List (String × Entry)}
    (hfatal : ((leftoverRequest metrics).runBatch parser
      ((leftoverRequest metrics).optionsOver {}) (leftoverFiles content outputs) []
      [leftoverSource]).fatal = none) :
    ∃ c : Completed parser "/home" (leftoverRequest metrics) (leftoverFiles content outputs),
      c.WritesInto ["out"] ∧ c.batch = leftoverBatch parser metrics content outputs ∧
      c.steps = [⟨leftoverSource, leftoverFiles content outputs⟩] ∧
      ((leftoverRequest metrics).runAll parser "/home" (leftoverFiles content outputs)).files =
        ((leftoverRequest metrics).runBatch parser ((leftoverRequest metrics).optionsOver {})
          (leftoverFiles content outputs) [] [leftoverSource]).files := by
  -- What the stages before the batch give does not depend on the content or on the outputs.
  have hconfig : Config.load (leftoverFiles content outputs) "/home" = .ok {} := rfl
  have hvisits : (leftoverFiles content outputs).visits
      ((leftoverFiles content outputs).isExcluded ((leftoverRequest metrics).patterns {})
        (leftoverRequest metrics).maxFileSize) Path.isJava "/src" =
      .ok [.directory "/src", .accepted leftoverSource] := rfl
  have hsources : sourcesOf [.directory "/src", .accepted leftoverSource] = [leftoverSource] :=
    List.mergeSort_singleton _
  -- The output directory is there already.
  have hmade : (leftoverFiles content outputs).makeDirs (leftoverRequest metrics).out =
      .ok (leftoverFiles content outputs) := makeDirs_leftover content outputs
  obtain ⟨c, hc, hsources, hmade, hfiles⟩ := exists_completed hconfig
    (canonical_leftover content outputs) hvisits hsources hmade hfatal
  obtain ⟨hbatch, hsteps⟩ := c.batch_and_steps_eq hc hsources hmade
  -- The run writes into the directory, from one source with a plain name.
  refine ⟨c, ⟨⟨_, rfl⟩, ?_, ?_, ?_⟩, hbatch, hsteps, hfiles⟩
  · have hfollow : (leftoverFiles content outputs).follow
        ((leftoverFiles content outputs).start "/out") (Path.parts "/out") =
        .ok (.found ["out"]) := rfl
    exact c.follow_made ⟨_, rfl⟩ hfollow
  · rw [hsources]
    intro s hs
    obtain rfl := List.mem_singleton.1 hs
    exact ⟨[], "A.java", by decide, by decide⟩
  · rw [hsources]
    decide

/-- The output directory after a run that wrote an outline of the source, and one before it that
    recorded a content of the source.  The two runs may be the same one. -/
def outputsAfter (encoded : Bytes) (recorded : String) : List (String × Entry) :=
  [("A.java.ast", .file encoded), ("manifest.json", .file (leftoverManifest recorded).encode)]

section

variable {parser : Parser} {content recorded : String} {encoded new : Bytes}

/-- A run finds the manifest that was left. -/
theorem load_outputsAfter :
    Manifest.load (leftoverFiles content (outputsAfter encoded recorded)) "/out"
      (fingerprint {} true) = leftoverManifest recorded :=
  @Manifest.load_of_encode _ _ (leftoverManifest recorded) rfl

/-- Without one, a run begins with an empty manifest. -/
theorem load_leftover_nil :
    Manifest.load (leftoverFiles content []) "/out" (fingerprint {} true) =
      { fingerprint := fingerprint {} true } :=
  rfl

/-- The path of the output of the source. -/
theorem join_outputOf_leftover : Path.join "/out" (outputOf "A.java") = "/out/A.java.ast" := by
  decide

/-- A source with another content than the recorded one is extracted anew. -/
theorem fresh?_of_changed (hne : Blake3.hexHash (utf8 recorded) ≠ Blake3.hexHash (utf8 content)) :
    (leftoverManifest recorded).fresh? (leftoverFiles content (outputsAfter encoded recorded))
      "/out" "A.java" (Blake3.hexHash (utf8 content)) = none := by
  rw [Option.eq_none_iff_forall_ne_some]
  intro e he
  obtain ⟨hget, hhash, -⟩ := Manifest.fresh?_eq_some_iff.1 he
  obtain rfl := Option.some.inj hget
  exact hne hhash

/-- A manifest is put beside the output, in place of one that is there. -/
theorem save_leftover {m : Manifest} {rest : List (String × Entry)}
    (h : rest = [] ∨ ∃ bytes, rest = [("manifest.json", .file bytes)]) :
    m.save (leftoverFiles content (("A.java.ast", .file encoded) :: rest)) "/out" =
      .ok (leftoverFiles content
        [("A.java.ast", .file encoded), ("manifest.json", .file m.encode)]) := by
  unfold Manifest.save
  -- What is written plays no part.
  generalize m.encode = bytes
  rcases h with rfl | ⟨old, rfl⟩ <;> rfl

/-- A first run on a source with an outline leaves the output and a manifest. -/
theorem runBatch_first
    (houtcome : extractFile parser {} (leftoverFiles content []) false "/src/A.java" =
      .ok (some encoded)) :
    ((leftoverRequest none).runBatch parser ((leftoverRequest none).optionsOver {})
        (leftoverFiles content []) [] [leftoverSource]).fatal = none ∧
      ((leftoverRequest none).runBatch parser ((leftoverRequest none).optionsOver {})
        (leftoverFiles content []) [] [leftoverSource]).files =
          leftoverFiles content (outputsAfter encoded content) := by
  -- The output is new, and so is its directory.
  have hwrite : (leftoverFiles content []).writeDeep (Path.join "/out" (outputOf "A.java"))
      encoded = .ok (leftoverFiles content [("A.java.ast", .file encoded)]) := by
    rw [join_outputOf_leftover]
    rfl
  have hread : (leftoverFiles content []).readBytes "/src/A.java" = .ok (utf8 content) := rfl
  have hfresh : ({ fingerprint := fingerprint {} true } : Manifest).fresh?
      (leftoverFiles content []) "/out" "A.java" (Blake3.hexHash (utf8 content)) = none := by
    rw [Option.eq_none_iff_forall_ne_some]
    intro e he
    exact nomatch (Manifest.fresh?_eq_some_iff.1 he).1
  have hfate : (batchFrom parser { fingerprint := fingerprint {} true }).fate
        ⟨leftoverSource, leftoverFiles content []⟩ = .written (utf8 content) encoded ∧
      ((batchFrom parser { fingerprint := fingerprint {} true }).process
        (leftoverFiles content []) leftoverSource).1 =
        leftoverFiles content [("A.java.ast", .file encoded)] :=
    Batch.fate_of_written isJava_leftoverSource hread hfresh houtcome hwrite
  have hmanifest : manifestOf (fingerprint {} true)
      [(Fate.written (utf8 content) encoded).result "A.java"] = leftoverManifest content := rfl
  refine runBatch_leftover load_leftover_nil hfate ?_
  rw [hmanifest]
  exact save_leftover (.inl rfl)

/-- It is a complete run. -/
theorem exists_firstRun
    (houtcome : extractFile parser {} (leftoverFiles content []) false "/src/A.java" =
      .ok (some encoded)) :
    ∃ c : Completed parser "/home" (leftoverRequest none) (leftoverFiles content []),
      c.WritesInto ["out"] ∧
      ((leftoverRequest none).runAll parser "/home" (leftoverFiles content [])).files =
        leftoverFiles content (outputsAfter encoded content) := by
  obtain ⟨hfatal, hfiles⟩ := runBatch_first houtcome
  obtain ⟨c, hinto, -, -, hend⟩ := exists_leftoverRun hfatal
  exact ⟨c, hinto, hend.trans hfiles⟩

/-- Where the source is changed, a later run replaces the output. -/
theorem fate_of_changed (hne : Blake3.hexHash (utf8 recorded) ≠ Blake3.hexHash (utf8 content))
    (houtcome : extractFile parser {} (leftoverFiles content (outputsAfter encoded recorded)) false
      "/src/A.java" = .ok (some new)) :
    (batchFrom parser (leftoverManifest recorded)).fate
        ⟨leftoverSource, leftoverFiles content (outputsAfter encoded recorded)⟩ =
      .written (utf8 content) new ∧
    ((batchFrom parser (leftoverManifest recorded)).process
        (leftoverFiles content (outputsAfter encoded recorded)) leftoverSource).1 =
      leftoverFiles content (outputsAfter new recorded) := by
  have hwrite : (leftoverFiles content (outputsAfter encoded recorded)).writeDeep
      (Path.join "/out" (outputOf "A.java")) new =
      .ok (leftoverFiles content (outputsAfter new recorded)) := by
    rw [join_outputOf_leftover]
    unfold outputsAfter
    generalize (leftoverManifest recorded).encode = bytes
    rfl
  have hread : (leftoverFiles content (outputsAfter encoded recorded)).readBytes "/src/A.java" =
      .ok (utf8 content) := rfl
  exact Batch.fate_of_written isJava_leftoverSource hread (fresh?_of_changed hne) houtcome hwrite

end

/-- The outputs of a first run, in which the source has an outline. -/
def firstOutputs : List (String × Entry) :=
  match ((leftoverRequest none).runAll mixedParser "/home"
    (leftoverFiles "A" [])).files.root.get? ["out"] with
  | some (.dir outputs) => outputs
  | _ => []

/-- In the first run the source has an empty outline. -/
theorem extractFile_first : extractFile mixedParser {} (leftoverFiles "A" []) false "/src/A.java" =
    .ok (some (Outline.encode ⟨[], []⟩)) := by
  decide

/-- The first run leaves the output and the manifest. -/
theorem firstOutputs_eq : firstOutputs = outputsAfter (Outline.encode ⟨[], []⟩) "A" := by
  obtain ⟨-, -, hfiles⟩ := exists_firstRun extractFile_first
  rw [firstOutputs, hfiles]
  rfl

/-- The files after the first run and an edit that spoils the source. -/
def staleFiles : FileSystem :=
  leftoverFiles "B" firstOutputs

/-- The second run completes, and the output of the first one is still there. -/
theorem exists_staleRun : ∃ past, History mixedParser ["out"] staleFiles past ∧
    ∃ c : Completed mixedParser "/home" (leftoverRequest none) staleFiles,
      c.WritesInto ["out"] ∧ c.steps = [⟨leftoverSource, staleFiles⟩] ∧
      c.fate ⟨leftoverSource, staleFiles⟩ = .failed (.incomplete "/src/A.java") ∧
      ((leftoverRequest none).runAll mixedParser "/home" staleFiles).files.isFile
        "/out/A.java.ast" = true := by
  have hvacant : Vacant (leftoverFiles "A" []) ["out"] := vacant_of_get? rfl
  -- A first run writes the output, and then the source is edited.
  obtain ⟨first, hinto, hfirst⟩ := exists_firstRun extractFile_first
  have hrun := History.run (.start hvacant) first hinto
  rw [staleFiles, firstOutputs_eq]
  -- The edit keeps the output directory as the first run left it.
  have hedited : Edited ["out"] ((leftoverRequest none).runAll mixedParser "/home"
      (leftoverFiles "A" [])).files
      (leftoverFiles "B" (outputsAfter (Outline.encode ⟨[], []⟩) "A")) := by
    rw [hfirst]
    exact edited_of_get? rfl
  -- The hashes of the two contents differ, so the second run extracts the source, which fails.
  have hne : Blake3.hexHash (utf8 "A") ≠ Blake3.hexHash (utf8 "B") := by decide +kernel
  have hread : (leftoverFiles "B" (outputsAfter (Outline.encode ⟨[], []⟩) "A")).readBytes
      "/src/A.java" = .ok (utf8 "B") := rfl
  have houtcome : extractFile mixedParser {}
      (leftoverFiles "B" (outputsAfter (Outline.encode ⟨[], []⟩) "A")) false "/src/A.java" =
      .error (.incomplete "/src/A.java") := by decide
  have hfate : (batchFrom mixedParser (leftoverManifest "A")).fate
        ⟨leftoverSource, leftoverFiles "B" (outputsAfter (Outline.encode ⟨[], []⟩) "A")⟩ =
        .failed (.incomplete "/src/A.java") ∧
      ((batchFrom mixedParser (leftoverManifest "A")).process
        (leftoverFiles "B" (outputsAfter (Outline.encode ⟨[], []⟩) "A")) leftoverSource).1 =
        leftoverFiles "B" (outputsAfter (Outline.encode ⟨[], []⟩) "A") :=
    Batch.fate_of_failed isJava_leftoverSource hread (fresh?_of_changed hne) houtcome
  obtain ⟨hfatal, hsaved⟩ := runBatch_leftover load_outputsAfter hfate
    (save_leftover (.inr ⟨_, rfl⟩))
  obtain ⟨c, hinto, hbatch, hsteps, hfiles⟩ := exists_leftoverRun hfatal
  refine ⟨_, .edit hrun hedited, c, hinto, hsteps, ?_, ?_⟩
  · show c.batch.fate _ = _
    rw [hbatch, batch_leftover none load_outputsAfter]
    exact hfate.1
  -- Only the manifest is written, and the output stays beside it.
  · rw [hfiles, hsaved]
    rfl

/-- The output of the first run is still there after the second one. -/
theorem leftover_of_failed_stale : ∃ past, History mixedParser ["out"] staleFiles past ∧
    ∃ c : Completed mixedParser "/home" (leftoverRequest none) staleFiles,
      c.manifest.files.get? "A.java" = none ∧
      ∃ bytes, staleFiles.root.get? ["out", "A.java.ast"] = some (.file bytes) ∧
        ∃ run ∈ past, run.Wrote ["out"] "A.java" bytes := by
  obtain ⟨past, hhistory, c, hinto, hsteps, hfate, hfile⟩ := exists_staleRun
  obtain ⟨bytes, hread⟩ := FileSystem.exists_readBytes_of_isFile hfile
  have hstep : (⟨leftoverSource, staleFiles⟩ : Step) ∈ c.steps := by
    rw [hsteps]
    exact List.mem_singleton_self _
  -- The output that is there is no work of this run.
  obtain ⟨-, -, hnone, hleftover⟩ :=
    leftover_of_failed hhistory c hinto hstep (by rw [hfate]; rfl)
  refine ⟨past, hhistory, c, hnone, bytes, ?_⟩
  rcases hleftover bytes hread with ⟨path, p, hpath, -⟩ | ⟨hold, hwrote⟩
  -- There are no metrics that could have been written there.
  · exact nomatch hpath
  · have hplace : outputPlace ["out"] "A.java" = ["out", "A.java.ast"] := by decide
    rw [← hplace]
    exact ⟨hold, hwrote⟩

/-- Two sources of which the first one has backslashes in its name and writes the output of the
    second one, which fails. -/
def crossedFiles : FileSystem where
  root := .dir [
    ("src", .dir [("a\\..\\b.java", .file (utf8 "A")), ("b.java", .file (utf8 "B"))]),
    ("out", .dir [])]
  workingDir := []

/-- Two sources with one relative path, of which the second one fails. -/
def collidingFiles : FileSystem where
  root := .dir [
    ("src", .dir [("a", .dir [("b.java", .file (utf8 "A"))]), ("a\\b.java", .file (utf8 "B"))]),
    ("out", .dir [])]
  workingDir := []

/-- The batch of a run on two sources. -/
def pairBatch (files : FileSystem) : Batch :=
  (leftoverRequest none).batch mixedParser {} files

/-- A run on two sources fails beside an output if its batch does. -/
theorem exists_pairRun {files : FileSystem} {visits : List Visit} {s t : SourceFile}
    {e : ExtractError} (hconfig : Config.load files "/home" = .ok {})
    (hstart : files.canonical "/src" = .ok "/src")
    (hvisits : files.visits (files.isExcluded ((leftoverRequest none).patterns {}) 0) Path.isJava
      "/src" = .ok visits)
    (hsources : sourcesOf visits = [s, t]) (hmade : files.makeDirs "/out" = .ok files)
    (hbatch : ((leftoverRequest none).runBatch mixedParser ((leftoverRequest none).optionsOver {})
        files [] [s, t]).fatal = none ∧
      (pairBatch files).fate ⟨t, ((pairBatch files).process files s).1⟩ = .failed e ∧
      ((leftoverRequest none).runBatch mixedParser ((leftoverRequest none).optionsOver {})
        files [] [s, t]).files.isFile (Path.join "/out" (outputOf t.rel)) = true) :
    ∃ c : Completed mixedParser "/home" (leftoverRequest none) files,
      c.sources = [s, t] ∧ c.FailsBesideOutput := by
  obtain ⟨hfatal, hfate, hfile⟩ := hbatch
  -- The run goes through, as its batch does.
  obtain ⟨c, hc, hsources, hmade, hfiles⟩ :=
    exists_completed hconfig hstart hvisits hsources hmade hfatal
  obtain ⟨hbatch, hsteps⟩ := c.batch_and_steps_eq hc hsources hmade
  -- The second source is dealt with behind the first, whose output has the same name.
  refine ⟨c, hsources, ⟨t, ((pairBatch files).process files s).1⟩, ?_, ⟨e, ?_⟩, ?_⟩
  · rw [hsteps]
    exact List.mem_cons_of_mem _ List.mem_cons_self
  · show c.batch.fate _ = _
    rw [hbatch]
    exact hfate
  · rw [hfiles]
    exact hfile

/-- A source that fails may have a file at its output: the output of an earlier run, the metrics of
    the run, or the output of another source, if backslashes in names make their outputs the same
    one. -/
theorem failed_beside_output :
    (∃ past, History mixedParser ["out"] staleFiles past ∧
      ∃ c : Completed mixedParser "/home" (leftoverRequest none) staleFiles,
        c.WritesInto ["out"] ∧ c.FailsBesideOutput) ∧
    (Vacant (leftoverFiles "B" []) ["out"] ∧
      ∃ c : Completed mixedParser "/home" (leftoverRequest (some "/out/A.java.ast"))
          (leftoverFiles "B" []),
        c.WritesInto ["out"] ∧ c.FailsBesideOutput) ∧
    (Vacant crossedFiles ["out"] ∧
      ∃ c : Completed mixedParser "/home" (leftoverRequest none) crossedFiles,
        (c.sources.map (·.rel)).Nodup ∧ c.FailsBesideOutput) ∧
    (Vacant collidingFiles ["out"] ∧
      ∃ c : Completed mixedParser "/home" (leftoverRequest none) collidingFiles,
        (∀ s ∈ c.sources, Path.IsRelative s.rel) ∧ c.FailsBesideOutput) := by
  refine ⟨?stale, ⟨vacant_of_get? rfl, ?metrics⟩, ⟨vacant_of_get? rfl, ?crossed⟩,
    vacant_of_get? rfl, ?colliding⟩
  -- The output is left over from an earlier run.
  case stale =>
    obtain ⟨past, hhistory, c, hinto, hsteps, hfate, hfile⟩ := exists_staleRun
    refine ⟨past, hhistory, c, hinto, ⟨leftoverSource, staleFiles⟩, ?_, ⟨_, hfate⟩, hfile⟩
    rw [hsteps]
    exact List.mem_singleton_self _
  -- The metrics of the run itself are written where the output would be.
  case metrics =>
    obtain ⟨c, hinto, hbatch, hsteps, hfiles⟩ :=
      @exists_leftoverRun mixedParser (some "/out/A.java.ast") "B" [] (by decide +kernel)
    refine ⟨c, hinto, ⟨leftoverSource, leftoverFiles "B" []⟩, ?_,
      ⟨.incomplete "/src/A.java", ?_⟩, ?_⟩
    · rw [hsteps]
      exact List.mem_singleton_self _
    · show c.batch.fate _ = _
      rw [hbatch]
      decide
    · rw [hfiles]
      decide +kernel
  -- A name with backslashes leads out of its folder, to the output of the other source.
  case crossed =>
    have hvisits : crossedFiles.visits (crossedFiles.isExcluded ((leftoverRequest none).patterns {})
        0) Path.isJava "/src" =
        .ok [.directory "/src", .accepted ⟨"a/../b.java", "/src/a\\..\\b.java"⟩,
          .accepted ⟨"b.java", "/src/b.java"⟩] := rfl
    have hsorted : [(⟨"a/../b.java", "/src/a\\..\\b.java"⟩ : SourceFile),
        ⟨"b.java", "/src/b.java"⟩].Pairwise (fun a b => a.isLE b = true) := by
      decide
    obtain ⟨c, hsources, hfails⟩ := @exists_pairRun _ _ _ _ (.incomplete "/src/b.java")
      (by decide) (by decide) hvisits (List.mergeSort_of_pairwise hsorted) rfl
      (by decide +kernel)
    refine ⟨c, ?_, hfails⟩
    rw [hsources]
    decide
  -- Two sources have one relative path, so one of them writes the output of the other.
  case colliding =>
    have hvisits : collidingFiles.visits (collidingFiles.isExcluded
        ((leftoverRequest none).patterns {}) 0) Path.isJava "/src" =
        .ok [.directory "/src", .directory "/src/a", .accepted ⟨"a/b.java", "/src/a/b.java"⟩,
          .accepted ⟨"a/b.java", "/src/a\\b.java"⟩] := rfl
    have hsorted : [(⟨"a/b.java", "/src/a/b.java"⟩ : SourceFile),
        ⟨"a/b.java", "/src/a\\b.java"⟩].Pairwise (fun a b => a.isLE b = true) := by
      decide
    obtain ⟨c, hsources, hfails⟩ := @exists_pairRun _ _ _ _ (.incomplete "/src/a\\b.java")
      (by decide) (by decide) hvisits (List.mergeSort_of_pairwise hsorted) rfl
      (by decide +kernel)
    refine ⟨c, ?_, hfails⟩
    rw [hsources]
    have hrel : Path.IsRelative "a/b.java" := ⟨["a"], "b.java", by decide, by decide⟩
    intro s hs
    rcases List.mem_pair.1 hs with rfl | rfl <;> exact hrel

end JavaOutline.Command

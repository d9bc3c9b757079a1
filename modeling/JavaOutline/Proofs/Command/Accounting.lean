import JavaOutline.Proofs.Command.Fates

/-!
# What a run accounts for

The metrics, the exit code and the manifest of a completed run are all told by the fates of its
sources.  Every source counts once, but for one whose outline cannot be written: it counts as
extracted and as failed.

A source that a run found is still there when it is dealt with, as nothing else changes the files.
A batch is accounted for whatever its sources are, so also where one of them cannot be read.

## Key results

- `Batch.accounts_for_steps`: what any batch counts and records, from any files on
- `ExtractRequest.exitCode_runBatch`: the exit code of a run on any sources
- `Completed.total_metrics`: how often the sources of a run are counted
- `Completed.accounts_for_sources`: failures, exit code and manifest agree
-/

namespace JavaOutline

/-! ## Counts -/

namespace Metrics

/-- Totals add up. -/
theorem total_merge (m other : Metrics) : (m.merge other).total = m.total + other.total := by
  simp only [merge, total, failures]
  omega

/-- Failures add up. -/
theorem failures_merge (m other : Metrics) :
    (m.merge other).failures = m.failures + other.failures := by
  simp only [merge, failures]
  omega

/-- A failure to read or to parse counts once, and as nothing else. -/
theorem recordError_eq {e : ExtractError} (h : e.isIo = true ∨ e.isParse = true) :
    recordError {} e = { ioErrors := 1 } ∨ recordError {} e = { parseErrors := 1 } := by
  unfold recordError
  by_cases hio : e.isIo = true
  · left
    rw [if_pos hio]
  · right
    rw [if_neg hio, if_pos (h.resolve_left hio)]

end Metrics

namespace Command

open FileSystem (Grew)

namespace Batch

variable {b : Batch} {step : Step} {after : FileSystem} {fate : Fate} {sources : List SourceFile}

/-- Every failure counts as one, and nothing else does. -/
theorem Dealt.failures_eq (h : Dealt b step after fate) :
    fate.metrics.failures = if fate.isFailure then 1 else 0 := by
  cases h with
  | failed e houtcome =>
    show (Metrics.recordError {} e).failures = 1
    -- A failure of another kind would not be counted, but extraction has none.
    rcases Metrics.recordError_eq (isIo_or_isParse_of_extractFile houtcome) with h | h <;>
      rw [h] <;> rfl
  | unreadable | unchanged | passedOver | unwritten | written => rfl

/-- A source counts once, unless its outline could not be written. -/
theorem Dealt.total_eq (h : Dealt b step after fate) :
    fate.metrics.total = if fate.isUnwritten then 2 else 1 := by
  cases h with
  | failed e houtcome =>
    show (Metrics.recordError {} e).total = 1
    -- The two kinds of failures that extraction has count once each.
    rcases Metrics.recordError_eq (isIo_or_isParse_of_extractFile houtcome) with h | h <;>
      rw [h] <;> rfl
  | unreadable | unchanged | passedOver | unwritten | written => rfl

/-- A source counts as what its fate says. -/
theorem metrics_process (hjava : Path.isJava step.source.path = true) :
    (b.process step.before step.source).2.metrics = (b.fate step).metrics :=
  congrArg FileResult.metrics (process_spec hjava).1

/-- A source fails if its fate is a failure. -/
theorem failed_process (hjava : Path.isJava step.source.path = true) :
    (b.process step.before step.source).2.failed = (b.fate step).isFailure :=
  congrArg FileResult.failed (process_spec hjava).1

/-- The sources of a batch are counted once, and those that could not be written once more. -/
theorem total_processAll (hjava : ∀ s ∈ sources, Path.isJava s.path = true) (fs : FileSystem) :
    (metricsOf (b.processAll fs sources).2).total =
      sources.length + (b.steps fs sources).countP fun step => (b.fate step).isUnwritten := by
  -- By induction on the sources, for any files to start from, as each source may change them.
  induction sources generalizing fs with
  | nil => rfl
  | cons s sources ih =>
    rw [List.forall_mem_cons] at hjava
    have hdealt := (@process_spec b ⟨s, fs⟩ hjava.1).2
    have hmetrics := @metrics_process b ⟨s, fs⟩ hjava.1
    rw [processAll_cons, metricsOf_cons, Metrics.total_merge, hmetrics, hdealt.total_eq,
      ih hjava.2, steps, List.countP_cons, List.length_cons]
    split <;> omega

/-- The failures that a batch counts are those of its sources. -/
theorem failures_processAll (hjava : ∀ s ∈ sources, Path.isJava s.path = true) (fs : FileSystem) :
    (metricsOf (b.processAll fs sources).2).failures =
      (b.steps fs sources).countP fun step => (b.fate step).isFailure := by
  -- As for the total, by induction on the sources, from any files on.
  induction sources generalizing fs with
  | nil => rfl
  | cons s sources ih =>
    rw [List.forall_mem_cons] at hjava
    have hdealt := (@process_spec b ⟨s, fs⟩ hjava.1).2
    have hmetrics := @metrics_process b ⟨s, fs⟩ hjava.1
    rw [processAll_cons, metricsOf_cons, Metrics.failures_merge, hmetrics,
      hdealt.failures_eq, ih hjava.2, steps, List.countP_cons]
    omega

/-- The sources that failed are those whose fate is a failure. -/
theorem failedCount_processAll (hjava : ∀ s ∈ sources, Path.isJava s.path = true)
    (fs : FileSystem) :
    failedCount (b.processAll fs sources).2 =
      (b.steps fs sources).countP fun step => (b.fate step).isFailure := by
  rw [failedCount, processAll_eq_map_steps, List.countP_map]
  -- Both sides count along the same steps, so each step is looked at alone.
  apply List.countP_congr
  intro step hstep
  rw [Function.comp_apply, failed_process (hjava _ (source_mem_of_mem_steps hstep))]

/-- A source that cannot be read has only this fate. -/
theorem fate_of_readBytes {e : FileError}
    (h : step.before.readBytes step.source.path = .error e) : b.fate step = .unreadable e := by
  rw [fate, h]

/-- A batch of sources with different relative paths accounts for each of them, whatever files it
    starts from and whether or not the source can be read then.  It counts every source once, and
    those whose outline could not be written once more.  Its failures are counted, to which a source
    that cannot be read belongs.  Recorded are the sources that neither failed nor were passed over,
    each with the hash of the content that was read and an output that is there. -/
theorem accounts_for_steps {fs : FileSystem} (hfs : fs.Grounded)
    (hjava : ∀ s ∈ sources, Path.isJava s.path = true) (hnodup : (sources.map (·.rel)).Nodup)
    (hprevious : ∀ rel e, b.previous.files.get? rel = some e → e.output = outputOf rel)
    (fingerprint : String) :
    (metricsOf (b.processAll fs sources).2).total =
      sources.length + ((b.steps fs sources).countP fun step => (b.fate step).isUnwritten) ∧
    failedCount (b.processAll fs sources).2 = (metricsOf (b.processAll fs sources).2).failures ∧
    failedCount (b.processAll fs sources).2 =
      ((b.steps fs sources).countP fun step => (b.fate step).isFailure) ∧
    (b.steps fs sources).map (·.source) = sources ∧
    ∀ step ∈ b.steps fs sources,
      (∀ e, step.before.readBytes step.source.path = .error e → b.fate step = .unreadable e) ∧
      (((manifestOf fingerprint (b.processAll fs sources).2).files.get?
          step.source.rel).isSome = true ↔
        (b.fate step).isFailure = false ∧ b.fate step ≠ .passedOver) ∧
      ∀ e, (manifestOf fingerprint (b.processAll fs sources).2).files.get? step.source.rel =
          some e →
        e.output = outputOf step.source.rel ∧
        (∃ content, step.before.readBytes step.source.path = .ok content ∧
          e.hash = Blake3.hexHash content) ∧
        (b.processAll fs sources).1.isFile (Path.join b.outDir e.output) = true := by
  have hfailed := failedCount_processAll (b := b) hjava fs
  refine ⟨total_processAll hjava fs, ?_, hfailed, map_source_steps b fs sources, ?_⟩
  · rw [hfailed, failures_processAll hjava fs]
  · intro step hstep
    have hdealt := (process_spec (b := b) (hjava _ (source_mem_of_mem_steps hstep))).2
    rw [get?_manifestOf_steps fingerprint hjava hnodup hstep]
    refine ⟨fun e => fate_of_readBytes, Fate.isSome_recorded?_iff _ _, fun e he => ?_⟩
    -- Only an output that was written or found unchanged is recorded, and it stays to the end.
    obtain ⟨houtput, hhash⟩ := hdealt.recorded hprevious he
    exact ⟨houtput, hhash, isFile_of_recorded hfs hjava hstep he⟩

/-- In any batch a source that is not there is one failure, and nothing is recorded of it. -/
example (b : Batch) (fingerprint : String) :
    let done := b.processAll ⟨.dir [], []⟩ [⟨"A.java", "/src/A.java"⟩]
    metricsOf done.2 = { ioErrors := 1 } ∧ failedCount done.2 = 1 ∧
      (manifestOf fingerprint done.2).files.get? "A.java" = none := ⟨rfl, rfl, rfl⟩

end Batch

/-! ## Exit codes -/

namespace ExtractRequest

variable {r : ExtractRequest}

/-- Once the manifest is saved, a run that is not broken off exits with 1 if a source failed, and
    with 0 otherwise. -/
theorem exitCode_finish {fs : FileSystem} {events : List Event} {results : List FileResult}
    (h : (r.finish fs events results).fatal = none) :
    (r.finish fs events results).exitCode = if failedCount results = 0 then 0 else 1 := by
  unfold finish at h ⊢
  simp only at h ⊢
  split at h
  · rfl
  · rfl
  · -- Only metrics that cannot be written would break the run off here.
    split at h
    · rfl
    · exact nomatch h

/-- A run on some sources, wherever they come from, exits with 1 if one of them failed, and with 0
    otherwise. -/
theorem exitCode_runBatch {parser : Parser} {config : Config} {fs made : FileSystem}
    {events : List Event} {sources : List SourceFile} (hmade : fs.makeDirs r.out = .ok made)
    (hjava : ∀ s ∈ sources, Path.isJava s.path = true)
    (hfatal : (r.runBatch parser (r.optionsOver config.extract) fs events sources).fatal = none) :
    (r.runBatch parser (r.optionsOver config.extract) fs events sources).exitCode =
      if ∃ step ∈ (r.batch parser config made).steps made sources,
        ((r.batch parser config made).fate step).isFailure = true then 1 else 0 := by
  have hfailed := Batch.failedCount_processAll (b := r.batch parser config made) hjava made
  unfold batch at hfailed ⊢
  unfold runBatch at hfatal ⊢
  simp only [hmade] at hfatal ⊢
  -- A manifest that cannot be saved breaks the run off.
  split at hfatal
  · exact nomatch hfatal
  · rw [exitCode_finish hfatal, hfailed]
    simp only [List.countP_eq_zero]
    -- No failure is counted exactly if no step has failed.
    split <;> rename_i h
    · rw [if_neg fun ⟨step, hstep, hfailure⟩ => h step hstep hfailure]
    · rw [if_pos (by simpa using h)]

end ExtractRequest

/-! ## Completed runs -/

namespace Completed

variable {parser : Parser} {home : String} {r : ExtractRequest} {fs : FileSystem}
  (c : Completed parser home r fs)

/-- The batch of a completed run. -/
def batch : Batch :=
  r.batch parser c.config c.made

/-- The steps of a completed run. -/
def steps : List Step :=
  c.batch.steps c.made c.sources

/-- What became of a source in a completed run. -/
def fate (step : Step) : Fate :=
  c.batch.fate step

/-- The steps of a run are about its sources in order. -/
theorem map_source_steps : c.steps.map (·.source) = c.sources :=
  Batch.map_source_steps c.batch c.made c.sources

/-- The batch and the steps of a run with known stages. -/
theorem batch_and_steps_eq {config : Config} {sources : List SourceFile} {made : FileSystem}
    (hconfig : c.config = config) (hsources : c.sources = sources) (hmade : c.made = made) :
    c.batch = r.batch parser config made ∧
      c.steps = (r.batch parser config made).steps made sources := by
  subst hconfig hsources hmade
  exact ⟨rfl, rfl⟩

/-- All sources of a run are Java sources. -/
theorem isJava_of_mem_sources : ∀ s ∈ c.sources, Path.isJava s.path = true :=
  fun _ hs => accept_of_mem_sourcesOf c.visits_eq hs

theorem processAll_eq : c.batch.processAll c.made c.sources = (c.written, c.results) :=
  c.written_eq

/-- A completed run exits with 1 if a source failed, and with 0 otherwise. -/
theorem exitCode_runAll :
    (r.runAll parser home fs).exitCode = if failedCount c.results = 0 then 0 else 1 := by
  obtain ⟨before, heq⟩ := c.exists_runAll_eq
  have hfatal := c.completed
  rw [heq] at hfatal ⊢
  exact ExtractRequest.exitCode_finish hfatal

/-! ## Files -/

/-- Making the output directory and dealing with the sources takes nothing away. -/
theorem grounded_written (hfs : fs.Grounded) : c.written.Grounded := by
  -- Making the directory and writing the outputs only adds to the files.
  have hmade := (FileSystem.grew_makeDirs hfs c.made_eq).grounded hfs
  have hgrew := Batch.grew_processAll (b := c.batch) hmade c.isJava_of_mem_sources
  rw [c.processAll_eq] at hgrew
  exact hgrew.grounded hmade

/-- Saving the manifest and handing out the metrics takes nothing away. -/
theorem grew_written (hfs : fs.Grounded) :
    Grew (fun _ => True) c.written (r.runAll parser home fs).files := by
  obtain ⟨p, -, hsaved, -, -⟩ :=
    FileSystem.grew_writeBytes (c.grounded_written hfs) c.saved_eq
  have hgrew : Grew (fun _ => True) c.written c.saved := hsaved.mono fun _ _ => trivial
  -- What is left is to write the metrics, if they go to a file.
  rcases c.runAll_spec.1 with heq | ⟨path, -, -, hwrite⟩
  · rw [heq]
    exact hgrew
  · obtain ⟨q, -, hmetrics, -, -⟩ :=
      FileSystem.grew_writeBytes (hgrew.grounded (c.grounded_written hfs)) hwrite
    exact hgrew.trans (hmetrics.mono fun _ _ => trivial)

/-- The manifest that a run saves is read again. -/
theorem read?_saved (hfs : fs.Grounded) : Manifest.read? c.saved r.out = some c.manifest := by
  obtain ⟨p, -, hgrew, hleads, hfile⟩ :=
    FileSystem.grew_writeBytes (c.grounded_written hfs) c.saved_eq
  apply Manifest.read?_of_encode
  exact (FileSystem.readBytes_eq_ok_iff (hgrew.grounded (c.grounded_written hfs))).2
    ⟨p.place, hleads, hfile⟩

/-- The manifest of a run on sources with different relative paths records of each what its fate
    says. -/
theorem get?_manifest (hnodup : (c.sources.map (·.rel)).Nodup) {step : Step}
    (hstep : step ∈ c.steps) :
    c.manifest.files.get? step.source.rel = (c.fate step).recorded? step.source.rel := by
  have hget := Batch.get?_manifestOf_steps (fingerprint c.options r.all)
    c.isJava_of_mem_sources hnodup hstep
  rwa [c.processAll_eq] at hget

/-! ## Results -/

/-- The sources of a completed run are counted once, and those whose outline could not be written
    once more. -/
theorem total_metrics :
    c.metrics.total =
      c.sources.length + c.steps.countP fun step => (c.fate step).isUnwritten := by
  have htotal := Batch.total_processAll (b := c.batch) c.isJava_of_mem_sources c.made
  rwa [c.processAll_eq] at htotal

/-- A completed run on sources with different relative paths counts its failures, exits with 1 if
    there are any and with 0 otherwise, and saves a manifest that records the sources that neither
    failed nor were passed over, each with the hash of the content that was read and an output that
    is there. -/
theorem accounts_for_sources (hfs : fs.Grounded) (hnodup : (c.sources.map (·.rel)).Nodup)
    (hprevious : ∀ rel e, c.batch.previous.files.get? rel = some e → e.output = outputOf rel) :
    failedCount c.results = c.metrics.failures ∧
    ((r.runAll parser home fs).exitCode = 1 ↔ 0 < failedCount c.results) ∧
    ((r.runAll parser home fs).exitCode = 0 ↔ failedCount c.results = 0) ∧
    Manifest.read? c.saved r.out = some c.manifest ∧
    c.steps.map (·.source) = c.sources ∧
    failedCount c.results = (c.steps.countP fun step => (c.fate step).isFailure) ∧
    ∀ step ∈ c.steps,
      ((c.manifest.files.get? step.source.rel).isSome = true ↔
        (c.fate step).isFailure = false ∧ c.fate step ≠ .passedOver) ∧
      ∀ e, c.manifest.files.get? step.source.rel = some e →
        e.output = outputOf step.source.rel ∧
        (∃ content, step.before.readBytes step.source.path = .ok content ∧
          e.hash = Blake3.hexHash content) ∧
        (r.runAll parser home fs).files.isFile (Path.join r.out e.output) = true := by
  have hmade := (FileSystem.grew_makeDirs hfs c.made_eq).grounded hfs
  obtain ⟨-, hfailures, hfailed, hsources, hrecorded⟩ := Batch.accounts_for_steps (b := c.batch)
    hmade c.isJava_of_mem_sources hnodup hprevious (fingerprint c.options r.all)
  rw [c.processAll_eq] at hfailures hfailed hrecorded
  have hcode := c.exitCode_runAll
  refine ⟨hfailures, ?_, ?_, c.read?_saved hfs, hsources, hfailed, fun step hstep => ?_⟩
  · rw [hcode]
    split <;> omega
  · rw [hcode]
    split <;> omega
  · obtain ⟨-, hsome, hentry⟩ := hrecorded step hstep
    refine ⟨hsome, fun e he => ?_⟩
    obtain ⟨houtput, hhash, hfile⟩ := hentry e he
    -- What comes after the batch, the manifest and the metrics, takes no output away.
    exact ⟨houtput, hhash, (c.grew_written hfs).isFile (c.grounded_written hfs) hfile⟩

end Completed

/-! ## A run with three fates -/

/-- Three sources and an output directory where the output of the last one cannot be written. -/
def mixedFiles : FileSystem where
  root := .dir [
    ("src", .dir [("A.java", .file (utf8 "A")), ("B.java", .file (utf8 "B")),
      ("C.java", .file (utf8 "A"))]),
    ("out", .dir [("C.java.ast", .dir [])])]
  workingDir := []

/-- A request to extract all sources. -/
def mixedRequest : ExtractRequest := { path := "/src", out := "/out", all := true }

/-- A parser that gives up on the second source. -/
def mixedParser : Parser := fun source => if source = "A" then some { kind := "program" } else none

/-- The three sources. -/
def mixedSources : List SourceFile :=
  [⟨"A.java", "/src/A.java"⟩, ⟨"B.java", "/src/B.java"⟩, ⟨"C.java", "/src/C.java"⟩]

/-- The batch of the three sources. -/
def mixedBatch : Batch :=
  mixedRequest.batch mixedParser {} mixedFiles

/-- A run on the three sources completes. -/
theorem exists_mixedRun : ∃ c : Completed mixedParser "/home" mixedRequest mixedFiles,
    c.sources = mixedSources ∧ c.batch = mixedBatch ∧
      c.steps = mixedBatch.steps mixedFiles mixedSources := by
  -- The stages one after the other; there is no configuration file.
  have hconfig : Config.load mixedFiles "/home" = .ok {} := by decide
  have hstart : mixedFiles.canonical mixedRequest.path = .ok "/src" := by decide
  have hvisits : mixedFiles.visits (mixedFiles.isExcluded (mixedRequest.patterns {})
      mixedRequest.maxFileSize) Path.isJava "/src" =
      .ok (.directory "/src" :: mixedSources.map .accepted) := rfl
  -- The walk finds the sources in their order already.
  have hsorted : mixedSources.Pairwise (fun a b => a.isLE b = true) := by decide
  have hsources : sourcesOf (.directory "/src" :: mixedSources.map .accepted) = mixedSources :=
    List.mergeSort_of_pairwise hsorted
  have hmade : mixedFiles.makeDirs mixedRequest.out = .ok mixedFiles := rfl
  -- Only the batch itself is run, as what was logged before plays no part in it.
  have hfatal :
      (mixedRequest.runBatch mixedParser (mixedRequest.optionsOver {}) mixedFiles []
        mixedSources).fatal = none := by
    decide +kernel
  obtain ⟨c, hc, hsources, hmade, -⟩ :=
    exists_completed hconfig hstart hvisits hsources hmade hfatal
  obtain ⟨hbatch, hsteps⟩ := c.batch_and_steps_eq hc hsources hmade
  exact ⟨c, hsources, hbatch, hsteps⟩

namespace Completed

/-- One of the three sources is counted twice: its outline is there, but cannot be written. -/
theorem total_metrics_mixed : ∃ c : Completed mixedParser "/home" mixedRequest mixedFiles,
    c.sources.length = 3 ∧ c.metrics.total = 4 := by
  obtain ⟨c, hsources, hbatch, hsteps⟩ := exists_mixedRun
  have hlength : c.sources.length = 3 := by
    rw [hsources]
    rfl
  -- The directory that stands where the last output belongs cannot be written over.
  have hunwritten : (c.steps.countP fun step => (c.fate step).isUnwritten) = 1 := by
    simp only [fate, hbatch, hsteps]
    decide +kernel
  refine ⟨c, hlength, ?_⟩
  rw [c.total_metrics, hlength, hunwritten]

/-- Two of the three sources fail, and only the other one is recorded. -/
theorem accounts_for_sources_mixed : ∃ c : Completed mixedParser "/home" mixedRequest mixedFiles,
    failedCount c.results = 2 ∧ c.metrics.failures = 2 ∧
    (mixedRequest.runAll mixedParser "/home" mixedFiles).exitCode = 1 ∧
    ∀ step ∈ c.steps, ((c.manifest.files.get? step.source.rel).isSome = true ↔
      (c.fate step).isFailure = false ∧ c.fate step ≠ .passedOver) := by
  obtain ⟨c, hsources, hbatch, hsteps⟩ := exists_mixedRun
  have hnodup : (c.sources.map (·.rel)).Nodup := by
    rw [hsources]
    decide
  have hprevious : ∀ rel e, c.batch.previous.files.get? rel = some e → e.output = outputOf rel := by
    -- There is no manifest before the run.
    have hread : Manifest.read? mixedFiles "/out" = none := by decide
    have hnone : mixedBatch.previous = { fingerprint := fingerprint {} true } := by
      show Manifest.load mixedFiles "/out" (fingerprint {} true) = _
      rw [Manifest.load_eq, hread]
    intro rel e he
    rw [hbatch, hnone] at he
    exact nomatch he
  -- The parser gives up on the second source, and the third cannot be written.
  have hfailed : (c.steps.countP fun step => (c.fate step).isFailure) = 2 := by
    simp only [fate, hbatch, hsteps]
    decide +kernel
  obtain ⟨hmetrics, hcode, -, -, -, hcount, hrecorded⟩ :=
    c.accounts_for_sources ⟨_, rfl⟩ hnodup hprevious
  rw [hfailed] at hcount
  refine ⟨c, hcount, hmetrics.symm.trans hcount, hcode.2 (by omega), fun step hstep => ?_⟩
  exact (hrecorded step hstep).1

end Completed

end Command

end JavaOutline

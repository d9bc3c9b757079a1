import JavaOutline.Command.Run
import JavaOutline.Proofs.Command.Batch

/-!
# Completed runs

A run that was not broken off went through all its stages.  `Completed` holds what each stage
gave, so that facts about a run are put together from facts about its stages.

## Key results

- `nonempty_completed`: a run that was not broken off has its stages
- `Completed.runAll_spec`: what a completed run ends with
- `exists_completed`: the stages of a run whose sources are known
-/

namespace JavaOutline.Command

/-- The batch of a run with a configuration, once its output directory is made. -/
def ExtractRequest.batch (r : ExtractRequest) (parser : Parser) (config : Config)
    (made : FileSystem) : Batch where
  parser
  options := r.optionsOver config.extract
  all := r.all
  outDir := r.out
  previous := Manifest.load made r.out (fingerprint (r.optionsOver config.extract) r.all)

/-- A run that was not broken off, with its stages: what it read, the output directory made, the
    sources dealt with and the manifest saved. -/
structure Completed (parser : Parser) (home : String) (r : ExtractRequest) (fs : FileSystem) where
  config : Config
  config_eq : Config.load fs home = .ok config
  start : String
  start_eq : fs.canonical r.path = .ok start
  visits : List Visit
  visits_eq : fs.visits (fs.isExcluded (r.patterns config) r.maxFileSize) Path.isJava start =
    .ok visits
  made : FileSystem
  made_eq : fs.makeDirs r.out = .ok made
  written : FileSystem
  results : List FileResult
  written_eq : (r.batch parser config made).processAll made (sourcesOf visits) = (written, results)
  saved : FileSystem
  saved_eq : (manifestOf (fingerprint (r.optionsOver config.extract) r.all) results).save written
    r.out = .ok saved
  completed : (r.runAll parser home fs).fatal = none

/-- Whether no output of a run failed to be written. -/
def Outcome.WroteAll (outcome : Outcome) : Prop :=
  ∀ e ∈ outcome.events, e.message ≠ "Failed to write output"

instance (outcome : Outcome) : Decidable outcome.WroteAll :=
  inferInstanceAs (Decidable (∀ e ∈ outcome.events, e.message ≠ "Failed to write output"))

section

variable {parser : Parser} {home : String} {r : ExtractRequest} {fs : FileSystem}

/-- Every run without a cause to break off has its stages. -/
theorem nonempty_completed (h : (r.runAll parser home fs).fatal = none) :
    Nonempty (Completed parser home r fs) := by
  have hrun := h
  -- Every stage that fails breaks the run off.
  unfold ExtractRequest.runAll at h
  split at h
  · exact nomatch h
  rename_i config hconfig
  simp only at h
  split at h
  · exact nomatch h
  rename_i start hstart
  split at h
  · exact nomatch h
  rename_i visits hvisits
  unfold ExtractRequest.runBatch at h
  split at h
  · exact nomatch h
  rename_i made hmade
  simp only at h
  split at h
  · exact nomatch h
  rename_i saved hsaved
  exact ⟨⟨config, hconfig, start, hstart, visits, hvisits, made, hmade, _, _, rfl, saved, hsaved,
    hrun⟩⟩

/-- A run that finds its sources goes on with their batch. -/
theorem runAll_eq_runBatch {config : Config} {start : String} {visits : List Visit}
    (hconfig : Config.load fs home = .ok config) (hstart : fs.canonical r.path = .ok start)
    (hvisits : fs.visits (fs.isExcluded (r.patterns config) r.maxFileSize) Path.isJava start =
      .ok visits) :
    r.runAll parser home fs = r.runBatch parser (r.optionsOver config.extract) fs
      (r.debugEvents ++ r.startEvents (r.optionsOver config.extract) start ++
        ExtractRequest.patternEvents config ++ visits.flatMap visitEvents ++
        [ExtractRequest.queuedEvent (sourcesOf visits)]) (sourcesOf visits) := by
  unfold ExtractRequest.runAll
  simp only [hconfig, hstart, hvisits]

namespace Completed

variable (c : Completed parser home r fs)

/-- The options of a completed run. -/
def options : ExtractOptions :=
  r.optionsOver c.config.extract

/-- The sources of a completed run. -/
def sources : List SourceFile :=
  sourcesOf c.visits

/-- The manifest of a completed run. -/
def manifest : Manifest :=
  manifestOf (fingerprint c.options r.all) c.results

/-- The counts of a completed run. -/
def metrics : Metrics :=
  metricsOf c.results

/-- A directory that the request leads to stays the one that it leads to once it is made. -/
theorem follow_made {o : List String} (hfs : fs.Grounded)
    (h : fs.follow (fs.start r.out) (Path.parts r.out) = .ok (.found o)) :
    c.made.follow (c.made.start r.out) (Path.parts r.out) = .ok (.found o) := by
  have hgrew := FileSystem.grew_makeDirs hfs c.made_eq
  have hleads := (FileSystem.follow_eq_ok_iff (hfs.start r.out)).1 h
  rw [FileSystem.follow_eq_ok_iff ((hgrew.grounded hfs).start r.out), hgrew.start_eq]
  exact hleads.keeps hgrew.root

/-- A completed run ends by handing out its metrics, once its results are logged. -/
theorem exists_runAll_eq : ∃ before, r.runAll parser home fs =
    r.finish c.saved (before ++ c.results.flatMap (·.events)) c.results := by
  -- The stages say which branch is taken everywhere.
  have hwritten := c.written_eq
  unfold ExtractRequest.batch at hwritten
  rw [runAll_eq_runBatch c.config_eq c.start_eq c.visits_eq]
  unfold ExtractRequest.runBatch
  simp only [c.made_eq, hwritten, c.saved_eq]
  exact ⟨_, rfl⟩

/-- What a completed run ends with: the files with the manifest saved, but for the metrics, and all
    that was logged about the sources. -/
theorem runAll_spec :
    ((r.runAll parser home fs).files = c.saved ∨
      ∃ path, r.metrics = some path ∧ path ≠ "-" ∧
        c.saved.writeBytes path c.metrics.toJson.pretty = .ok (r.runAll parser home fs).files) ∧
    ∀ result ∈ c.results, ∀ e ∈ result.events, e ∈ (r.runAll parser home fs).events := by
  obtain ⟨before, heq⟩ := c.exists_runAll_eq
  have hfatal := c.completed
  -- Nothing that was logged about a result is dropped on the way to the end.
  have hevents : ∀ result ∈ c.results, ∀ e ∈ result.events,
      e ∈ before ++ c.results.flatMap (·.events) ++ [ExtractRequest.completedEvent c.results] := by
    intro result hresult e he
    have hlogged : e ∈ c.results.flatMap (·.events) := List.mem_flatMap.2 ⟨result, hresult, he⟩
    exact List.mem_append_left _ (List.mem_append_right before hlogged)
  rw [heq] at hfatal ⊢
  unfold ExtractRequest.finish at hfatal ⊢
  simp only at hfatal ⊢
  -- Without metrics, or with metrics that join the log, the saved files are the last ones.
  split at hfatal
  · exact ⟨.inl rfl, hevents⟩
  · exact ⟨.inl rfl, hevents⟩
  · rename_i path hne hpath
    change (_ ∨ ∃ path, _ ∧ _ ∧ c.saved.writeBytes path (metricsOf c.results).toJson.pretty = _) ∧ _
    cases hwrite : c.saved.writeBytes path (metricsOf c.results).toJson.pretty with
    -- Metrics that cannot be written would have broken the run off.
    | error e =>
      rw [hwrite] at hfatal
      exact nomatch hfatal
    | ok files => exact ⟨.inr ⟨path, hpath, hne, hwrite⟩, hevents⟩

/-- In a run that wrote every output, every source was written. -/
theorem wrote (h : (r.runAll parser home fs).WroteAll) : ∀ result ∈ c.results, Batch.Wrote result :=
  fun result hresult e he => h e (c.runAll_spec.2 result hresult e he)

end Completed

/-! ## Runs with known stages -/

/-- What was logged before plays no part in how a batch ends. -/
theorem runBatch_congr_events {options : ExtractOptions} (events events' : List Event)
    (sources : List SourceFile) :
    (r.runBatch parser options fs events sources).fatal =
        (r.runBatch parser options fs events' sources).fatal ∧
      (r.runBatch parser options fs events sources).files =
        (r.runBatch parser options fs events' sources).files := by
  -- Every stage decides by the files alone.
  unfold ExtractRequest.runBatch
  split
  · exact ⟨rfl, rfl⟩
  simp only
  split
  · exact ⟨rfl, rfl⟩
  unfold ExtractRequest.finish
  simp only
  split
  · exact ⟨rfl, rfl⟩
  · exact ⟨rfl, rfl⟩
  · split <;> exact ⟨rfl, rfl⟩

/-- A run completes if its batch does, and its stages are those of the batch. -/
theorem exists_completed {config : Config} {start : String} {visits : List Visit}
    {sources : List SourceFile} {made : FileSystem} (hconfig : Config.load fs home = .ok config)
    (hstart : fs.canonical r.path = .ok start)
    (hvisits : fs.visits (fs.isExcluded (r.patterns config) r.maxFileSize) Path.isJava start =
      .ok visits) (hsources : sourcesOf visits = sources) (hmade : fs.makeDirs r.out = .ok made)
    (hfatal : (r.runBatch parser (r.optionsOver config.extract) fs [] sources).fatal = none) :
    ∃ c : Completed parser home r fs, c.config = config ∧ c.sources = sources ∧ c.made = made ∧
      (r.runAll parser home fs).files =
        (r.runBatch parser (r.optionsOver config.extract) fs [] sources).files := by
  have hrun := @runAll_eq_runBatch parser home r fs _ _ _ hconfig hstart hvisits
  rw [hsources] at hrun
  have hend := @runBatch_congr_events parser r fs (r.optionsOver config.extract)
  -- The stages before the batch are known, so the run ends as the batch does.
  have hcompleted : (r.runAll parser home fs).fatal = none := by
    rw [hrun, (hend _ [] _).1]
    exact hfatal
  -- The stages of the run are determined by the request and the files.
  obtain ⟨c⟩ := nonempty_completed hcompleted
  refine ⟨c, Except.ok.inj (c.config_eq.symm.trans hconfig), ?_,
    Except.ok.inj (c.made_eq.symm.trans hmade), ?_⟩
  · obtain rfl : c.config = config := Except.ok.inj (c.config_eq.symm.trans hconfig)
    obtain rfl : c.start = start := Except.ok.inj (c.start_eq.symm.trans hstart)
    rw [Completed.sources, Except.ok.inj (c.visits_eq.symm.trans hvisits), hsources]
  · rw [hrun, (hend _ [] _).2]

end

end JavaOutline.Command

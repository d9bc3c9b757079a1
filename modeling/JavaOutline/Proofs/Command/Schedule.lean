import JavaOutline.Command.Run
import JavaOutline.Proofs.Command.Exchange
import JavaOutline.Proofs.Manifest
import Mathlib.Data.List.Nodup

/-!
# Batches in any order

Two sources can be dealt with in either order, and so can all sources of a batch.  The files that
a run leaves, its manifest, its counts and its exit code do not depend on the order.

## Key results

- `Batch.processAll_perm`: the files and the results of a batch are the same in any order
- `manifestOf_perm`, `metricsOf_perm`, `failedCount_perm`: results together, in any order
- `runBatch_perm`: all that a run ends with is the same in any order
- `order_matters_beyond_names`: two sources that write the same file
-/

namespace JavaOutline.Command

open FileSystem (Grew SameFiles)

/-! ## All sources -/

/-- Sources of a batch that can be dealt with in any order: they wait under different relative
    paths, no output lies below another one, the previous manifest records outputs where they are
    written, and there is no link in the output directory. -/
structure Independent (b : Batch) (o : List String) (fs : FileSystem) (sources : List SourceFile) :
    Prop where
  out : OutputDir fs b.outDir o
  previous : ∀ rel e, b.previous.files.get? rel = some e → e.output = outputOf rel
  queued : ∀ s ∈ sources, Queued fs s
  nodup : (sources.map (·.rel)).Nodup
  notBelow : ∀ s ∈ sources, ∀ t ∈ sources, ∀ name rest,
    Path.parts (outputOf t.rel) ≠ Path.parts (outputOf s.rel) ++ name :: rest

section

variable {b : Batch} {o : List String} {fs fs' : FileSystem} {s t : SourceFile}
  {sources order : List SourceFile}

namespace Independent

theorem of_cons (h : Independent b o fs (s :: sources)) : Independent b o fs sources where
  out := h.out
  previous := h.previous
  queued t ht := h.queued t (List.mem_cons_of_mem s ht)
  nodup := (List.nodup_cons.1 h.nodup).2
  notBelow t ht u hu := h.notBelow t (List.mem_cons_of_mem s ht) u (List.mem_cons_of_mem s hu)

theorem perm (h : Independent b o fs order) (hperm : order.Perm sources) :
    Independent b o fs sources where
  out := h.out
  previous := h.previous
  queued t ht := h.queued t (hperm.mem_iff.2 ht)
  nodup := (hperm.map _).nodup_iff.1 h.nodup
  notBelow t ht u hu := h.notBelow t (hperm.mem_iff.2 ht) u (hperm.mem_iff.2 hu)

theorem grew {free : List String → Prop} (h : Independent b o fs sources)
    (hgrew : Grew free fs fs') : Independent b o fs' sources :=
  { h with
    out := h.out.grew hgrew
    queued := fun t ht => (h.queued t ht).grew hgrew }

/-- No output is on the way to the output of another source. -/
theorem not_prefix (h : Independent b o fs sources) (hs : s ∈ sources) (ht : t ∈ sources)
    (hne : s.rel ≠ t.rel) :
    ¬ Path.parts (outputOf s.rel) <+: Path.parts (outputOf t.rel) := by
  rintro ⟨more, hmore⟩
  cases more with
  | nil =>
    -- Outputs at one place are outputs of one source.
    have hplace : outputPlace o s.rel = outputPlace o t.rel := by
      rw [outputPlace, outputPlace, ← hmore, List.append_nil]
    exact hne (outputPlace_inj (h.queued s hs).rel (h.queued t ht).rel hplace)
  | cons name rest => exact h.notBelow s hs t ht name rest hmore.symm

/-- Of two of the sources, neither has its output on the way to the other. -/
theorem apart (h : Independent b o fs (s :: t :: sources)) : Apart s t := by
  have hs : s ∈ s :: t :: sources := List.mem_cons_self
  have ht : t ∈ s :: t :: sources := List.mem_cons_of_mem s List.mem_cons_self
  have hne : s.rel ≠ t.rel := fun heq => (List.nodup_cons.1 h.nodup).1 (by simp [heq])
  exact ⟨h.not_prefix hs ht hne, h.not_prefix ht hs hne.symm⟩

/-- The other sources stay independent while one is dealt with. -/
theorem process (h : Independent b o fs (s :: sources)) :
    Independent b o (b.process fs s).1 sources := by
  have hs := h.queued s List.mem_cons_self
  obtain ⟨_, hadds, -, -⟩ := Batch.process_congr h.out h.out hs hs (.refl o s fs) h.previous
  exact h.of_cons.grew hadds.grew

/-- The working directory stays while sources are dealt with. -/
theorem grounded_processAll (h : Independent b o fs sources) :
    (b.processAll fs sources).1.Grounded := by
  induction sources generalizing fs with
  | nil => exact h.out.grounded
  | cons s sources ih => exact ih h.process

end Independent

/-- File systems that look the same are as good as grown from each other. -/
theorem grew_of_sameFiles (h : SameFiles fs fs') : Grew (fun _ => False) fs fs' where
  workingDir := h.workingDir.symm
  root := by
    -- Directories may list their children in another order, but each is a directory in both.
    constructor
    case dirs =>
      intro p cs hget
      rw [← Entry.look_eq_dir_iff, ← h.look, Entry.look_eq_dir_iff]
      exact ⟨cs, hget⟩
    case files =>
      intro p c hget
      refine ⟨c, ?_⟩
      rwa [← Entry.look_eq_file_iff, ← h.look, Entry.look_eq_file_iff]
    case links =>
      intro p t
      rw [← Entry.look_eq_link_iff, ← Entry.look_eq_link_iff, h.look]
    case fixed =>
      intro p c _
      rw [← Entry.look_eq_file_iff, ← Entry.look_eq_file_iff, h.look]

/-- Files that look the same are alike for every source. -/
theorem alike_of_sameFiles (h : SameFiles fs fs') (o : List String) (s : SourceFile) :
    Alike o s fs fs' :=
  ⟨fun _ => by rw [h.look], h.look _, fun p _ => by rw [h.look]⟩

namespace Batch

/-- A batch depends on what the files look like. -/
theorem processAll_congr (h : Independent b o fs sources) (hsame : SameFiles fs fs') :
    SameFiles (b.processAll fs sources).1 (b.processAll fs' sources).1 ∧
      (b.processAll fs sources).2.map (·.unlogged) =
        (b.processAll fs' sources).2.map (·.unlogged) := by
  -- By induction on the sources: each adds the same to files that look the same.
  induction sources generalizing fs fs' with
  | nil => exact ⟨hsame, rfl⟩
  | cons s sources ih =>
    have h' := h.grew (grew_of_sameFiles hsame)
    obtain ⟨new, hadds, hadds', hresult⟩ := process_congr h.out h'.out
      (h.queued s List.mem_cons_self) (h'.queued s List.mem_cons_self)
      (alike_of_sameFiles hsame o s) h.previous
    have hdone : SameFiles (b.process fs s).1 (b.process fs' s).1 := by
      refine ⟨fun p => ?_, ?_⟩
      · rw [hadds.look, hadds'.look, hsame.look]
      · rw [hadds.workingDir, hadds'.workingDir, hsame.workingDir]
    obtain ⟨hfiles, hresults⟩ := ih h.process hdone
    refine ⟨hfiles, ?_⟩
    rw [processAll, processAll, List.map_cons, List.map_cons, hresult, hresults]

/-- The files and the results of a batch are the same in any order. -/
theorem processAll_perm (hperm : order.Perm sources) (h : Independent b o fs order) :
    SameFiles (b.processAll fs order).1 (b.processAll fs sources).1 ∧
      ((b.processAll fs order).2.map (·.unlogged)).Perm
        ((b.processAll fs sources).2.map (·.unlogged)) := by
  -- By induction on the permutation: two neighbours change places at a time.
  induction hperm generalizing fs with
  | nil => exact ⟨.refl fs, .refl _⟩
  | cons s _ ih =>
    obtain ⟨hfiles, hresults⟩ := ih h.process
    exact ⟨hfiles, hresults.cons _⟩
  | swap s t rest =>
    obtain ⟨hfiles, hfirst, hsecond⟩ := process_swap h.out (h.queued t List.mem_cons_self)
      (h.queued s (List.mem_cons_of_mem t List.mem_cons_self)) h.apart h.previous
    obtain ⟨hrest, hresults⟩ := processAll_congr h.process.process hfiles
    refine ⟨hrest, ?_⟩
    simp only [processAll, List.map_cons, hresults, hfirst, ← hsecond]
    exact .swap _ _ _
  | trans hfirst _ ih ih' =>
    obtain ⟨hfiles, hresults⟩ := ih h
    obtain ⟨hfiles', hresults'⟩ := ih' (h.perm hfirst)
    exact ⟨hfiles.trans hfiles', hresults.trans hresults'⟩

/-- The results are about the sources in order. -/
theorem map_rel_processAll (b : Batch) (fs : FileSystem) (sources : List SourceFile) :
    (b.processAll fs sources).2.map (·.rel) = sources.map (·.rel) := by
  induction sources generalizing fs with
  | nil => rfl
  | cons s sources ih => rw [processAll, List.map_cons, List.map_cons, ih, rel_process]

end Batch

end

/-! ## Results together -/

/-- Entries with different keys can be put into a table in either order. -/
theorem insertInto_comm {key key' : String} (h : key ≠ key') (e e' : ManifestEntry)
    (entries : List (String × ManifestEntry)) :
    FileTable.insertInto key e (FileTable.insertInto key' e' entries) =
      FileTable.insertInto key' e' (FileTable.insertInto key e entries) := by
  induction entries with
  | nil =>
    simp only [FileTable.insertInto]
    grind
  | cons entry entries ih =>
    simp only [FileTable.insertInto]
    grind [FileTable.insertInto]

section

variable {results results' : List FileResult}

/-- Results of different sources can be recorded in either order. -/
theorem record_comm {r r' : FileResult} (h : r.rel ≠ r'.rel) (m : Manifest) :
    record (record m r) r' = record (record m r') r := by
  unfold record
  cases r.recorded with
  | none => rfl
  | some e =>
    cases r'.recorded with
    | none => rfl
    | some e' =>
      have hentries := insertInto_comm h.symm e' e m.files.entries
      simp only [Manifest.insert, FileTable.insert, hentries]

/-- What is logged is not recorded. -/
theorem foldl_record_unlogged (m : Manifest) :
    (results.map (·.unlogged)).foldl record m = results.foldl record m := by
  rw [List.foldl_map]
  rfl

/-- Results of different sources make the same manifest in any order. -/
theorem manifestOf_perm (hnodup : (results.map (·.rel)).Nodup)
    (h : (results.map (·.unlogged)).Perm (results'.map (·.unlogged))) (fingerprint : String) :
    manifestOf fingerprint results = manifestOf fingerprint results' := by
  rw [manifestOf_eq, manifestOf_eq, ← foldl_record_unlogged, ← @foldl_record_unlogged results']
  refine h.foldl_eq' (fun r hr r' hr' m => ?_) _
  by_cases hrel : r.rel = r'.rel
  · -- One source has one result.
    have hinj := List.inj_on_of_nodup_map hnodup
    obtain ⟨x, hx, rfl⟩ := List.mem_map.1 hr
    obtain ⟨x', hx', rfl⟩ := List.mem_map.1 hr'
    obtain rfl : x = x' := hinj hx hx' hrel
    rfl
  · exact record_comm hrel m

/-- Results have the same counts together in any order. -/
theorem metricsOf_perm (h : (results.map (·.unlogged)).Perm (results'.map (·.unlogged))) :
    metricsOf results = metricsOf results' := by
  have hunlogged (results : List FileResult) :
      metricsOf results = metricsOf (results.map (·.unlogged)) := by
    unfold metricsOf
    rw [List.foldl_map]
    rfl
  rw [hunlogged, hunlogged results']
  refine h.foldl_eq' (fun r _ r' _ m => ?_) _
  simp only [Metrics.merge, Metrics.mk.injEq]
  omega

/-- As many sources failed in any order. -/
theorem failedCount_perm (h : (results.map (·.unlogged)).Perm (results'.map (·.unlogged))) :
    failedCount results = failedCount results' := by
  have hunlogged (results : List FileResult) :
      failedCount results = failedCount (results.map (·.unlogged)) := by
    unfold failedCount
    rw [List.countP_map]
    rfl
  rw [hunlogged, hunlogged results']
  exact h.countP_eq _

end

/-! ## Runs -/

namespace ExtractRequest

/-- The batch of a run with options, once its output directory is made. -/
def batchOver (r : ExtractRequest) (parser : Parser) (options : ExtractOptions)
    (made : FileSystem) : Batch where
  parser
  options
  all := r.all
  outDir := r.out
  previous := Manifest.load made r.out (fingerprint options r.all)

variable {r : ExtractRequest}

/-- Runs that end in the same way, whatever they logged. -/
structure SameEnd (outcome outcome' : Outcome) : Prop where
  files : SameFiles outcome.files outcome'.files
  exitCode : outcome.exitCode = outcome'.exitCode
  fatal : outcome.fatal = outcome'.fatal
  metrics : outcome.metrics = outcome'.metrics

/-- Handing out the metrics depends on what the files look like, on the counts and on the number of
    failed sources. -/
theorem sameEnd_finish {fs fs' : FileSystem} {events events' : List Event}
    {results results' : List FileResult} (hfs : fs.Grounded) (hsame : SameFiles fs fs')
    (hmetrics : metricsOf results = metricsOf results')
    (hfailed : failedCount results = failedCount results') :
    SameEnd (r.finish fs events results) (r.finish fs' events' results') := by
  unfold finish
  rw [hmetrics, hfailed]
  simp only
  -- Without a file for the metrics both end with the files as they are.
  split
  · exact ⟨hsame, rfl, rfl, rfl⟩
  · exact ⟨hsame, rfl, rfl, rfl⟩
  · rename_i path _ _
    cases hwrite : fs.writeBytes path (metricsOf results').toJson.pretty with
    -- If one can write the metrics, so can the other, and the files stay the same.
    | ok done =>
      obtain ⟨done', hwrite', hdone⟩ := hsame.writeBytes hfs hwrite
      simp only [hwrite']
      exact ⟨hdone, rfl, rfl, rfl⟩
    | error e =>
      obtain ⟨e', hwrite'⟩ := hsame.writeBytes_error hfs hwrite
      simp only [hwrite']
      exact ⟨hsame, rfl, rfl, rfl⟩

/-- What is left of a run once its sources are dealt with: the manifest is saved and the metrics are
    handed out. -/
def closeBatch (r : ExtractRequest) (options : ExtractOptions) (fs : FileSystem)
    (events : List Event) (results : List FileResult) : Outcome :=
  match (manifestOf (fingerprint options r.all) results).save fs r.out with
  | .error _ => .brokenOff fs events (.unwritten (Manifest.pathIn r.out))
  | .ok fs => r.finish fs events results

/-- A run deals with its sources and is closed. -/
theorem exists_runBatch_eq {parser : Parser} {options : ExtractOptions} {fs made : FileSystem}
    (hmade : fs.makeDirs r.out = .ok made) (events : List Event) (sources : List SourceFile) :
    ∃ logged, r.runBatch parser options fs events sources =
      r.closeBatch options ((r.batchOver parser options made).processAll made sources).1 logged
        ((r.batchOver parser options made).processAll made sources).2 := by
  unfold runBatch
  simp only [hmade]
  exact ⟨_, rfl⟩

/-- Closing depends on what the files look like and on the results, in any order. -/
theorem sameEnd_closeBatch {options : ExtractOptions} {fs fs' : FileSystem}
    {events events' : List Event} {results results' : List FileResult} (hfs : fs.Grounded)
    (hsame : SameFiles fs fs')
    (hmanifest : manifestOf (fingerprint options r.all) results =
      manifestOf (fingerprint options r.all) results')
    (hmetrics : metricsOf results = metricsOf results')
    (hfailed : failedCount results = failedCount results') :
    SameEnd (r.closeBatch options fs events results)
      (r.closeBatch options fs' events' results') := by
  unfold closeBatch Manifest.save
  rw [hmanifest]
  cases hsave : fs.writeBytes (Manifest.pathIn r.out)
      (manifestOf (fingerprint options r.all) results').encode with
  -- The same manifest is written to the same files.
  | ok saved =>
    obtain ⟨saved', hsave', hsaved⟩ := hsame.writeBytes hfs hsave
    have hgrounded : saved.Grounded := by
      obtain ⟨p, -, hgrew, -, -⟩ := FileSystem.grew_writeBytes hfs hsave
      exact hgrew.grounded hfs
    simp only [hsave']
    exact sameEnd_finish hgrounded hsaved hmetrics hfailed
  -- Neither can save its manifest, so both break off.
  | error e =>
    obtain ⟨e', hsave'⟩ := hsame.writeBytes_error hfs hsave
    simp only [hsave']
    exact ⟨hsame, rfl, rfl, rfl⟩

/-- A run ends in the same way in whatever order its sources are dealt with and their results are
    put together: with the same files, the same manifest, the same counts, as many failed sources and
    the same exit code. -/
theorem runBatch_perm {parser : Parser} {options : ExtractOptions} {fs made : FileSystem}
    {o : List String} {sources order : List SourceFile} {results : List FileResult}
    (hmade : fs.makeDirs r.out = .ok made)
    (h : Independent (r.batchOver parser options made) o made sources)
    (horder : order.Perm sources)
    (hresults : results.Perm ((r.batchOver parser options made).processAll made order).2)
    (events events' : List Event) :
    SameFiles ((r.batchOver parser options made).processAll made order).1
      ((r.batchOver parser options made).processAll made sources).1 ∧
    (∀ fingerprint, manifestOf fingerprint results =
      manifestOf fingerprint ((r.batchOver parser options made).processAll made sources).2) ∧
    metricsOf results =
      metricsOf ((r.batchOver parser options made).processAll made sources).2 ∧
    failedCount results =
      failedCount ((r.batchOver parser options made).processAll made sources).2 ∧
    SameEnd
      (r.closeBatch options ((r.batchOver parser options made).processAll made order).1 events'
        results)
      (r.runBatch parser options fs events sources) := by
  -- The sources may change places, and so may their results afterwards.
  have hordered := h.perm horder.symm
  obtain ⟨hfiles, hperm⟩ := Batch.processAll_perm horder hordered
  have hall : (results.map (·.unlogged)).Perm
      (((r.batchOver parser options made).processAll made sources).2.map (·.unlogged)) :=
    (hresults.map _).trans hperm
  have hnodup : (results.map (·.rel)).Nodup := by
    rw [(hresults.map _).nodup_iff, Batch.map_rel_processAll]
    exact hordered.nodup
  have hmanifest := manifestOf_perm hnodup hall
  have hmetrics := metricsOf_perm hall
  have hfailed := failedCount_perm hall
  obtain ⟨logged, hrun⟩ := @exists_runBatch_eq r parser options fs made hmade events sources
  refine ⟨hfiles, hmanifest, hmetrics, hfailed, ?_⟩
  rw [hrun]
  exact sameEnd_closeBatch hordered.grounded_processAll hfiles (hmanifest _) hmetrics hfailed

/-! ## A sample run -/

/-- A manifest of an earlier run that knows one of the sources. -/
def earlierManifest : Manifest :=
  { fingerprint := fingerprint {} true
    files := FileTable.empty.insert "B.java" ⟨"", "B.java.ast"⟩ }

/-- Two sources, one in a directory of its own, and an output directory beside them. -/
def besideFiles : FileSystem where
  root := .dir [("src", .dir [
      ("a", .dir [("A.java", .file (utf8 "class A{}"))]), ("B.java", .file (utf8 "class B{}")),
      ("out", .dir [("manifest.json", .file earlierManifest.encode)])])]
  workingDir := []

/-- A request to extract all sources into a directory beside them. -/
def besideRequest : ExtractRequest := { path := "/src", out := "/src/out", all := true }

/-- A parser that finds no declarations. -/
def emptyParser : Parser := fun _ => some { kind := "program" }

/-- The two sources. -/
def besideSources : List SourceFile :=
  [⟨"B.java", "/src/B.java"⟩, ⟨"a/A.java", "/src/a/A.java"⟩]

theorem outputDir_beside : OutputDir besideFiles "/src/out" ["src", "out"] where
  grounded := ⟨_, rfl⟩
  leads := (FileSystem.follow_eq_ok_iff ⟨_, rfl⟩).1 rfl
  dir := ⟨_, rfl⟩
  noLinks names t := by
    rw [Entry.get?_append]
    -- There is one file in the directory.
    rcases names with - | ⟨name, rest⟩
    · intro h
      cases h
    · by_cases hname : name = "manifest.json"
      · subst hname
        cases rest <;>
        · intro h
          cases h
      · have hchild : Entry.child? name [("manifest.json", .file earlierManifest.encode)] = none := by
          simp [Entry.child?, Ne.symm hname]
        have hget : besideFiles.root.get? ["src", "out"] =
            some (.dir [("manifest.json", .file earlierManifest.encode)]) := rfl
        rw [hget, Option.bind_some, Entry.get?_cons, hchild]
        intro h
        cases h

/-- The manifest of the earlier run is gone on from. -/
theorem previous_beside :
    (besideRequest.batchOver emptyParser {} besideFiles).previous = earlierManifest := by
  have hread : besideFiles.readBytes (Manifest.pathIn "/src/out") = .ok earlierManifest.encode := rfl
  exact Manifest.load_of_encode hread

theorem independent_beside :
    Independent (besideRequest.batchOver emptyParser {} besideFiles) ["src", "out"] besideFiles
      besideSources where
  out := outputDir_beside
  previous rel e he := by
    rw [previous_beside] at he
    have hentries : earlierManifest.files.entries = [("B.java", ⟨"", "B.java.ast"⟩)] := rfl
    rw [FileTable.get?, hentries] at he
    -- The earlier manifest records one source, with the output named after it.
    by_cases hrel : rel = "B.java"
    · subst hrel
      obtain rfl := Option.some.inj he
      rfl
    · rw [List.lookup_cons, beq_false_of_ne hrel] at he
      exact nomatch he
  queued s hs := by
    -- Each source is found where its path leads.
    rcases List.mem_pair.1 hs with rfl | rfl
    · have hpath : "/src/B.java" = FileSystem.pathOf ["src", "B.java"] := by decide
      rw [hpath]
      exact queued_pathOf rfl (by decide) ⟨[], "B.java", by decide, by decide⟩ (by decide)
    · have hpath : "/src/a/A.java" = FileSystem.pathOf ["src", "a", "A.java"] := by decide
      rw [hpath]
      exact queued_pathOf rfl (by decide) ⟨["a"], "A.java", by decide, by decide⟩ (by decide)
  nodup := by decide
  notBelow s hs t ht name rest := by
    have hparts : Path.parts (outputOf "B.java") = ["B.java.ast"] ∧
        Path.parts (outputOf "a/A.java") = ["a", "A.java.ast"] := by decide
    -- Neither output stands below the other.
    rcases List.mem_pair.1 hs with rfl | rfl <;> rcases List.mem_pair.1 ht with rfl | rfl <;>
      simp [hparts.1, hparts.2]

/-- The two sources in the other order. -/
theorem runBatch_perm_beside :
    SameFiles
      ((besideRequest.batchOver emptyParser {} besideFiles).processAll besideFiles
        besideSources.reverse).1
      ((besideRequest.batchOver emptyParser {} besideFiles).processAll besideFiles besideSources).1 ∧
    SameEnd (besideRequest.runBatch emptyParser {} besideFiles [] besideSources.reverse)
      (besideRequest.runBatch emptyParser {} besideFiles [] besideSources) := by
  -- The output directory is there, so both runs go on with the same batch.
  have hmade : besideFiles.makeDirs besideRequest.out = .ok besideFiles := rfl
  have horder : besideSources.reverse.Perm besideSources := List.reverse_perm besideSources
  obtain ⟨logged, hrun⟩ := exists_runBatch_eq (r := besideRequest) hmade [] besideSources.reverse
  obtain ⟨hfiles, -, -, -, hend⟩ :=
    runBatch_perm hmade independent_beside horder (.refl _) [] logged
  refine ⟨hfiles, ?_⟩
  rw [hrun]
  exact hend

end ExtractRequest

/-! ## Relative paths that go up -/

/-- A syntax tree of one import. -/
def importTree : Syntax.Node :=
  { kind := "program", stop := 9, isNamed := true
    children := [{ kind := "import_declaration", stop := 9, isNamed := true
                   children := [{ kind := "identifier", start := 7, stop := 8, isNamed := true }] }] }

/-- Two sources, one of which has backslashes in its name. -/
def twinFiles : FileSystem where
  root := .dir [
    ("src", .dir [
      ("a\\..\\b.java", .file (utf8 "import a;")), ("b.java", .file (utf8 "import b;"))]),
    ("out", .dir [])]
  workingDir := []

/-- The source with an ordinary name. -/
def plainTwin : SourceFile := ⟨"b.java", "/src/b.java"⟩

/-- The source whose relative path goes up again. -/
def dottedTwin : SourceFile := ⟨"a/../b.java", "/src/a\\..\\b.java"⟩

/-- A batch of both. -/
def twinBatch : Batch where
  parser _ := some importTree
  options := {}
  all := true
  outDir := "/out"
  previous := { fingerprint := "" }

/-- Two sources of one walk write the same file, though their relative paths are different and
    neither output lies below the other one, as backslashes become slashes.  The one that comes last
    wins. -/
theorem order_matters_beyond_names :
    twinFiles.sources (twinFiles.isExcluded [] 0) Path.isJava "/src" =
      .ok [dottedTwin, plainTwin] ∧
    OutputDir twinFiles twinBatch.outDir ["out"] ∧
    dottedTwin.rel ≠ plainTwin.rel ∧
    ¬ Path.parts (outputOf dottedTwin.rel) <+: Path.parts (outputOf plainTwin.rel) ∧
    ¬ Path.parts (outputOf plainTwin.rel) <+: Path.parts (outputOf dottedTwin.rel) ∧
    (∀ rel e, twinBatch.previous.files.get? rel = some e → e.output = outputOf rel) ∧
    (twinBatch.processAll twinFiles [dottedTwin, plainTwin]).1.root.look ["out", "b.java.ast"] ≠
      (twinBatch.processAll twinFiles [plainTwin, dottedTwin]).1.root.look
        ["out", "b.java.ast"] := by
  -- The output directory is there and empty.
  have hout : OutputDir twinFiles "/out" ["out"] := by
    refine ⟨⟨_, rfl⟩, (FileSystem.follow_eq_ok_iff ⟨_, rfl⟩).1 rfl, ⟨_, rfl⟩, fun names t ht => ?_⟩
    have hget : twinFiles.root.get? ["out"] = some (.dir []) := rfl
    rw [Entry.get?_append, hget, Option.bind_some] at ht
    exact nomatch Entry.eq_of_get?_empty ht
  have hsources : twinFiles.sources (twinFiles.isExcluded [] 0) Path.isJava "/src" =
      .ok [dottedTwin, plainTwin] := by
    have hvisits : twinFiles.visits (twinFiles.isExcluded [] 0) Path.isJava "/src" =
        .ok [.directory "/src", .accepted dottedTwin, .accepted plainTwin] := rfl
    have hsorted : [dottedTwin, plainTwin].Pairwise (fun a b => a.isLE b = true) := by
      decide +kernel
    rw [FileSystem.sources, hvisits]
    exact congrArg Except.ok (List.mergeSort_of_pairwise hsorted)
  -- The order decides which of the two outlines is at the common place in the end.
  refine ⟨hsources, hout, by decide, by decide, by decide, nofun, ?_⟩
  decide +kernel

end JavaOutline.Command

import JavaOutline.Proofs.Command.Begun

/-!
# Runs that are cut off

A run that is cut off before it saves its manifest leaves the manifest of an earlier run beside
outputs that it has written itself.  The manifest tells nothing of these outputs, but a later run
that finds a source as the manifest records it takes the output that is there for the recorded one.
So an unchanged source has the output that extraction would write, unless the run that wrote this
output last was cut off.

## Key results

- `Attempted`: the states that runs, also ones that are cut off, and edits lead to
- `kept_of_attempted`: what can be relied on in every such state
- `extracted_or_orphaned_of_unchanged`: what there is at the output of an unchanged source
- `stale_of_unchanged`: an unchanged source whose output is the outline of another content
-/

namespace JavaOutline.Command

open FileSystem (Grew)

variable {parser : Parser} {home : String} {r : ExtractRequest} {fs fs' : FileSystem}
  {hashed : Set Bytes} {o : List String} {rel : String} {bytes : Bytes}

/-! ## Runs one after the other -/

/-- Whether the metrics of a run go nowhere into the directory at a place. -/
def Completed.MetricsOutside (c : Completed parser home r fs) (o : List String) : Prop :=
  ∀ path p, r.metrics = some path → path ≠ "-" → c.saved.resolve path = .ok p → ¬ o <+: p.place

/-- A past run, with the files that it started from and whether it was cut off. -/
structure Attempt (parser : Parser) where
  home : String
  request : ExtractRequest
  before : FileSystem
  begun : Begun parser home request before
  isCutOff : Bool

/-- The files that runs into the directory at a place lead to, from files where this directory is
    empty and with edits between the runs.  A run may be cut off when it has dealt with any of its
    sources and has not saved its manifest yet. -/
inductive Attempted (parser : Parser) (hashed : Set Bytes) (o : List String) :
    FileSystem → List (Attempt parser) → Prop where
  | start {fs : FileSystem} (h : Vacant fs o) : Attempted parser hashed o fs []
  | completed {home : String} {r : ExtractRequest} {fs : FileSystem} {past : List (Attempt parser)}
    (h : Attempted parser hashed o fs past) (c : Completed parser home r fs)
    (hinto : c.begun.Into hashed o) (hmetrics : c.MetricsOutside o) :
    Attempted parser hashed o (r.runAll parser home fs).files
      (⟨home, r, fs, c.begun, false⟩ :: past)
  | cutOff {home : String} {r : ExtractRequest} {fs : FileSystem} {past : List (Attempt parser)}
    (h : Attempted parser hashed o fs past) (g : Begun parser home r fs)
    (hinto : g.Into hashed o) :
    Attempted parser hashed o g.files (⟨home, r, fs, g, true⟩ :: past)
  | edit {fs fs' : FileSystem} {past : List (Attempt parser)}
    (h : Attempted parser hashed o fs past) (hedited : Edited o fs fs') :
    Attempted parser hashed o fs' past

/-- Whether a content is what a run that was cut off wrote as the output of a relative path, and no
    run has written this output since.  The runs are listed from the last one back. -/
inductive Orphaned (rel : String) (bytes : Bytes) : List (Attempt parser) → Prop where
  | written {a : Attempt parser} {past : List (Attempt parser)} (hcut : a.isCutOff = true)
    (h : a.begun.Produced rel bytes) : Orphaned rel bytes (a :: past)
  | since {a : Attempt parser} {past : List (Attempt parser)}
    (hnone : ∀ encoded, ¬ a.begun.Produced rel encoded) (h : Orphaned rel bytes past) :
    Orphaned rel bytes (a :: past)

/-! ## What a completed run leaves -/

namespace Completed

variable {c : Completed parser home r fs}

/-- Metrics that go elsewhere change nothing in the directory. -/
theorem MetricsOutside.grew (h : c.MetricsOutside o) (hfs : c.saved.Grounded) :
    Grew (fun q => ¬ o <+: q) c.saved (r.runAll parser home fs).files := by
  rcases c.runAll_spec.1 with heq | ⟨path, hpath, hne, hwrite⟩
  · rw [heq]
    exact .refl _ _
  · obtain ⟨p, hp, hgrew, -, -⟩ := FileSystem.grew_writeBytes hfs hwrite
    refine hgrew.mono ?_
    rintro q rfl
    exact h path p hpath hne ((FileSystem.resolve_eq_ok_iff hfs).2 hp)

variable (c)

/-- The files when all sources have been dealt with. -/
theorem files_begun : c.begun.files = c.written :=
  congrArg Prod.fst c.processAll_eq

/-- What the manifest of a run records is the record of one of its steps. -/
theorem exists_step_of_mem_manifest {p : String × ManifestEntry}
    (hp : p ∈ c.manifest.files.entries) :
    ∃ step ∈ c.steps, step.source.rel = p.1 ∧
      (c.fate step).recorded? step.source.rel = some p.2 := by
  obtain ⟨result, hresult, hrel, hrecorded⟩ := exists_of_mem_manifestOf hp
  -- Every result is the one of a step, and an entry comes from a result.
  have hresults : c.results =
      c.steps.map fun step => (c.batch.process step.before step.source).2 := by
    have hall := Batch.processAll_eq_map_steps c.batch c.made c.sources
    rwa [c.processAll_eq] at hall
  rw [hresults] at hresult
  obtain ⟨step, hstep, rfl⟩ := List.mem_map.1 hresult
  have hjava := c.isJava_of_mem_sources _ (Batch.source_mem_of_mem_steps hstep)
  have hspec := (Batch.process_spec (b := c.batch) hjava).1
  exact ⟨step, hstep, (congrArg FileResult.rel hspec).symm.trans hrel,
    (congrArg FileResult.recorded hspec).symm.trans hrecorded⟩

end Completed

/-! ## What a manifest tells -/

/-- What a manifest records of a relative path was made of some content with the recorded hash, and
    an output that is there is the outline of this content, or it is orphaned. -/
def Records (parser : Parser) (hashed : Set Bytes) (o : List String) (fs : FileSystem)
    (past : List (Attempt parser)) (options : ExtractOptions) (all : Bool) (rel : String)
    (e : ManifestEntry) : Prop :=
  Path.IsRelative rel ∧ e.output = outputOf rel ∧
    ∃ source ∈ hashed, e.hash = Blake3.hexHash source ∧
      ∀ bytes, fs.root.get? (outputPlace o rel) = some (.file bytes) →
        (∀ path, extractBytes parser options (!all) source path = .ok (some bytes)) ∨
          Orphaned rel bytes past

/-- A directory without links whose manifest, if it can be read, records what it was made of. -/
structure Kept (parser : Parser) (hashed : Set Bytes) (o : List String) (fs : FileSystem)
    (past : List (Attempt parser)) : Prop where
  noFile : ∀ content, fs.root.get? o ≠ some (.file content)
  noLinks : ∀ names t, fs.root.get? (o ++ names) ≠ some (.link t)
  manifest : ∀ bytes m, fs.root.get? (manifestPlace o) = some (.file bytes) →
    Manifest.ofBytes? bytes = some m →
      ∃ options all, m.fingerprint = fingerprint options all ∧ settingsBytes options all ∈ hashed ∧
        options.maxDepth < Number.wordBound ∧
        ∀ p ∈ m.files.entries, Records parser hashed o fs past options all p.1 p.2

variable {past : List (Attempt parser)} {options : ExtractOptions} {all : Bool} {e : ManifestEntry}

/-- A record stays right if what is there at its output was there before, or if it is orphaned. -/
theorem Records.mono {past' : List (Attempt parser)}
    (h : Records parser hashed o fs past options all rel e)
    (hfiles : ∀ bytes, Path.IsRelative rel →
      fs'.root.get? (outputPlace o rel) = some (.file bytes) →
      Orphaned rel bytes past' ∨ fs.root.get? (outputPlace o rel) = some (.file bytes) ∧
        (Orphaned rel bytes past → Orphaned rel bytes past')) :
    Records parser hashed o fs' past' options all rel e := by
  obtain ⟨hrel, houtput, source, hsource, hhash, hbytes⟩ := h
  refine ⟨hrel, houtput, source, hsource, hhash, fun bytes hfile => ?_⟩
  -- The output was either touched since, and is orphaned, or is the old one.
  rcases hfiles bytes hrel hfile with horphaned | ⟨hold, hpast⟩
  · exact .inr horphaned
  · exact (hbytes bytes hold).imp_right hpast

namespace Kept

/-- An empty directory has no manifest. -/
theorem of_vacant (h : Vacant fs o) : Kept parser hashed o fs [] where
  noFile := h.ne_file
  noLinks := h.ne_link
  manifest bytes _ hget _ := nomatch h [Manifest.fileName] (.file bytes) hget

/-- Edits put neither a manifest nor outputs. -/
theorem edited (h : Kept parser hashed o fs past) (hedited : Edited o fs fs') :
    Kept parser hashed o fs' past where
  noFile := hedited.ne_file h.noFile
  noLinks := hedited.ne_link h.noLinks
  manifest bytes m hget hm := by
    have hold : ∀ {names bytes}, fs'.root.get? (o ++ names) = some (.file bytes) →
        fs.root.get? (o ++ names) = some (.file bytes) := fun {names bytes} hfile =>
      (hedited names (.file bytes) hfile).resolve_left nofun
    obtain ⟨options, all, hmade, hsettings, hdepth, hentries⟩ := h.manifest bytes m (hold hget) hm
    refine ⟨options, all, hmade, hsettings, hdepth, fun p hp => (hentries p hp).mono ?_⟩
    exact fun bytes _ hfile => .inr ⟨hold hfile, id⟩

/-- The directory that a run is into, once it is made. -/
theorem outputDir {g : Begun parser home r fs} (h : Kept parser hashed o fs past)
    (hinto : g.Into hashed o) : OutputDir g.made r.out o := by
  have hgrew := g.grew_made hinto.grounded
  have hmade := h.edited (edited_of_grew hgrew o)
  exact .of_follow (hgrew.grounded hinto.grounded) hinto.leads hmade.noFile hmade.noLinks

/-- What the manifest that a run goes on from records was made under its settings. -/
theorem records {g : Begun parser home r fs} (h : Kept parser hashed o fs past)
    (hinj : Set.InjOn Blake3.hexHash hashed) (hinto : g.Into hashed o)
    (he : g.batch.previous.files.get? rel = some e) :
    Records parser hashed o fs past g.options r.all rel e := by
  obtain ⟨bytes, m, hfile, hm, hfingerprint, hmem⟩ := exists_of_load (h.outputDir hinto) he
  have hold := ((g.grew_made hinto.grounded).root.fixed not_false).1 hfile
  obtain ⟨options, all, hmade, hsettings, hdepth, hentries⟩ := h.manifest bytes m hold hm
  -- Equal fingerprints mean equal settings, as far as they shape an outline.
  have hbytes : settingsBytes options all = settingsBytes g.options r.all :=
    hinj hsettings hinto.settings (hmade.symm.trans hfingerprint)
  obtain ⟨hsame, rfl, hmarker⟩ := settingsBytes_inj hbytes hdepth hinto.depth
  obtain ⟨hrel, houtput, source, hsource, hhash, houtcome⟩ := hentries (rel, e) hmem
  refine ⟨hrel, houtput, source, hsource, hhash, fun bytes hfile => ?_⟩
  exact (houtcome bytes hfile).imp_left fun houtcome path =>
    (extractBytes_congr hsame hmarker path).symm.trans (houtcome path)

/-- A run that is cut off orphans the outputs that it wrote. -/
theorem cutOff {g : Begun parser home r fs} (h : Kept parser hashed o fs past)
    (hinto : g.Into hashed o) :
    Kept parser hashed o g.files (⟨home, r, fs, g, true⟩ :: past) := by
  have hmade := h.outputDir hinto
  have hgrew : Grew (fun q => ∃ s ∈ g.handled, q = outputPlace o s.rel) g.made g.files :=
    Batch.grew_outputs hmade g.isJava_of_mem_handled hinto.relative
  have hout := hmade.grew hgrew
  refine ⟨hout.ne_file, hout.noLinks, fun bytes m hget hm => ?_⟩
  -- The manifest that is there is the old one.
  have hmanifest : ¬ ∃ s ∈ g.handled, manifestPlace o = outputPlace o s.rel := by
    rintro ⟨s, hs, heq⟩
    exact manifestPlace_ne_outputPlace (hinto.relative s hs) heq
  have hold := ((g.grew_made hinto.grounded).root.fixed not_false).1
    ((hgrew.root.fixed hmanifest).1 hget)
  obtain ⟨options, all, hsame, hsettings, hdepth, hentries⟩ := h.manifest bytes m hold hm
  refine ⟨options, all, hsame, hsettings, hdepth, fun p hp => (hentries p hp).mono ?_⟩
  intro bytes hrel hfile
  rcases Begun.output_cases hinto hmade hrel hfile with hproduced | ⟨hnone, hold⟩
  · exact .inl (.written rfl hproduced)
  · exact .inr ⟨hold, .since hnone⟩

/-- What a completed run records was written by it, or it was recorded before and left alone. -/
theorem records_of_completed {c : Completed parser home r fs} (h : Kept parser hashed o fs past)
    (hinj : Set.InjOn Blake3.hexHash hashed) (hinto : c.begun.Into hashed o)
    (hfiles : ∀ rel bytes, Path.IsRelative rel →
      fs'.root.get? (outputPlace o rel) = some (.file bytes) →
      c.begun.files.root.get? (outputPlace o rel) = some (.file bytes))
    {step : Step} (hstep : step ∈ c.steps)
    (he : (c.fate step).recorded? step.source.rel = some e) :
    Records parser hashed o fs' (⟨home, r, fs, c.begun, false⟩ :: past) c.options r.all
      step.source.rel e := by
  have hmade := h.outputDir hinto
  have hmem := Batch.source_mem_of_mem_steps hstep
  have hjava := c.isJava_of_mem_sources _ hmem
  have hdealt := (Batch.process_spec (b := c.batch) hjava).2
  cases hfate : c.fate step with
  | written content encoded =>
    rw [hfate] at he
    cases he
    obtain ⟨hread, houtcome⟩ := Batch.extractFile_of_written hfate
    rw [extractFile_eq hjava hread] at houtcome
    have hrel := hinto.relative _ hmem
    refine ⟨hrel, rfl, content, hinto.contents step hstep content hread, rfl, ?_⟩
    intro bytes hfile
    have hwritten := Begun.file_of_written hinto hmade hstep hfate
    cases (hfiles _ _ hrel hfile).symm.trans hwritten
    exact .inl fun path => extractBytes_eq_ok_some houtcome
  | unchanged content recorded =>
    rw [hfate] at he
    obtain rfl : recorded = e := Option.some.inj he
    rw [show c.batch.fate step = .unchanged content recorded from hfate] at hdealt
    cases hdealt with
    | unchanged _ _ hread hfresh =>
      obtain ⟨hget, -, -⟩ := Manifest.fresh?_eq_some_iff.1 hfresh
      refine (h.records hinj hinto hget).mono fun bytes hrel hfile => ?_
      rcases Begun.output_cases hinto hmade hrel (hfiles _ _ hrel hfile) with
        ⟨other, hother, hsame, content', hwritten⟩ | ⟨hnone, hold⟩
      · -- The one step with this relative path wrote nothing.
        obtain rfl := Begun.eq_of_rel_eq hinto.nodup hother hstep hsame
        exact nomatch hwritten.symm.trans hfate
      · exact .inr ⟨hold, .since hnone⟩
  | unreadable | passedOver | failed | unwritten =>
    rw [hfate] at he
    exact nomatch he

/-- A completed run saves a manifest of what it did. -/
theorem completed {c : Completed parser home r fs} (h : Kept parser hashed o fs past)
    (hinj : Set.InjOn Blake3.hexHash hashed) (hinto : c.begun.Into hashed o)
    (hmetrics : c.MetricsOutside o) :
    Kept parser hashed o (r.runAll parser home fs).files
      (⟨home, r, fs, c.begun, false⟩ :: past) := by
  obtain ⟨hwritten, hout⟩ := Completed.outputDir_runAll hinto.grounded (h.outputDir hinto)
  obtain ⟨hgrew, -, hfile⟩ := hwritten.grew_writeBytes isName_manifest.isRelative c.saved_eq
  rw [isName_manifest.parts] at hgrew hfile
  have hend := hmetrics.grew (hgrew.grounded hwritten.grounded)
  refine ⟨hout.ne_file, hout.noLinks, fun bytes m hget hm => ?_⟩
  -- The manifest that is there is the one that was saved.
  cases hget.symm.trans ((hend.root.fixed (not_not_intro (List.prefix_append o _))).2 hfile)
  rw [Manifest.ofBytes?_encode] at hm
  cases hm
  refine ⟨c.options, r.all, fingerprint_manifestOf _ _, hinto.settings, hinto.depth, ?_⟩
  rintro ⟨rel, e⟩ hp
  obtain ⟨step, hstep, rfl, he⟩ := c.exists_step_of_mem_manifest hp
  refine h.records_of_completed hinj hinto (fun rel bytes hrel hget => ?_) hstep he
  have hsaved := (hend.root.fixed (not_not_intro (List.prefix_append o _))).1 hget
  have hplace : outputPlace o rel ≠ o ++ [Manifest.fileName] := fun heq =>
    manifestPlace_ne_outputPlace hrel heq.symm
  rw [c.files_begun]
  exact (hgrew.root.fixed hplace).1 hsaved

end Kept

/-- Whatever runs and edits there were, the manifest records what it was made of. -/
theorem kept_of_attempted (hinj : Set.InjOn Blake3.hexHash hashed)
    (h : Attempted parser hashed o fs past) : Kept parser hashed o fs past := by
  induction h with
  | start h => exact .of_vacant h
  | completed _ c hinto hmetrics ih => exact ih.completed hinj hinto hmetrics
  | cutOff _ g hinto ih => exact ih.cutOff hinto
  | edit _ hedited ih => exact ih.edited hedited

/-! ## Unchanged sources -/

/-- A source that is left alone as unchanged, after any runs and edits, has a file at its output.
    This file is what extraction gives for the content of the source, or the last run that wrote it
    was cut off. -/
theorem extracted_or_orphaned_of_unchanged (hinj : Set.InjOn Blake3.hexHash hashed)
    (h : Attempted parser hashed o fs past) (g : Begun parser home r fs) (hinto : g.Into hashed o)
    {step : Step} (hstep : step ∈ g.steps) {content : Bytes} {recorded : ManifestEntry}
    (hfate : g.fate step = .unchanged content recorded) :
    ∃ encoded, step.before.readBytes (Path.join r.out recorded.output) = .ok encoded ∧
      g.files.readBytes (Path.join r.out recorded.output) = .ok encoded ∧
      recorded.output = outputOf step.source.rel ∧
      (extractFile parser g.options step.before (!r.all) step.source.path = .ok (some encoded) ∨
        Orphaned step.source.rel encoded past) := by
  have hkept := kept_of_attempted hinj h
  have hmade := hkept.outputDir hinto
  have hmem := Batch.source_mem_of_mem_steps hstep
  have hjava := g.isJava_of_mem_handled _ hmem
  have hrel := hinto.relative _ hmem
  have hdealt := (Batch.process_spec (b := g.batch) hjava).2
  rw [show g.batch.fate step = .unchanged content recorded from hfate] at hdealt
  cases hdealt with
  | unchanged _ _ hread hfresh hafter =>
    obtain ⟨hget, hhash, hisFile⟩ := Manifest.fresh?_eq_some_iff.1 hfresh
    obtain ⟨-, houtput, source, hsource, hrecorded, hbytes⟩ := hkept.records hinj hinto hget
    -- Equal hashes mean equal contents, so the record is about this very content.
    obtain rfl : source = content :=
      hinj hsource (hinto.contents step hstep content hread) (hrecorded.symm.trans hhash)
    have hbefore := hmade.grew
      (Batch.grew_of_mem_steps hmade.grounded g.isJava_of_mem_handled hstep).1
    obtain ⟨encoded, hencoded⟩ := FileSystem.exists_readBytes_of_isFile hisFile
    obtain ⟨q, hleads, hfile⟩ := (FileSystem.readBytes_eq_ok_iff hbefore.grounded).1 hencoded
    rw [houtput] at hleads
    obtain rfl : q = outputPlace o step.source.rel :=
      hbefore.place_eq (isRelative_outputOf hrel) hleads
    -- Until the run comes to the source, and after that, its output is left alone.
    obtain ⟨hearlier, hlater⟩ :=
      Batch.grew_around hmade g.isJava_of_mem_handled hinto.relative hinto.nodup hstep
    have hold := ((g.grew_made hinto.grounded).root.fixed not_false).1
      ((hearlier.root.fixed (not_not_intro rfl)).1 hfile)
    rw [hafter] at hlater
    refine ⟨encoded, hencoded, ?_, houtput, (hbytes encoded hold).imp_left fun houtcome => ?_⟩
    · rw [houtput]
      exact hlater.readBytes hbefore.grounded hleads hfile (not_not_intro rfl)
    · rw [extractFile_eq hjava hread]
      exact houtcome step.source.path

/-! ## A source that is changed and changed back -/

/-- A parser that takes every source for the name of an import. -/
def nameParser : Parser := fun source =>
  some { kind := "program"
         children := [{ kind := "import_declaration", isNamed := true
                        children := [{ kind := "identifier", isNamed := true
                                       stop := (utf8 source).length }] }] }

/-- There is one source. -/
theorem sourcesOf_leftover :
    sourcesOf [.directory "/src", .accepted leftoverSource] = [leftoverSource] :=
  List.mergeSort_singleton _

/-- A run on the one source that has dealt with it. -/
def leftoverBegun (content : String) (outputs : List (String × Entry)) :
    Begun nameParser "/home" (leftoverRequest none) (leftoverFiles content outputs) where
  config := {}
  config_eq := rfl
  start := "/src"
  start_eq := canonical_leftover content outputs
  visits := [.directory "/src", .accepted leftoverSource]
  visits_eq := rfl
  made := leftoverFiles content outputs
  made_eq := makeDirs_leftover content outputs
  handled := [leftoverSource]
  handled_subperm := by rw [sourcesOf_leftover]

/-- All that is hashed while the source is `a` or `b`. -/
def leftoverHashed : Set Bytes :=
  {bytes | bytes ∈ [settingsBytes {} true, utf8 "a", utf8 "b"]}

theorem injOn_leftoverHashed : Set.InjOn Blake3.hexHash leftoverHashed := by
  have hnodup : ([settingsBytes {} true, utf8 "a", utf8 "b"].map Blake3.hexHash).Nodup := by
    decide +kernel
  exact fun _ hx _ hy => List.inj_on_of_nodup_map hnodup hx hy

theorem into_leftoverBegun (content : String) (hcontent : utf8 content ∈ leftoverHashed)
    (outputs : List (String × Entry)) :
    (leftoverBegun content outputs).Into leftoverHashed ["out"] := by
  have hread : (leftoverFiles content outputs).readBytes "/src/A.java" = .ok (utf8 content) := rfl
  constructor
  case grounded => exact ⟨_, rfl⟩
  case leads => rfl
  -- The only source is the one at the top.
  case relative =>
    intro s hs
    obtain rfl := List.mem_singleton.1 hs
    exact ⟨[], "A.java", by decide, by decide⟩
  case nodup => exact List.nodup_singleton _
  case contents =>
    intro step hstep content' hcontent'
    obtain rfl := List.mem_singleton.1 hstep
    cases hread.symm.trans hcontent'
    exact hcontent
  -- The settings are the defaults.
  case settings => exact List.mem_cons_self
  case depth => exact (by decide : ExtractOptions.maxDepth {} < Number.wordBound)

/-- What is in the output directory. -/
def outputsIn (fs : FileSystem) : List (String × Entry) :=
  match fs.root.get? ["out"] with
  | some (.dir outputs) => outputs
  | _ => []

/-- Whatever is done to the source, the output directory stays as it is. -/
theorem edited_outputsIn (h : (fs.root.get? ["out"]).any Entry.isDir = true) (content : String) :
    Edited ["out"] fs (leftoverFiles content (outputsIn fs)) := by
  have hget : fs.root.get? ["out"] = some (.dir (outputsIn fs)) := by
    unfold outputsIn
    generalize fs.root.get? ["out"] = x at h ⊢
    match x, h with
    | some (.dir outputs), _ => rfl
  apply edited_of_get?
  rw [hget]
  rfl

/-- The files after a first run on the source `a`, which completes. -/
def firstFiles : FileSystem :=
  ((leftoverRequest none).runAll nameParser "/home" (leftoverFiles "a" [])).files

/-- The files after the source became `b` and a second run dealt with it and was cut off. -/
def cutOffFiles : FileSystem :=
  (leftoverBegun "b" (outputsIn firstFiles)).files

/-- The files after the source became `a` again. -/
def revertedFiles : FileSystem :=
  leftoverFiles "a" (outputsIn cutOffFiles)

/-- The third run, which deals with the source. -/
def revertedRun : Begun nameParser "/home" (leftoverRequest none) revertedFiles :=
  leftoverBegun "a" (outputsIn cutOffFiles)

/-- The first two runs, the second one first. -/
def revertedPast : List (Attempt nameParser) :=
  [⟨_, _, _, leftoverBegun "b" (outputsIn firstFiles), true⟩,
    ⟨_, _, _, leftoverBegun "a" [], false⟩]

/-- The outline of the source `a`. -/
theorem extractFile_a {outputs : List (String × Entry)} :
    extractFile nameParser {} (leftoverFiles "a" outputs) false "/src/A.java" =
      .ok (some (Outline.encode ⟨["a"], []⟩)) :=
  rfl

/-- The outline of the source `b`. -/
theorem extractFile_b {outputs : List (String × Entry)} :
    extractFile nameParser {} (leftoverFiles "b" outputs) false "/src/A.java" =
      .ok (some (Outline.encode ⟨["b"], []⟩)) :=
  rfl

/-- A run that was begun goes on from the manifest that it finds. -/
theorem batch_leftoverBegun {content recorded : String} {encoded : Bytes} :
    (leftoverBegun content (outputsAfter encoded recorded)).batch =
      batchFrom nameParser (leftoverManifest recorded) :=
  batch_leftover none load_outputsAfter

/-- The first run wrote the outline of `a` and recorded `a`. -/
theorem firstFiles_eq :
    firstFiles = leftoverFiles "a" (outputsAfter (Outline.encode ⟨["a"], []⟩) "a") := by
  obtain ⟨-, -, hfiles⟩ := exists_firstRun (@extractFile_a [])
  exact hfiles

/-- The second run wrote the outline of `b` and recorded nothing. -/
theorem cutOffFiles_eq :
    cutOffFiles = leftoverFiles "b" (outputsAfter (Outline.encode ⟨["b"], []⟩) "a") := by
  have hne : Blake3.hexHash (utf8 "a") ≠ Blake3.hexHash (utf8 "b") := fun heq =>
    absurd (injOn_leftoverHashed (.tail _ (.head _)) (.tail _ (.tail _ (.head _))) heq) (by decide)
  have houtputs : outputsIn firstFiles = outputsAfter (Outline.encode ⟨["a"], []⟩) "a" := by
    rw [firstFiles_eq]
    rfl
  rw [cutOffFiles, houtputs, Begun.files, batch_leftoverBegun]
  exact (fate_of_changed hne extractFile_b).2

/-- The third run finds the outline of `b` beside the record of `a`. -/
theorem outputsIn_cutOffFiles :
    outputsIn cutOffFiles = outputsAfter (Outline.encode ⟨["b"], []⟩) "a" := by
  rw [cutOffFiles_eq]
  rfl

/-- The third run takes the source for unchanged although its output is the outline of `b`. -/
theorem fate_revertedRun :
    revertedRun.fate ⟨leftoverSource, revertedFiles⟩ =
      .unchanged (utf8 "a") ⟨Blake3.hexHash (utf8 "a"), "A.java.ast"⟩ ∧
    revertedFiles.readBytes "/out/A.java.ast" = .ok (Outline.encode ⟨["b"], []⟩) ∧
    extractFile nameParser revertedRun.options revertedFiles false "/src/A.java" =
      .ok (some (Outline.encode ⟨["a"], []⟩)) ∧
    Outline.encode ⟨["b"], []⟩ ≠ Outline.encode ⟨["a"], []⟩ := by
  refine ⟨?fate, ?stale, extractFile_a, by decide⟩
  -- The content is the first one again, so its hash is the recorded one.
  case fate =>
    have hread : (leftoverFiles "a" (outputsAfter (Outline.encode ⟨["b"], []⟩) "a")).readBytes
        "/src/A.java" = .ok (utf8 "a") := rfl
    have hfresh : (leftoverManifest "a").fresh?
        (leftoverFiles "a" (outputsAfter (Outline.encode ⟨["b"], []⟩) "a")) "/out" "A.java"
        (Blake3.hexHash (utf8 "a")) = some ⟨Blake3.hexHash (utf8 "a"), "A.java.ast"⟩ :=
      Manifest.fresh?_eq_some_iff.2 ⟨rfl, rfl, rfl⟩
    show (leftoverBegun "a" (outputsIn cutOffFiles)).batch.fate
      ⟨leftoverSource, leftoverFiles "a" (outputsIn cutOffFiles)⟩ = _
    rw [outputsIn_cutOffFiles, batch_leftoverBegun]
    exact Batch.fate_of_fresh hread hfresh
  -- The output is still that of the interrupted run.
  case stale =>
    rw [revertedFiles, outputsIn_cutOffFiles]
    rfl

theorem attempted_revertedFiles :
    Attempted nameParser leftoverHashed ["out"] revertedFiles revertedPast := by
  have ha := into_leftoverBegun "a" (.tail _ (.head _)) []
  have hb := into_leftoverBegun "b" (.tail _ (.tail _ (.head _))) (outputsIn firstFiles)
  obtain ⟨c, -⟩ := exists_firstRun (@extractFile_a [])
  -- The first run completes, so it is a begun one that dealt with all its sources.
  have hc : c.begun = leftoverBegun "a" [] :=
    Begun.eq_of_handled_all rfl sourcesOf_leftover.symm
  have hcompleted : Attempted nameParser leftoverHashed ["out"] firstFiles
      [⟨_, _, _, leftoverBegun "a" [], false⟩] := by
    rw [← hc] at ha ⊢
    exact .completed (.start (vacant_of_get? rfl)) c ha nofun
  -- Both runs leave the output directory a directory.
  have hfirst : (firstFiles.root.get? ["out"]).any Entry.isDir = true := by
    rw [firstFiles_eq]
    rfl
  have hcutOff : (cutOffFiles.root.get? ["out"]).any Entry.isDir = true := by
    rw [cutOffFiles_eq]
    rfl
  -- Then come the edit, the interrupted run, and the edit back.
  have hchanged := hcompleted.edit (edited_outputsIn hfirst "b")
  exact (hchanged.cutOff (leftoverBegun "b" (outputsIn firstFiles)) hb).edit
    (edited_outputsIn hcutOff "a")

theorem into_revertedRun : revertedRun.Into leftoverHashed ["out"] :=
  into_leftoverBegun "a" (.tail _ (.head _)) _

/-- What the third run finds at the output was written by the second run, which was cut off. -/
theorem orphaned_of_unchanged_reverted :
    revertedFiles.readBytes "/out/A.java.ast" = .ok (Outline.encode ⟨["b"], []⟩) ∧
      Orphaned "A.java" (Outline.encode ⟨["b"], []⟩) revertedPast := by
  obtain ⟨hfate, hstale, hright, hne⟩ := fate_revertedRun
  obtain ⟨encoded, hread, -, -, houtcome⟩ :=
    extracted_or_orphaned_of_unchanged injOn_leftoverHashed attempted_revertedFiles revertedRun
      into_revertedRun List.mem_cons_self hfate
  obtain rfl := Except.ok.inj (hread.symm.trans hstale)
  refine ⟨hstale, houtcome.resolve_left fun hextract => hne ?_⟩
  exact Option.some.inj (Except.ok.inj (hextract.symm.trans hright))

/-- A source that is changed for a run which is cut off, and then changed back, is taken for
    unchanged, and its output is the outline of the other content. -/
theorem stale_of_unchanged :
    Set.InjOn Blake3.hexHash leftoverHashed ∧
    Attempted nameParser leftoverHashed ["out"] revertedFiles revertedPast ∧
    revertedRun.Into leftoverHashed ["out"] ∧
    ∃ step ∈ revertedRun.steps, ∃ content recorded stale encoded,
      revertedRun.fate step = .unchanged content recorded ∧
      step.before.readBytes (Path.join "/out" recorded.output) = .ok stale ∧
      extractFile nameParser revertedRun.options step.before false step.source.path =
        .ok (some encoded) ∧
      stale ≠ encoded := by
  obtain ⟨hfate, hstale, hright, hne⟩ := fate_revertedRun
  exact ⟨injOn_leftoverHashed, attempted_revertedFiles, into_revertedRun,
    ⟨leftoverSource, revertedFiles⟩, List.mem_cons_self, _, _, _, _, hfate, hstale, hright, hne⟩

end JavaOutline.Command

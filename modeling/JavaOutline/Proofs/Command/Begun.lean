import JavaOutline.Proofs.Command.Leftovers
import Mathlib.Data.List.Perm.Subperm

/-!
# Runs that have come to their batch

A run may be broken off at any time.  Once it has made its output directory it deals with its
sources, in any order, and until the manifest is saved all that it does is to write outputs.
`Begun` is a run up to such a point.  The output of a relative path is then what the run wrote
there, or what was there before.

## Key results

- `Batch.grew_outputs`: a batch changes the outputs of its sources only
- `Batch.grew_around`: nobody else touches the output of a source
- `Begun.output_cases`: where the output of a relative path comes from
-/

namespace JavaOutline.Command

open FileSystem (Grew)

variable {o : List String}

/-! ## One batch -/

namespace Batch

variable {b : Batch} {fs after : FileSystem} {step : Step} {fate : Fate} {sources : List SourceFile}
  {content encoded : Bytes} {rel : String}

/-- An output that is written is what the source is extracted to. -/
theorem extractFile_of_written (h : b.fate step = .written content encoded) :
    step.before.readBytes step.source.path = .ok content ∧
      extractFile b.parser b.options step.before (!b.all) step.source.path =
        .ok (some encoded) := by
  unfold fate at h
  cases hread : step.before.readBytes step.source.path with
  | error e =>
    simp only [hread] at h
    exact nomatch h
  | ok read =>
    simp only [hread] at h
    -- The hash plays no part here.
    generalize b.previous.fresh? step.before b.outDir step.source.rel (Blake3.hexHash read) =
      found at h
    cases found with
    | some recorded => exact nomatch h
    | none =>
      simp only at h
      cases houtcome : extractFile b.parser b.options step.before (!b.all) step.source.path with
      | error e =>
        simp only [houtcome] at h
        exact nomatch h
      | ok found =>
        cases found with
        | none =>
          simp only [houtcome] at h
          exact nomatch h
        | some bytes =>
          simp only [houtcome] at h
          cases hwrite : step.before.writeDeep
              (Path.join b.outDir (outputOf step.source.rel)) bytes with
          | error e =>
            simp only [hwrite] at h
            exact nomatch h
          | ok written =>
            simp only [hwrite] at h
            injection h with hcontent hencoded
            subst hcontent hencoded
            exact ⟨rfl, rfl⟩

/-- Dealing with a source changes its output only. -/
theorem Dealt.grew_output (h : Dealt b step after fate) (hout : OutputDir step.before b.outDir o)
    (hrel : Path.IsRelative step.source.rel) :
    Grew (· = outputPlace o step.source.rel) step.before after := by
  by_cases hfate : ∀ content encoded, fate ≠ .written content encoded
  · exact (h.grew_of_ne_written hout.grounded hfate).mono fun _ h => h.elim
  · cases h with
    | written content encoded hread hwrite =>
      obtain ⟨made, hmade, hwrite⟩ := exists_of_writeDeep hwrite hout.grounded
      obtain ⟨hgrew, -, -⟩ := (hout.grew hmade).grew_writeBytes (isRelative_outputOf hrel) hwrite
      exact (hmade.mono fun _ h => h.elim).trans hgrew
    | _ => exact absurd (fun _ _ => nofun) hfate

/-- A batch changes the outputs of its sources only. -/
theorem grew_outputs (hout : OutputDir fs b.outDir o)
    (hjava : ∀ s ∈ sources, Path.isJava s.path = true)
    (hrel : ∀ s ∈ sources, Path.IsRelative s.rel) :
    Grew (fun q => ∃ s ∈ sources, q = outputPlace o s.rel) fs (b.processAll fs sources).1 := by
  -- By induction on the sources, each of which changes its own output only.
  induction sources generalizing fs with
  | nil => exact .refl _ fs
  | cons s sources ih =>
    rw [List.forall_mem_cons] at hjava hrel
    have hfirst : Grew (· = outputPlace o s.rel) fs (b.process fs s).1 :=
      (@process_spec b ⟨s, fs⟩ hjava.1).2.grew_output hout hrel.1
    have hrest := ih (hout.grew hfirst) hjava.2 hrel.2
    rw [processAll_cons]
    refine (hfirst.mono ?_).trans (hrest.mono ?_)
    · exact fun q hq => ⟨s, List.mem_cons_self, hq⟩
    · rintro q ⟨t, ht, hq⟩
      exact ⟨t, List.mem_cons_of_mem s ht, hq⟩

/-- A batch leaves the output of a relative path alone that none of its sources has. -/
theorem grew_beside (hout : OutputDir fs b.outDir o)
    (hjava : ∀ s ∈ sources, Path.isJava s.path = true)
    (hrel : ∀ s ∈ sources, Path.IsRelative s.rel) (h : Path.IsRelative rel)
    (hne : ∀ s ∈ sources, s.rel ≠ rel) :
    Grew (· ≠ outputPlace o rel) fs (b.processAll fs sources).1 := by
  refine (grew_outputs hout hjava hrel).mono ?_
  rintro q ⟨s, hs, rfl⟩ heq
  exact hne s hs (outputPlace_inj (hrel s hs) h heq)

/-- The sources that come before and after a source with another relative path leave its output
    alone. -/
theorem grew_around (hout : OutputDir fs b.outDir o)
    (hjava : ∀ s ∈ sources, Path.isJava s.path = true)
    (hrel : ∀ s ∈ sources, Path.IsRelative s.rel) (hnodup : (sources.map (·.rel)).Nodup)
    (h : step ∈ b.steps fs sources) :
    Grew (· ≠ outputPlace o step.source.rel) fs step.before ∧
      Grew (· ≠ outputPlace o step.source.rel) (b.process step.before step.source).1
        (b.processAll fs sources).1 := by
  -- By induction on the sources, for any files to start from.
  induction sources generalizing fs with
  | nil => exact nomatch h
  | cons s sources ih =>
    rw [List.forall_mem_cons] at hjava hrel
    rw [List.map_cons, List.nodup_cons] at hnodup
    have hfirst : Grew (· = outputPlace o s.rel) fs (b.process fs s).1 :=
      (@process_spec b ⟨s, fs⟩ hjava.1).2.grew_output hout hrel.1
    have hmid := hout.grew hfirst
    rw [steps] at h
    rcases List.mem_cons.1 h with rfl | h
    · have hothers : ∀ t ∈ sources, t.rel ≠ s.rel := fun t ht heq =>
        hnodup.1 (heq ▸ List.mem_map_of_mem ht)
      exact ⟨.refl _ fs, grew_beside hmid hjava.2 hrel.2 hrel.1 hothers⟩
    · obtain ⟨hbefore, hafter⟩ := ih hmid hjava.2 hrel.2 hnodup.2 h
      refine ⟨(hfirst.mono ?_).trans hbefore, hafter⟩
      -- The first source has another output than the one of this step.
      rintro q rfl heq
      have hmem := source_mem_of_mem_steps h
      have hsame := outputPlace_inj hrel.1 (hrel.2 _ hmem) heq
      exact hnodup.1 (hsame ▸ List.mem_map_of_mem hmem)

end Batch

/-! ## Runs up to a point -/

/-- A run that has come to its batch: what it read, the output directory made, and the sources dealt
    with so far, in the order in which this was done. -/
structure Begun (parser : Parser) (home : String) (r : ExtractRequest) (fs : FileSystem) where
  config : Config
  config_eq : Config.load fs home = .ok config
  start : String
  start_eq : fs.canonical r.path = .ok start
  visits : List Visit
  visits_eq : fs.visits (fs.isExcluded (r.patterns config) r.maxFileSize) Path.isJava start =
    .ok visits
  made : FileSystem
  made_eq : fs.makeDirs r.out = .ok made
  handled : List SourceFile
  handled_subperm : handled.Subperm (sourcesOf visits)

section

variable {parser : Parser} {home : String} {r : ExtractRequest} {fs : FileSystem}

namespace Begun

variable (g : Begun parser home r fs)

/-- The options of a run. -/
def options : ExtractOptions :=
  r.optionsOver g.config.extract

/-- The batch of a run. -/
def batch : Batch :=
  r.batch parser g.config g.made

/-- The steps that a run has taken. -/
def steps : List Step :=
  g.batch.steps g.made g.handled

/-- What became of a source that was dealt with. -/
def fate (step : Step) : Fate :=
  g.batch.fate step

/-- The files as the run has left them so far. -/
def files : FileSystem :=
  (g.batch.processAll g.made g.handled).1

/-- Whether a run wrote an outline as the output of a relative path. -/
def Produced (rel : String) (encoded : Bytes) : Prop :=
  ∃ step ∈ g.steps, step.source.rel = rel ∧ ∃ content, g.fate step = .written content encoded

/-- A run into the directory at a place, on sources with different and ordinary relative paths.  The
    contents that it reads and its settings are among the hashed inputs. -/
structure Into (hashed : Set Bytes) (o : List String) : Prop where
  grounded : fs.Grounded
  leads : g.made.follow (g.made.start r.out) (Path.parts r.out) = .ok (.found o)
  relative : ∀ s ∈ g.handled, Path.IsRelative s.rel
  nodup : (g.handled.map (·.rel)).Nodup
  contents : ∀ step ∈ g.steps, ∀ content, step.before.readBytes step.source.path = .ok content →
    content ∈ hashed
  settings : settingsBytes g.options r.all ∈ hashed
  /-- The nesting budget fits into a machine word. -/
  depth : g.options.maxDepth < Number.wordBound

/-- All sources that are dealt with are Java sources. -/
theorem isJava_of_mem_handled : ∀ s ∈ g.handled, Path.isJava s.path = true :=
  fun _ hs => accept_of_mem_sourcesOf g.visits_eq (g.handled_subperm.subset hs)

/-- Making the output directory changes no file. -/
theorem grew_made (hfs : fs.Grounded) : Grew (fun _ => False) fs g.made :=
  FileSystem.grew_makeDirs hfs g.made_eq

variable {g} {hashed : Set Bytes} {rel : String} {bytes encoded : Bytes} {step : Step}

/-- Runs that have dealt with all their sources in order have done the same. -/
theorem eq_of_handled_all {g g' : Begun parser home r fs} (h : g.handled = sourcesOf g.visits)
    (h' : g'.handled = sourcesOf g'.visits) : g = g' := by
  cases g with | mk config hconfig start hstart visits hvisits made hmade handled hsub =>
  cases g' with | mk config' hconfig' start' hstart' visits' hvisits' made' hmade' handled' hsub' =>
  obtain rfl := Except.ok.inj (hconfig.symm.trans hconfig')
  obtain rfl := Except.ok.inj (hstart.symm.trans hstart')
  obtain rfl := Except.ok.inj (hvisits.symm.trans hvisits')
  obtain rfl := Except.ok.inj (hmade.symm.trans hmade')
  obtain rfl : handled = handled' := h.trans h'.symm
  rfl

/-- There is one step for each relative path. -/
theorem eq_of_rel_eq (hnodup : (g.handled.map (·.rel)).Nodup) {other : Step}
    (hstep : step ∈ g.steps) (hother : other ∈ g.steps)
    (hrel : step.source.rel = other.source.rel) : step = other := by
  have hsteps : (g.steps.map (·.source.rel)).Nodup := by
    rw [← Batch.map_source_steps g.batch g.made g.handled, List.map_map] at hnodup
    exact hnodup
  exact List.inj_on_of_nodup_map hsteps hstep hother hrel

/-- The output of a source whose outline was written is this outline. -/
theorem file_of_written (hinto : g.Into hashed o) (hout : OutputDir g.made r.out o)
    (hstep : step ∈ g.steps) {content : Bytes} (hfate : g.fate step = .written content encoded) :
    g.files.root.get? (outputPlace o step.source.rel) = some (.file encoded) := by
  have hmem := Batch.source_mem_of_mem_steps hstep
  have hdealt := (Batch.process_spec (b := g.batch) (g.isJava_of_mem_handled _ hmem)).2
  have hbefore := hout.grew
    (Batch.grew_of_mem_steps hout.grounded g.isJava_of_mem_handled hstep).1
  have hfile : (g.batch.process step.before step.source).1.root.get?
      (outputPlace o step.source.rel) = some (.file encoded) := by
    rw [show g.batch.fate step = .written content encoded from hfate] at hdealt
    cases hdealt with
    | written _ _ hread hwrite =>
      obtain ⟨made, hmade, hwrite⟩ := Batch.exists_of_writeDeep hwrite hbefore.grounded
      exact ((hbefore.grew hmade).grew_writeBytes
        (isRelative_outputOf (hinto.relative _ hmem)) hwrite).2.2
  -- The sources that come later leave it alone.
  have hafter := (Batch.grew_around hout g.isJava_of_mem_handled hinto.relative hinto.nodup hstep).2
  exact (hafter.root.fixed (not_not_intro rfl)).2 hfile

/-- The output of a relative path is what the run wrote there, or what was there before if it wrote
    nothing there. -/
theorem output_cases (hinto : g.Into hashed o) (hout : OutputDir g.made r.out o)
    (hrel : Path.IsRelative rel)
    (hget : g.files.root.get? (outputPlace o rel) = some (.file bytes)) :
    g.Produced rel bytes ∨
      (∀ encoded, ¬ g.Produced rel encoded) ∧
        fs.root.get? (outputPlace o rel) = some (.file bytes) := by
  by_cases hproduced : ∃ encoded, g.Produced rel encoded
  -- An output of the run is what the step of its source wrote.
  · left
    obtain ⟨encoded, step, hstep, rfl, content, hfate⟩ := hproduced
    cases hget.symm.trans (file_of_written hinto hout hstep hfate)
    exact ⟨step, hstep, rfl, content, hfate⟩
  -- No step wrote it, so what is there was there when the run began.
  · right
    rw [not_exists] at hproduced
    refine ⟨hproduced, ((g.grew_made hinto.grounded).root.fixed not_false).1 ?_⟩
    rcases Batch.file_of_processAll hout g.isJava_of_mem_handled hinto.relative hget with
      hmade | ⟨step, hstep, hplace, content, hfate⟩
    · exact hmade
    -- Sources with one output have one relative path.
    · have hsource := hinto.relative _ (Batch.source_mem_of_mem_steps hstep)
      have hsame := outputPlace_inj hrel hsource hplace
      exact absurd ⟨step, hstep, hsame.symm, content, hfate⟩ (hproduced bytes)

end Begun

/-- A completed run has dealt with all its sources. -/
def Completed.begun (c : Completed parser home r fs) : Begun parser home r fs where
  config := c.config
  config_eq := c.config_eq
  start := c.start
  start_eq := c.start_eq
  visits := c.visits
  visits_eq := c.visits_eq
  made := c.made
  made_eq := c.made_eq
  handled := c.sources
  handled_subperm := .refl _

end

end JavaOutline.Command

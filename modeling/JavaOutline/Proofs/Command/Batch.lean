import JavaOutline.Proofs.Command.Output
import JavaOutline.Proofs.Files.Extract
import JavaOutline.Proofs.Manifest
import Mathlib.Data.Set.Operations

/-!
# What becomes of the sources of a batch

A source that the previous manifest records is left alone only if its output is what extraction
would write again.  So what is recorded of a source, and the output that is found for it, do not
depend on whether it was extracted or left alone.

## Key results

- `settled_process`: what becomes of one source
- `settled_processAll`: what becomes of all sources of a batch, none of which disturbs another
-/

namespace JavaOutline.Command

open FileSystem (Grew LeadsTo)

namespace Batch

/-- The outcome of extracting a source with a content in a batch. -/
def outcome (b : Batch) (content : Bytes) (path : String) : Except ExtractError (Option Bytes) :=
  extractBytes b.parser b.options (!b.all) content path

/-- What the previous manifest records of a source can be relied on: if the output is there, it is
    the outline of a content with the recorded hash. -/
def Trusts (b : Batch) (hashed : Set Bytes) (o : List String) (fs : FileSystem) (rel : String) :
    Prop :=
  ∀ e, b.previous.files.get? rel = some e →
    e.output = outputOf rel ∧
      ∃ source ∈ hashed, e.hash = Blake3.hexHash source ∧
        ∀ bytes, fs.root.get? (outputPlace o rel) = some (.file bytes) →
          ∀ path, b.outcome source path = .ok (some bytes)

/-- What became of a source with a content. -/
inductive Settled (b : Batch) (o : List String) (fs : FileSystem) (s : SourceFile) (content : Bytes)
    (result : FileResult) : Prop where
  /-- Its outline is the recorded output. -/
  | recorded (bytes : Bytes) (houtcome : b.outcome content s.path = .ok (some bytes))
    (hentry : result.recorded = some ⟨Blake3.hexHash content, outputOf s.rel⟩)
    (hmetrics : result.metrics = { filesExtracted := 1 } ∨
      result.metrics = { cacheHits := 1 } ∧ (b.previous.files.get? s.rel).isSome)
    (hleads : fs.LeadsTo (Path.join b.outDir (outputOf s.rel)) (.found (outputPlace o s.rel)))
    (hfile : fs.root.get? (outputPlace o s.rel) = some (.file bytes))
  /-- It is no candidate. -/
  | passedOver (houtcome : b.outcome content s.path = .ok none) (hentry : result.recorded = none)
    (hmetrics : result.metrics = { candidatesSkipped := 1 })
  /-- It has no outline. -/
  | failed (e : ExtractError) (houtcome : b.outcome content s.path = .error e)
    (hentry : result.recorded = none) (hmetrics : result.metrics = Metrics.recordError {} e)
  /-- Its outline could not be written. -/
  | unwritten (hentry : result.recorded = none)
    (hevent : ∃ event ∈ result.events, event.message = "Failed to write output")

variable {b : Batch} {hashed : Set Bytes} {o : List String} {fs fs' : FileSystem} {s : SourceFile}
  {content : Bytes} {result : FileResult}

/-- What became of a source stays while other outputs are written. -/
theorem Settled.grew {free : List String → Prop} (h : Settled b o fs s content result)
    (hgrew : Grew free fs fs') (hfree : ¬ free (outputPlace o s.rel)) :
    Settled b o fs' s content result := by
  cases h with
  | recorded bytes houtcome hentry hmetrics hleads hfile =>
    exact .recorded bytes houtcome hentry hmetrics (hgrew.leadsTo hleads)
      ((hgrew.root.fixed hfree).2 hfile)
  | passedOver houtcome hentry hmetrics => exact .passedOver houtcome hentry hmetrics
  | failed e houtcome hentry hmetrics => exact .failed e houtcome hentry hmetrics
  | unwritten hentry hevent => exact .unwritten hentry hevent

/-- What the previous manifest records can be relied on while other outputs are written. -/
theorem Trusts.grew {free : List String → Prop} {rel : String} (h : b.Trusts hashed o fs rel)
    (hgrew : Grew free fs fs') (hfree : ¬ free (outputPlace o rel)) :
    b.Trusts hashed o fs' rel := by
  intro e he
  obtain ⟨houtput, source, hsource, hhash, hbytes⟩ := h e he
  refine ⟨houtput, source, hsource, hhash, fun bytes hfile => ?_⟩
  exact hbytes bytes ((hgrew.root.fixed hfree).1 hfile)

/-- The content of a source is read from its path. -/
theorem readBytes_of_isSource (hfs : fs.Grounded) (hs : IsSource fs s content) :
    fs.readBytes s.path = .ok content :=
  (FileSystem.readBytes_eq_ok_iff hfs).2 ⟨_, hs.leads, hs.file⟩

/-- A source that is written. -/
theorem settled_write (hout : OutputDir fs b.outDir o) (hrel : Path.IsRelative s.rel)
    {bytes : Bytes} (houtcome : b.outcome content s.path = .ok (some bytes)) {hash : String}
    (hhash : hash = Blake3.hexHash content) (hentry : result.recorded = none)
    (hmetrics : result.metrics = { filesExtracted := 1 }) {written : FileSystem × FileResult}
    (h : b.write fs s hash bytes result = written) :
    Grew (· = outputPlace o s.rel) fs written.1 ∧ written.2.rel = result.rel ∧
      Settled b o written.1 s content written.2 := by
  unfold write at h
  cases hmake : fs.makeLeading (Path.join b.outDir (outputOf s.rel)) with
  -- The directories that lead to the output cannot be made, so nothing happens to the files.
  | error e =>
    simp only [hmake] at h
    subst h
    exact ⟨.refl _ fs, rfl,
      .unwritten hentry ⟨_, List.mem_append_right _ List.mem_cons_self, rfl⟩⟩
  | ok made =>
    -- Making directories touches no file, so neither the output.
    have hmade : Grew (· = outputPlace o s.rel) fs made :=
      (FileSystem.grew_makeDirs hout.grounded hmake).mono fun _ h => h.elim
    simp only [hmake] at h
    cases hwrite : made.writeBytes (Path.join b.outDir (outputOf s.rel)) bytes with
    -- The directories are there, but the output cannot be written.
    | error e =>
      simp only [hwrite] at h
      subst h
      exact ⟨hmade, rfl, .unwritten hentry ⟨_, List.mem_append_right _ List.mem_cons_self, rfl⟩⟩
    | ok done =>
      simp only [hwrite] at h
      subst h hhash
      -- The output is what was written, and its path leads to it.
      obtain ⟨hgrew, hleads, hfile⟩ :=
        (hout.grew hmade).grew_writeBytes (isRelative_outputOf hrel) hwrite
      exact ⟨hmade.trans hgrew, rfl, .recorded bytes houtcome rfl (.inl hmetrics) hleads hfile⟩

/-- A source that is extracted. -/
theorem settled_extract (hout : OutputDir fs b.outDir o) (hs : IsSource fs s content)
    {hash : String} (hhash : hash = Blake3.hexHash content) {done : FileSystem × FileResult}
    (h : b.extract fs s hash = done) :
    Grew (· = outputPlace o s.rel) fs done.1 ∧ done.2.rel = s.rel ∧
      Settled b o done.1 s content done.2 := by
  have hread := readBytes_of_isSource hout.grounded hs
  -- The outcome depends on the content of the source only.
  have houtcome : extractFile b.parser b.options fs (!b.all) s.path = b.outcome content s.path :=
    extractFile_eq hs.java hread
  unfold extract at h
  rw [houtcome] at h
  simp only [Metrics.recordFile, hs.java, if_true] at h
  cases hcase : b.outcome content s.path with
  -- Without an outline nothing is written.
  | error e =>
    simp only [hcase] at h
    subst h
    exact ⟨.refl _ fs, rfl, .failed e hcase rfl rfl⟩
  | ok found =>
    cases found with
    | none =>
      simp only [hcase] at h
      subst h
      exact ⟨.refl _ fs, rfl, .passedOver hcase rfl rfl⟩
    | some bytes =>
      simp only [hcase] at h
      exact settled_write hout hs.rel hcase hhash rfl rfl h

/-- A source that is left alone has the output that extraction would write. -/
theorem settled_fresh (hout : OutputDir fs b.outDir o) (hs : IsSource fs s content)
    (hinj : Set.InjOn Blake3.hexHash hashed) (hcontent : content ∈ hashed)
    (htrusts : b.Trusts hashed o fs s.rel) {e : ManifestEntry}
    (h : b.previous.fresh? fs b.outDir s.rel (Blake3.hexHash content) = some e)
    (hentry : result.recorded = some e) (hmetrics : result.metrics = { cacheHits := 1 }) :
    Settled b o fs s content result := by
  obtain ⟨hget, hhash, hisFile⟩ := Manifest.fresh?_eq_some_iff.1 h
  obtain ⟨houtput, source, hsource, hrecorded, hbytes⟩ := htrusts e hget
  -- Equal hashes mean equal contents, so the record is about this very content.
  obtain rfl : source = content := hinj hsource hcontent (hrecorded.symm.trans hhash)
  obtain ⟨bytes, hread⟩ := FileSystem.exists_readBytes_of_isFile hisFile
  rw [houtput] at hread
  obtain ⟨q, hleads, hfile⟩ := (FileSystem.readBytes_eq_ok_iff hout.grounded).1 hread
  -- The output that is there is the recorded one.
  obtain rfl : q = outputPlace o s.rel := hout.place_eq (isRelative_outputOf hs.rel) hleads
  refine .recorded bytes (hbytes bytes hfile s.path) ?_ (.inr ⟨hmetrics, by simp [hget]⟩) hleads
    hfile
  rw [hentry, ← hhash, ← houtput]

/-- What becomes of one source. -/
theorem settled_process (hout : OutputDir fs b.outDir o) (hs : IsSource fs s content)
    (hinj : Set.InjOn Blake3.hexHash hashed) (hcontent : content ∈ hashed)
    (htrusts : b.Trusts hashed o fs s.rel) {done : FileSystem × FileResult}
    (h : b.process fs s = done) :
    Grew (· = outputPlace o s.rel) fs done.1 ∧ done.2.rel = s.rel ∧
      Settled b o done.1 s content done.2 := by
  unfold process at h
  simp only [readBytes_of_isSource hout.grounded hs] at h
  -- The hash is only compared, never looked into.
  generalize hhash : Blake3.hexHash content = hash at h
  cases hfresh : b.previous.fresh? fs b.outDir s.rel hash with
  | some e =>
    simp only [hfresh] at h
    subst h hhash
    exact ⟨.refl _ fs, rfl, settled_fresh hout hs hinj hcontent htrusts hfresh rfl rfl⟩
  -- A source that is not fresh is extracted.
  | none =>
    simp only [hfresh] at h
    exact settled_extract hout hs hhash.symm h

/-- What becomes of all sources of a batch. -/
theorem settled_processAll {sources : List SourceFile} {contentOf : SourceFile → Bytes}
    (hout : OutputDir fs b.outDir o) (hinj : Set.InjOn Blake3.hexHash hashed)
    (hsources : ∀ s ∈ sources, IsSource fs s (contentOf s) ∧ contentOf s ∈ hashed)
    (hnodup : (sources.map (·.rel)).Nodup)
    (htrusts : ∀ s ∈ sources, b.Trusts hashed o fs s.rel)
    {done : FileSystem × List FileResult} (h : b.processAll fs sources = done) :
    Grew (fun q => ∃ s ∈ sources, q = outputPlace o s.rel) fs done.1 ∧
      List.Forall₂ (fun s result => result.rel = s.rel ∧ Settled b o done.1 s (contentOf s) result)
        sources done.2 := by
  -- By induction on the sources, each of which may only touch its own output.
  induction sources generalizing fs done with
  | nil =>
    subst h
    exact ⟨.refl _ fs, .nil⟩
  | cons s sources ih =>
    obtain ⟨hs, hcontent⟩ := hsources s List.mem_cons_self
    rw [List.map_cons, List.nodup_cons] at hnodup
    rw [processAll] at h
    cases hfirst : b.process fs s with
    | mk mid result =>
      cases hothers : b.processAll mid sources with
      | mk last results =>
        simp only [hfirst, hothers] at h
        subst h
        obtain ⟨hgrew, hrel, hsettled⟩ := settled_process hout hs hinj hcontent
          (htrusts s List.mem_cons_self) hfirst
        -- The output of the first source is at none of the places that count for the others.
        have hothersSources : ∀ t ∈ sources,
            IsSource mid t (contentOf t) ∧ contentOf t ∈ hashed := by
          intro t ht
          obtain ⟨htsource, hthashed⟩ := hsources t (List.mem_cons_of_mem s ht)
          exact ⟨htsource.grew hgrew (ne_outputPlace_of_isSource htsource o hs.rel), hthashed⟩
        have hplaces : ∀ t ∈ sources, outputPlace o t.rel ≠ outputPlace o s.rel := by
          intro t ht heq
          obtain ⟨htsource, -⟩ := hsources t (List.mem_cons_of_mem s ht)
          exact hnodup.1 (outputPlace_inj htsource.rel hs.rel heq ▸ List.mem_map_of_mem ht)
        obtain ⟨hgrewRest, hrest⟩ := ih (hout.grew hgrew) hothersSources hnodup.2
          (fun t ht => (htrusts t (List.mem_cons_of_mem s ht)).grew hgrew (hplaces t ht)) hothers
        -- The first output is not written again.
        refine ⟨(hgrew.mono ?_).trans (hgrewRest.mono ?_), .cons ⟨hrel, ?_⟩ hrest⟩
        · rintro q rfl
          exact ⟨s, List.mem_cons_self, rfl⟩
        · rintro q ⟨t, ht, rfl⟩
          exact ⟨t, List.mem_cons_of_mem s ht, rfl⟩
        · refine hsettled.grew hgrewRest ?_
          rintro ⟨t, ht, heq⟩
          exact hplaces t ht heq.symm

end Batch

/-! ## Results together -/

/-- A manifest with what a result records. -/
def record (m : Manifest) (r : FileResult) : Manifest :=
  match r.recorded with
  | some e => m.insert r.rel e
  | none => m

theorem manifestOf_eq (fingerprint : String) (results : List FileResult) :
    manifestOf fingerprint results = results.foldl record { fingerprint } := rfl

/-- What a manifest records was recorded before or by the last result. -/
theorem mem_record {m : Manifest} {r : FileResult} {p : String × ManifestEntry}
    (h : p ∈ (record m r).files.entries) :
    p ∈ m.files.entries ∨ r.rel = p.1 ∧ r.recorded = some p.2 := by
  unfold record at h
  cases hrecorded : r.recorded with
  | none =>
    simp only [hrecorded] at h
    exact .inl h
  | some e =>
    simp only [hrecorded] at h
    -- The new entry replaces the one under its key and leaves the others.
    rcases FileTable.mem_insertInto h with rfl | h
    · exact .inr ⟨rfl, rfl⟩
    · exact .inl h

/-- What a manifest of results records was recorded by one of them. -/
theorem exists_of_mem_manifestOf {fingerprint : String} {results : List FileResult}
    {p : String × ManifestEntry} (h : p ∈ (manifestOf fingerprint results).files.entries) :
    ∃ r ∈ results, r.rel = p.1 ∧ r.recorded = some p.2 := by
  -- By induction on the results, for any manifest to start from.
  have hfold : ∀ {m : Manifest}, p ∈ (results.foldl record m).files.entries →
      p ∈ m.files.entries ∨ ∃ r ∈ results, r.rel = p.1 ∧ r.recorded = some p.2 := by
    clear h
    induction results with
    | nil => exact .inl
    | cons r results ih =>
      intro m h
      -- What stands in the manifest of the rest was there before or comes from a later result.
      rcases ih h with hm | ⟨r', hr', hrecorded⟩
      · exact (mem_record hm).imp_right fun hrecorded => ⟨r, List.mem_cons_self, hrecorded⟩
      · exact .inr ⟨r', List.mem_cons_of_mem r hr', hrecorded⟩
  exact (hfold h).resolve_left List.not_mem_nil

@[simp] theorem fingerprint_manifestOf (fingerprint : String) (results : List FileResult) :
    (manifestOf fingerprint results).fingerprint = fingerprint := by
  have hfold : ∀ m : Manifest, (results.foldl record m).fingerprint = m.fingerprint := by
    induction results with
    | nil => exact fun _ => rfl
    | cons r results ih =>
      intro m
      rw [List.foldl_cons, ih, record]
      split <;> rfl
  exact hfold _

/-- Results that record the same make the same manifest. -/
theorem manifestOf_congr {fingerprint : String} {results results' : List FileResult}
    (h : List.Forall₂ (fun r r' => r.rel = r'.rel ∧ r.recorded = r'.recorded) results results') :
    manifestOf fingerprint results = manifestOf fingerprint results' := by
  have hfold : ∀ m : Manifest, results.foldl record m = results'.foldl record m := by
    induction h with
    | nil => exact fun _ => rfl
    | @cons r r' _ _ hr _ ih =>
      intro m
      have hrecord : record m r = record m r' := by rw [record, record, hr.1, hr.2]
      rw [List.foldl_cons, List.foldl_cons, hrecord, ih]
  exact hfold _

/-- Counts are added up from the first result on. -/
theorem metricsOf_cons (r : FileResult) (results : List FileResult) :
    metricsOf (r :: results) = r.metrics.merge (metricsOf results) := by
  -- Counts that were there before the first result are added to the others.
  have hfold : ∀ m : Metrics, results.foldl (fun m r => m.merge r.metrics) m =
      m.merge (metricsOf results) := by
    unfold metricsOf
    induction results with
    | nil => exact fun m => rfl
    | cons r results ih =>
      intro m
      rw [List.foldl_cons, List.foldl_cons, ih, ih (Metrics.merge {} r.metrics)]
      simp [Metrics.merge, Nat.add_assoc]
  have hzero : Metrics.merge {} r.metrics = r.metrics := by simp [Metrics.merge]
  rw [metricsOf, List.foldl_cons, hfold, hzero]

/-! ## Two batches of the same sources -/

/-- Counts that differ only in that what is extracted anew in a clean batch may be left alone. -/
structure Matches (m clean : Metrics) : Prop where
  extracted : m.cacheHits + m.filesExtracted = clean.filesExtracted
  skipped : m.candidatesSkipped = clean.candidatesSkipped
  ioErrors : m.ioErrors = clean.ioErrors
  parseErrors : m.parseErrors = clean.parseErrors

theorem Matches.merge {m m' clean clean' : Metrics} (h : Matches m clean) (h' : Matches m' clean') :
    Matches (m.merge m') (clean.merge clean') := by
  obtain ⟨h₁, h₂, h₃, h₄⟩ := h
  obtain ⟨h₁', h₂', h₃', h₄'⟩ := h'
  constructor <;> simp only [Metrics.merge] <;> omega

namespace Batch

variable {b : Batch} {o : List String} {fs : FileSystem} {s : SourceFile} {content : Bytes}
  {result : FileResult}

/-- Whether the outline of a source could be written. -/
def Wrote (result : FileResult) : Prop :=
  ∀ event ∈ result.events, event.message ≠ "Failed to write output"

/-- The record that an outcome makes. -/
def entryFor (s : SourceFile) (content : Bytes) :
    Except ExtractError (Option Bytes) → Option ManifestEntry
  | .ok (some _) => some ⟨Blake3.hexHash content, outputOf s.rel⟩
  | .ok none | .error _ => none

/-- What is recorded of a source and how it counts depends on the outcome of extraction only. -/
theorem Settled.expected (h : Settled b o fs s content result) (hwrote : Wrote result) :
    result.recorded = entryFor s content (b.outcome content s.path) ∧
      Matches result.metrics (Metrics.recordOutcome {} (b.outcome content s.path)) := by
  cases h with
  | recorded bytes houtcome hentry hmetrics =>
    rw [houtcome]
    refine ⟨hentry, ?_⟩
    -- Left alone or extracted, it counts as one extracted in a clean batch.
    rcases hmetrics with hmetrics | ⟨hmetrics, -⟩ <;> rw [hmetrics] <;> constructor <;> rfl
  | passedOver houtcome hentry hmetrics =>
    rw [houtcome]
    refine ⟨hentry, ?_⟩
    rw [hmetrics]
    constructor <;> rfl
  | failed e houtcome hentry hmetrics =>
    rw [houtcome]
    refine ⟨hentry, ?_⟩
    rw [hmetrics]
    cases e <;> constructor <;> rfl
  | unwritten _ hevent =>
    -- An output that cannot be written is logged, which is excluded here.
    obtain ⟨event, hmem, hmessage⟩ := hevent
    exact absurd hmessage (hwrote event hmem)

/-- A source that no manifest records counts as what extraction makes of it. -/
theorem Settled.metrics_eq (h : Settled b o fs s content result) (hwrote : Wrote result)
    (hclean : b.previous.files.get? s.rel = none) :
    result.metrics = Metrics.recordOutcome {} (b.outcome content s.path) := by
  cases h with
  | recorded bytes houtcome hentry hmetrics =>
    rw [houtcome]
    -- Nothing is recorded of the source, so it cannot have been left alone.
    simpa [hclean, Metrics.recordOutcome] using hmetrics
  | passedOver houtcome hentry hmetrics =>
    rw [houtcome]
    exact hmetrics
  | failed e houtcome hentry hmetrics =>
    rw [houtcome]
    exact hmetrics
  | unwritten _ hevent =>
    -- An output that cannot be written is logged, which is excluded here.
    obtain ⟨event, hmem, hmessage⟩ := hevent
    exact absurd hmessage (hwrote event hmem)

end Batch

/-- Two batches of the same sources, of which the second can leave none alone, record the same and
    count alike. -/
theorem matches_of_settled {b b' : Batch} {o o' : List String} {fs fs' : FileSystem}
    {sources : List SourceFile} {contentOf : SourceFile → Bytes}
    {results results' : List FileResult}
    (h : List.Forall₂ (fun s result => result.rel = s.rel ∧ b.Settled o fs s (contentOf s) result)
      sources results)
    (h' : List.Forall₂
      (fun s result => result.rel = s.rel ∧ b'.Settled o' fs' s (contentOf s) result)
      sources results')
    (hwrote : ∀ result ∈ results, Batch.Wrote result)
    (hwrote' : ∀ result ∈ results', Batch.Wrote result) (houtcome : b.outcome = b'.outcome)
    (hclean : ∀ rel, b'.previous.files.get? rel = none) :
    List.Forall₂ (fun r r' => r.rel = r'.rel ∧ r.recorded = r'.recorded) results results' ∧
      Matches (metricsOf results) (metricsOf results') := by
  -- By induction along both lists of results.
  induction h generalizing results' with
  | nil =>
    cases h'
    exact ⟨.nil, by constructor <;> rfl⟩
  | @cons s r sources results hr _ ih =>
    cases h' with
    | @cons _ r' _ results' hr' hrest' =>
      rw [List.forall_mem_cons] at hwrote hwrote'
      obtain ⟨hrecords, hmetrics⟩ := ih hrest' hwrote.2 hwrote'.2
      obtain ⟨hentry, hcounts⟩ := hr.2.expected hwrote.1
      obtain ⟨hentry', -⟩ := hr'.2.expected hwrote'.1
      have hcounts' := hr'.2.metrics_eq hwrote'.1 (hclean s.rel)
      rw [houtcome] at hentry hcounts
      refine ⟨.cons ⟨hr.1.trans hr'.1.symm, hentry.trans hentry'.symm⟩ hrecords, ?_⟩
      rw [metricsOf_cons, metricsOf_cons, hcounts']
      exact hcounts.merge hmetrics

end JavaOutline.Command

import JavaOutline.Proofs.Command.Completed
import JavaOutline.Proofs.Manifest
import Mathlib.Data.List.Forall2

/-!
# Incremental extraction

Runs into one output directory, with edits of the sources and deletions of outputs between them,
leave a directory that is consistent: what its manifest records can be relied on.  So a run that
leaves unchanged sources alone ends with the manifest and the outputs of a run into an empty
directory.

## Key results

- `Reachable`: the states that runs and edits lead to
- `consistent_of_reachable`: every such state is consistent
- `incremental_eq_clean`: an incremental run ends like a clean one
-/

namespace JavaOutline.Command

open FileSystem (Grew LeadsTo Leads)

variable {parser : Parser} {home : String} {r : ExtractRequest} {hashed : Set Bytes}
  {o : List String} {fs fs' : FileSystem}

/-! ## Runs into a directory -/

/-- A completed run into the directory at a place, on a sound file system, whose sources and
    settings are among the hashed inputs.  Its metrics go elsewhere. -/
structure Completed.Into (c : Completed parser home r fs) (hashed : Set Bytes) (o : List String) :
    Prop where
  sound : fs.root.IsSound
  grounded : fs.Grounded
  /-- A backslash would be taken for a slash. -/
  noBackslash : ∀ s ∈ c.sources, '\\' ∉ s.path.toList
  leads : c.made.follow (c.made.start r.out) (Path.parts r.out) = .ok (.found o)
  sources : ∀ s ∈ c.sources, ∀ content, fs.readBytes s.path = .ok content → content ∈ hashed
  settings : settingsBytes c.options r.all ∈ hashed
  /-- The nesting budget fits into a machine word. -/
  depth : c.options.maxDepth < Number.wordBound
  metrics : ∀ path p, r.metrics = some path → path ≠ "-" → c.saved.resolve path = .ok p →
    ¬ o <+: p.place

/-- A place where there is nothing but directories. -/
def Vacant (fs : FileSystem) (o : List String) : Prop :=
  ∀ names e, fs.root.get? (o ++ names) = some e → e.isDir = true

/-- An empty directory is vacant. -/
theorem vacant_of_get? (h : fs.root.get? o = some (.dir [])) : Vacant fs o := by
  intro names e he
  rw [Entry.get?_append, h, Option.bind_some] at he
  rw [Entry.eq_of_get?_empty he]
  rfl

/-- Edits that put nothing but directories at and below a place.  What is there may be deleted, and
    everything elsewhere may change. -/
def Edited (o : List String) (fs fs' : FileSystem) : Prop :=
  ∀ names e, fs'.root.get? (o ++ names) = some e →
    e.isDir = true ∨ fs.root.get? (o ++ names) = some e

/-- Outside a directory everything may change at once. -/
theorem edited_of_get? (h : fs'.root.get? o = some ((fs.root.get? o).getD (.dir []))) :
    Edited o fs fs' := by
  intro names e he
  rw [Entry.get?_append, h, Option.bind_some] at he
  cases hold : fs.root.get? o with
  -- What was in the directory is there as before.
  | some old =>
    right
    rw [Entry.get?_append, hold]
    simpa [hold] using he
  -- There was no directory, so it is new and empty.
  | none =>
    left
    rw [hold] at he
    rw [Entry.eq_of_get?_empty he]
    rfl

/-- Making directories is such an edit. -/
theorem edited_of_grew (h : Grew (fun _ => False) fs fs') (o : List String) : Edited o fs fs' := by
  intro names e hget
  cases e with
  | dir children => exact .inl rfl
  | file content => exact .inr ((h.root.fixed not_false).1 hget)
  | link t => exact .inr (h.root.links.1 hget)

/-- Removing what a path names is such an edit, wherever it is. -/
theorem edited_of_remove {path : String} (h : fs.remove path = .ok fs') (o : List String) :
    Edited o fs fs' := by
  unfold FileSystem.remove at h
  split at h
  · rename_i name _
    cases hdir : fs.dirOf path with
    | error _ =>
      rw [hdir] at h
      exact nomatch h
    | ok dir =>
      rw [hdir] at h
      obtain rfl := Except.ok.inj h
      intro names e he
      by_cases hprefix : (dir ++ [name]) <+: o ++ names
      · -- At and below the removed entry nothing is left.
        obtain ⟨rest, hrest⟩ := hprefix
        rw [← hrest, Entry.get?_erase (by simp)] at he
        exact nomatch he
      · rcases Entry.get?_erase_of_not_prefix hprefix fs.root with heq | ⟨-, ds, hds⟩
        · exact .inr (heq.symm.trans he)
        · left
          rw [Option.some.inj (he.symm.trans hds)]
          rfl
  · exact nomatch h

/-- An empty directory is no file. -/
theorem Vacant.ne_file (h : Vacant fs o) (content : Bytes) :
    fs.root.get? o ≠ some (.file content) := by
  intro hget
  have hdir := h [] (.file content) (by simpa using hget)
  exact nomatch hdir

/-- There is no link in an empty directory. -/
theorem Vacant.ne_link (h : Vacant fs o) (names : List String) (t : String) :
    fs.root.get? (o ++ names) ≠ some (.link t) :=
  fun hget => nomatch h names (.link t) hget

/-- Edits put no file where the directory is. -/
theorem Edited.ne_file (hedited : Edited o fs fs')
    (h : ∀ content, fs.root.get? o ≠ some (.file content)) (content : Bytes) :
    fs'.root.get? o ≠ some (.file content) := by
  intro hget
  rcases hedited [] (.file content) (by simpa using hget) with hdir | hold
  · exact nomatch hdir
  · exact h content (by simpa using hold)

/-- Edits put no links. -/
theorem Edited.ne_link (hedited : Edited o fs fs')
    (h : ∀ names t, fs.root.get? (o ++ names) ≠ some (.link t)) (names : List String)
    (t : String) : fs'.root.get? (o ++ names) ≠ some (.link t) := by
  intro hget
  rcases hedited names (.link t) hget with hdir | hold
  · exact nomatch hdir
  · exact h names t hold

/-- The states that runs into an output directory lead to, with edits between them, from a state
    where the directory is empty. -/
inductive Reachable (parser : Parser) (hashed : Set Bytes) (o : List String) :
    FileSystem → Prop where
  | start {fs : FileSystem} (h : Vacant fs o) : Reachable parser hashed o fs
  | run {home : String} {r : ExtractRequest} {fs : FileSystem} (h : Reachable parser hashed o fs)
    (c : Completed parser home r fs) (hinto : c.Into hashed o) :
    Reachable parser hashed o (r.runAll parser home fs).files
  | edit {fs fs' : FileSystem} (h : Reachable parser hashed o fs) (hedited : Edited o fs fs') :
    Reachable parser hashed o fs'

/-! ## Consistency -/

/-- What a manifest records can be relied on: it was made under some settings, and an output that
    is there is the outline, under these settings, of a content with the recorded hash. -/
def Reliable (parser : Parser) (hashed : Set Bytes) (o : List String) (fs : FileSystem)
    (m : Manifest) : Prop :=
  ∃ options all, m.fingerprint = fingerprint options all ∧ settingsBytes options all ∈ hashed ∧
    options.maxDepth < Number.wordBound ∧
    ∀ p ∈ m.files.entries, p.2.output = outputOf p.1 ∧
      ∃ source ∈ hashed, p.2.hash = Blake3.hexHash source ∧
        ∀ bytes, fs.root.get? (outputPlace o p.1) = some (.file bytes) →
          ∀ path, extractBytes parser options (!all) source path = .ok (some bytes)

/-- A directory without links whose manifest, if it can be read, can be relied on. -/
structure Consistent (parser : Parser) (hashed : Set Bytes) (o : List String) (fs : FileSystem) :
    Prop where
  noFile : ∀ content, fs.root.get? o ≠ some (.file content)
  noLinks : ∀ names t, fs.root.get? (o ++ names) ≠ some (.link t)
  manifest : ∀ bytes m, fs.root.get? (manifestPlace o) = some (.file bytes) →
    Manifest.ofBytes? bytes = some m → Reliable parser hashed o fs m

/-- An empty directory is consistent. -/
theorem Vacant.consistent (h : Vacant fs o) : Consistent parser hashed o fs where
  noFile := h.ne_file
  noLinks := h.ne_link
  manifest bytes _ hget _ := nomatch h [Manifest.fileName] (.file bytes) hget

/-- Edits leave a directory consistent. -/
theorem Consistent.edited (h : Consistent parser hashed o fs) (hedited : Edited o fs fs') :
    Consistent parser hashed o fs' where
  noFile := hedited.ne_file h.noFile
  noLinks := hedited.ne_link h.noLinks
  manifest bytes m hget hm := by
    -- A manifest that is still there is the old one, and so are the outputs.
    rcases hedited [Manifest.fileName] (.file bytes) hget with hdir | hold
    · exact nomatch hdir
    · obtain ⟨options, all, hfingerprint, hsettings, hdepth, hentries⟩ := h.manifest bytes m hold hm
      refine ⟨options, all, hfingerprint, hsettings, hdepth, fun p hp => ?_⟩
      obtain ⟨houtput, source, hsource, hhash, hbytes⟩ := hentries p hp
      refine ⟨houtput, source, hsource, hhash, fun bytes hfile => ?_⟩
      rcases hedited (Path.parts (outputOf p.1)) (.file bytes) hfile with hdir | hold
      · exact nomatch hdir
      · exact hbytes bytes hold

/-- A consistent directory stays so while directories are made. -/
theorem Consistent.grew (h : Consistent parser hashed o fs)
    (hgrew : Grew (fun _ => False) fs fs') : Consistent parser hashed o fs' :=
  h.edited (edited_of_grew hgrew o)

/-! ## One run -/

/-- The manifest to go on from, if it records anything, is the one in the output directory, and it
    was made under the same settings. -/
theorem exists_of_load (hout : OutputDir fs r.out o) {fingerprint rel : String} {e : ManifestEntry}
    (h : (Manifest.load fs r.out fingerprint).files.get? rel = some e) :
    ∃ bytes m, fs.root.get? (manifestPlace o) = some (.file bytes) ∧
      Manifest.ofBytes? bytes = some m ∧ m.fingerprint = fingerprint ∧
      (rel, e) ∈ m.files.entries := by
  rw [Manifest.load_eq] at h
  cases hread : Manifest.read? fs r.out with
  | none =>
    rw [hread] at h
    exact nomatch h
  | some m =>
    simp only [hread] at h
    split at h
    · rename_i hfingerprint
      obtain ⟨bytes, hbytes, hm⟩ : ∃ bytes, fs.readBytes (Manifest.pathIn r.out) = .ok bytes ∧
          Manifest.ofBytes? bytes = some m := by
        unfold Manifest.read? at hread
        cases hbytes : fs.readBytes (Manifest.pathIn r.out) with
        | error e => simp [hbytes, Except.toOption] at hread
        | ok bytes => exact ⟨bytes, rfl, by simpa [hbytes, Except.toOption] using hread⟩
      obtain ⟨q, hleads, hfile⟩ := (FileSystem.readBytes_eq_ok_iff hout.grounded).1 hbytes
      -- The path of the manifest leads into the output directory.
      have hplace : q = o ++ Path.parts Manifest.fileName :=
        hout.place_eq isName_manifest.isRelative hleads
      rw [isName_manifest.parts] at hplace
      subst hplace
      obtain ⟨before, after, hentries, -⟩ := List.lookup_eq_some_iff.1 h
      exact ⟨bytes, m, hfile, hm, hfingerprint, by simp [hentries]⟩
    · exact nomatch h

/-- In a consistent directory a batch can rely on the manifest to go on from. -/
theorem Consistent.trusts {config : Config} (h : Consistent parser hashed o fs)
    (hinj : Set.InjOn Blake3.hexHash hashed) (hout : OutputDir fs r.out o)
    (hsettings : settingsBytes (r.optionsOver config.extract) r.all ∈ hashed)
    (hdepth : (r.optionsOver config.extract).maxDepth < Number.wordBound) (rel : String) :
    (r.batch parser config fs).Trusts hashed o fs rel := by
  intro e he
  obtain ⟨bytes, m, hfile, hm, hfingerprint, hmem⟩ := exists_of_load hout he
  obtain ⟨options, all, hmade, hsettings', hdepth', hentries⟩ := h.manifest bytes m hfile hm
  -- Equal fingerprints mean equal settings, as far as they shape an outline.
  have hbytes : settingsBytes options all = settingsBytes (r.optionsOver config.extract) r.all :=
    hinj hsettings' hsettings (hmade.symm.trans hfingerprint)
  obtain ⟨hsame, rfl, hmarker⟩ := settingsBytes_inj hbytes hdepth' hdepth
  obtain ⟨houtput, source, hsource, hhash, houtcome⟩ := hentries (rel, e) hmem
  refine ⟨houtput, source, hsource, hhash, fun bytes hfile path => ?_⟩
  exact (extractBytes_congr hsame hmarker path).symm.trans (houtcome bytes hfile path)

namespace Completed

variable {c : Completed parser home r fs} {contentOf : SourceFile → Bytes}

/-- What a completed run leaves: its manifest, and what became of its sources. -/
structure Leaves (c : Completed parser home r fs) (contentOf : SourceFile → Bytes)
    (o : List String) (files : FileSystem) : Prop where
  outputDir : OutputDir files r.out o
  leads : files.LeadsTo (Manifest.pathIn r.out) (.found (manifestPlace o))
  manifest : files.root.get? (manifestPlace o) = some (.file c.manifest.encode)
  settled : List.Forall₂ (fun s result => result.rel = s.rel ∧
    (r.batch parser c.config c.made).Settled o files s (contentOf s) result) c.sources c.results

/-- Making the output directory changes no file. -/
theorem Into.grew_made (hinto : c.Into hashed o) : Grew (fun _ => False) fs c.made :=
  FileSystem.grew_makeDirs hinto.grounded c.made_eq

/-- The directory that a run is into, once it is made. -/
theorem Into.outputDir (hinto : c.Into hashed o) (hconsistent : Consistent parser hashed o fs) :
    OutputDir c.made r.out o := by
  have hmade := hconsistent.grew hinto.grew_made
  -- A file or a link cannot stand where the directory is made.
  exact .of_follow (hinto.grew_made.grounded hinto.grounded) hinto.leads hmade.noFile hmade.noLinks

/-- The sources of a run, with their contents. -/
theorem Into.exists_contentOf (hinto : c.Into hashed o) :
    ∃ contentOf : SourceFile → Bytes, ∀ s ∈ c.sources, IsSource fs s (contentOf s) := by
  have hsources : ∀ s, ∃ content, s ∈ c.sources → IsSource fs s content := by
    intro s
    by_cases hs : s ∈ c.sources
    · obtain ⟨content, hsource⟩ :=
        exists_isSource hinto.grounded hinto.sound c.start_eq c.visits_eq hinto.noBackslash hs
      exact ⟨content, fun _ => hsource⟩
    · exact ⟨[], fun h => absurd h hs⟩
  -- One function for all sources lets two runs be compared source by source.
  choose contentOf hcontentOf using hsources
  exact ⟨contentOf, hcontentOf⟩

/-- The sources of a run into a consistent directory are dealt with. -/
theorem Into.settled_written (hinto : c.Into hashed o) (hinj : Set.InjOn Blake3.hexHash hashed)
    (hconsistent : Consistent parser hashed o fs)
    (hsources : ∀ s ∈ c.sources, IsSource fs s (contentOf s)) :
    OutputDir c.written r.out o ∧
      List.Forall₂ (fun s result => result.rel = s.rel ∧
        (r.batch parser c.config c.made).Settled o c.written s (contentOf s) result)
        c.sources c.results := by
  have hout := hinto.outputDir hconsistent
  -- Making the output directory touches no source.
  have hmade : ∀ s ∈ c.sources, IsSource c.made s (contentOf s) ∧ contentOf s ∈ hashed := by
    intro s hs
    have hread := Batch.readBytes_of_isSource hinto.grounded (hsources s hs)
    exact ⟨(hsources s hs).grew hinto.grew_made not_false, hinto.sources s hs _ hread⟩
  -- What the previous manifest records is true of the outputs, whatever was edited since.
  have htrusts : ∀ s ∈ c.sources, (r.batch parser c.config c.made).Trusts hashed o c.made s.rel :=
    fun s _ => (hconsistent.grew hinto.grew_made).trusts hinj hout hinto.settings hinto.depth s.rel
  have hnodup := nodup_rel_sourcesOf hinto.grounded hinto.sound c.start_eq c.visits_eq
    hinto.noBackslash
  -- With sources of different relative paths no output disturbs another.
  obtain ⟨hgrew, hsettled⟩ :=
    Batch.settled_processAll hout hinj hmade hnodup htrusts c.written_eq
  exact ⟨hout.grew hgrew, hsettled⟩

/-- Whatever stands in the second of two related lists is related to something in the first. -/
theorem exists_of_mem_right {α β : Type} {R : α → β → Prop} {as : List α} {bs : List β}
    (h : List.Forall₂ R as bs) {b : β} (hb : b ∈ bs) : ∃ a ∈ as, R a b := by
  induction h with
  | nil => exact nomatch hb
  | @cons a b' as bs hab _ ih =>
    rcases List.mem_cons.1 hb with rfl | hb
    · exact ⟨a, List.mem_cons_self, hab⟩
    · obtain ⟨a', ha', hab'⟩ := ih hb
      exact ⟨a', List.mem_cons_of_mem a ha', hab'⟩

/-- What became of the sources stays while other files are written. -/
theorem settled_grew {files files' : FileSystem} {free : List String → Prop} {b : Batch}
    {sources : List SourceFile} {results : List FileResult} (hgrew : Grew free files files')
    (hfree : ∀ s ∈ sources, ¬ free (outputPlace o s.rel))
    (h : List.Forall₂ (fun s result => result.rel = s.rel ∧
      b.Settled o files s (contentOf s) result) sources results) :
    List.Forall₂ (fun s result => result.rel = s.rel ∧
      b.Settled o files' s (contentOf s) result) sources results :=
  ((List.forall₂_and_left _ _).2 ⟨hfree, h⟩).imp fun _ _ ⟨hs, hrel, hsettled⟩ =>
    ⟨hrel, hsettled.grew hgrew hs⟩

/-- A run into a consistent directory leaves its manifest and outputs. -/
theorem Into.leaves (hinto : c.Into hashed o) (hinj : Set.InjOn Blake3.hexHash hashed)
    (hconsistent : Consistent parser hashed o fs)
    (hsources : ∀ s ∈ c.sources, IsSource fs s (contentOf s)) :
    c.Leaves contentOf o (r.runAll parser home fs).files := by
  obtain ⟨hout, hsettled⟩ := hinto.settled_written hinj hconsistent hsources
  obtain ⟨hgrew, hleads, hfile⟩ := hout.grew_writeBytes isName_manifest.isRelative c.saved_eq
  rw [isName_manifest.parts] at hgrew hleads hfile
  -- The manifest is no output, so saving it leaves the outputs alone.
  have hsaved : c.Leaves contentOf o c.saved := by
    refine ⟨hout.grew hgrew, hleads, hfile, settled_grew hgrew (fun s hs heq => ?_) hsettled⟩
    exact manifestPlace_ne_outputPlace (hsources s hs).rel heq.symm
  rcases c.runAll_spec.1 with heq | ⟨path, hpath, hne, hwrite⟩
  · rw [heq]
    exact hsaved
  · -- The metrics are written to a place outside the output directory.
    obtain ⟨p, hp, hgrew, -, -⟩ := FileSystem.grew_writeBytes hsaved.outputDir.grounded hwrite
    have hplace : ∀ names, o ++ names ≠ p.place := by
      intro names heq
      refine hinto.metrics path p hpath hne ?_ ⟨names, heq⟩
      exact (FileSystem.resolve_eq_ok_iff hsaved.outputDir.grounded).2 hp
    exact ⟨hsaved.outputDir.grew hgrew, hgrew.leadsTo hsaved.leads,
      (hgrew.root.fixed (hplace _)).2 hsaved.manifest,
      settled_grew hgrew (fun s _ => hplace _) hsaved.settled⟩

/-- An entry of the manifest of a run is the record of one of its sources, and its output is the
    outline of this source. -/
theorem Leaves.exists_of_mem {files : FileSystem} (h : c.Leaves contentOf o files)
    {p : String × ManifestEntry} (hp : p ∈ c.manifest.files.entries) :
    ∃ s ∈ c.sources, p = (s.rel, ⟨Blake3.hexHash (contentOf s), outputOf s.rel⟩) ∧
      ∃ bytes,
        (∀ path, extractBytes parser c.options (!r.all) (contentOf s) path = .ok (some bytes)) ∧
        files.LeadsTo (Path.join r.out (outputOf s.rel)) (.found (outputPlace o s.rel)) ∧
        files.root.get? (outputPlace o s.rel) = some (.file bytes) := by
  obtain ⟨result, hresult, hrel, hrecorded⟩ := exists_of_mem_manifestOf hp
  obtain ⟨s, hs, hsrel, hsettled⟩ := exists_of_mem_right h.settled hresult
  -- Only a source whose outline was written or found is recorded.
  cases hsettled with
  | recorded bytes houtcome hentry _ hleads hfile =>
    have hvalue : p.2 = ⟨Blake3.hexHash (contentOf s), outputOf s.rel⟩ :=
      Option.some.inj (hrecorded.symm.trans hentry)
    exact ⟨s, hs, Prod.ext (hrel.symm.trans hsrel) hvalue, bytes,
      fun path => extractBytes_eq_ok_some houtcome, hleads, hfile⟩
  | passedOver _ hentry | failed _ _ hentry | unwritten hentry =>
    exact nomatch hrecorded.symm.trans hentry

/-- A run leaves a consistent directory. -/
theorem Into.consistent (hinto : c.Into hashed o) (hinj : Set.InjOn Blake3.hexHash hashed)
    (hconsistent : Consistent parser hashed o fs) :
    Consistent parser hashed o (r.runAll parser home fs).files := by
  obtain ⟨contentOf, hsources⟩ := hinto.exists_contentOf
  have hleaves := hinto.leaves hinj hconsistent hsources
  constructor
  case noFile => exact hleaves.outputDir.ne_file
  case noLinks => exact hleaves.outputDir.noLinks
  case manifest =>
    intro bytes m hget hm
    rw [hleaves.manifest] at hget
    cases hget
    -- The manifest reads back as the one that was saved.
    rw [Manifest.ofBytes?_encode] at hm
    cases hm
    refine ⟨c.options, r.all, fingerprint_manifestOf _ _, hinto.settings, hinto.depth,
      fun p hp => ?_⟩
    obtain ⟨s, hs, rfl, bytes, houtcome, -, hfile⟩ := hleaves.exists_of_mem hp
    have hread := Batch.readBytes_of_isSource hinto.grounded (hsources s hs)
    refine ⟨rfl, contentOf s, hinto.sources s hs _ hread, rfl, fun bytes' hfile' => ?_⟩
    rw [hfile] at hfile'
    cases hfile'
    exact houtcome

end Completed

/-- Every state that runs and edits lead to is consistent. -/
theorem consistent_of_reachable (hinj : Set.InjOn Blake3.hexHash hashed)
    (h : Reachable parser hashed o fs) : Consistent parser hashed o fs := by
  induction h with
  | start h => exact h.consistent
  | run _ c hinto ih => exact hinto.consistent hinj ih
  | edit _ hedited ih => exact ih.edited hedited

/-! ## Incremental and clean runs -/

/-- The same request with another output directory. -/
def ExtractRequest.into (r : ExtractRequest) (out : String) : ExtractRequest :=
  { r with out }

/-- Nothing is recorded in an empty directory. -/
theorem Vacant.get?_previous (h : Vacant fs o) (hout : OutputDir fs r.out o) (config : Config)
    (rel : String) : (r.batch parser config fs).previous.files.get? rel = none := by
  cases hget : (r.batch parser config fs).previous.files.get? rel with
  | none => rfl
  | some e =>
    obtain ⟨bytes, m, hfile, -⟩ := exists_of_load hout hget
    exact nomatch h [Manifest.fileName] (.file bytes) hfile

theorem Vacant.grew (h : Vacant fs o) (hgrew : Grew (fun _ => False) fs fs') : Vacant fs' o := by
  intro names e hget
  cases e with
  | dir children => rfl
  | file content => exact h names _ ((hgrew.root.fixed not_false).1 hget)
  | link t => exact h names _ (hgrew.root.links.1 hget)

/-- The manifest that a run leaves is read back. -/
theorem Completed.Leaves.readBytes_manifest {c : Completed parser home r fs}
    {contentOf : SourceFile → Bytes} {files : FileSystem} (h : c.Leaves contentOf o files) :
    files.readBytes (Manifest.pathIn r.out) = .ok c.manifest.encode :=
  (FileSystem.readBytes_eq_ok_iff h.outputDir.grounded).2 ⟨_, h.leads, h.manifest⟩

section

variable {r' : ExtractRequest} {fs₀ files files' : FileSystem} {o' : List String}
  {c : Completed parser home r fs} {d : Completed parser home r' fs₀}
  {contentOf : SourceFile → Bytes}

/-- Two runs on the same sources under the same settings, of which the second can leave none alone,
    make the same manifest and count alike. -/
theorem Completed.Leaves.manifest_eq (hc : c.Leaves contentOf o files)
    (hd : d.Leaves contentOf o' files') (hwrote : ∀ result ∈ c.results, Batch.Wrote result)
    (hwrote' : ∀ result ∈ d.results, Batch.Wrote result) (hsources : d.sources = c.sources)
    (hoptions : d.options = c.options) (hall : r'.all = r.all)
    (hprevious : ∀ rel, (r'.batch parser d.config d.made).previous.files.get? rel = none) :
    d.manifest = c.manifest ∧ Matches c.metrics d.metrics := by
  -- Both batches extract with the same settings.
  have houtcome : (r.batch parser c.config c.made).outcome =
      (r'.batch parser d.config d.made).outcome := by
    change extractBytes parser c.options (!r.all) = extractBytes parser d.options (!r'.all)
    rw [hoptions, hall]
  obtain ⟨hrecords, hmetrics⟩ := matches_of_settled hc.settled (hsources ▸ hd.settled) hwrote
    hwrote' houtcome hprevious
  refine ⟨?_, hmetrics⟩
  rw [Completed.manifest, Completed.manifest, hoptions, hall, manifestOf_congr hrecords]

/-- Two runs under the same settings that leave the same manifest leave the same outputs. -/
theorem Completed.Leaves.exists_readBytes (hc : c.Leaves contentOf o files)
    (hd : d.Leaves contentOf o' files') (hinj : Set.InjOn Blake3.hexHash hashed)
    (hhashed : ∀ s ∈ c.sources, contentOf s ∈ hashed) (hsources : d.sources = c.sources)
    (hoptions : d.options = c.options) (hall : r'.all = r.all) (hmanifest : d.manifest = c.manifest)
    {p : String × ManifestEntry} (hp : p ∈ c.manifest.files.entries) :
    ∃ bytes, files.readBytes (Path.join r.out p.2.output) = .ok bytes ∧
      files'.readBytes (Path.join r'.out p.2.output) = .ok bytes := by
  obtain ⟨s, hs, rfl, bytes, houtcome, hleads, hfile⟩ := hc.exists_of_mem hp
  obtain ⟨t, ht, heq, bytes', houtcome', hleads', hfile'⟩ := hd.exists_of_mem (hmanifest ▸ hp)
  obtain ⟨hrel, hentry⟩ := Prod.mk.inj heq
  -- An entry tells the content of its source by the hash.
  have hcontent : contentOf s = contentOf t :=
    hinj (hhashed s hs) (hhashed t (hsources ▸ ht)) (ManifestEntry.mk.inj hentry).1
  obtain rfl : bytes = bytes' := by
    have hread := houtcome' s.path
    rw [hoptions, hall, ← hcontent, houtcome s.path] at hread
    exact Option.some.inj (Except.ok.inj hread)
  rw [← hrel] at hleads' hfile'
  exact ⟨bytes, (FileSystem.readBytes_eq_ok_iff hc.outputDir.grounded).2 ⟨_, hleads, hfile⟩,
    (FileSystem.readBytes_eq_ok_iff hd.outputDir.grounded).2 ⟨_, hleads', hfile'⟩⟩

end

/-- An incremental run, after any runs and edits, ends like the same run into an empty directory:
    with the same manifest, with the same outputs, and with counts that differ only in that sources
    may be left alone. -/
theorem incremental_eq_clean {clean : String} {o' : List String}
    (hinj : Set.InjOn Blake3.hexHash hashed) (hreachable : Reachable parser hashed o fs)
    (c : Completed parser home r fs) (hinto : c.Into hashed o)
    (hwrote : (r.runAll parser home fs).WroteAll)
    (d : Completed parser home (r.into clean) fs) (hclean : d.Into hashed o')
    (hvacant : Vacant fs o') (hwrote' : ((r.into clean).runAll parser home fs).WroteAll) :
    ∃ m : Manifest,
      (r.runAll parser home fs).files.readBytes (Manifest.pathIn r.out) = .ok m.encode ∧
      ((r.into clean).runAll parser home fs).files.readBytes (Manifest.pathIn clean) =
        .ok m.encode ∧
      (∀ p ∈ m.files.entries, ∃ bytes,
        (r.runAll parser home fs).files.readBytes (Path.join r.out p.2.output) = .ok bytes ∧
        ((r.into clean).runAll parser home fs).files.readBytes (Path.join clean p.2.output) =
          .ok bytes) ∧
      Matches c.metrics d.metrics := by
  obtain ⟨contentOf, hsources⟩ := hinto.exists_contentOf
  -- Both runs read the same configuration and find the same sources.
  have hconfig : d.config = c.config := Except.ok.inj (d.config_eq.symm.trans c.config_eq)
  have hstart : d.start = c.start := Except.ok.inj (d.start_eq.symm.trans c.start_eq)
  have hvisits : d.visits = c.visits := by
    have heq := d.visits_eq
    rw [hconfig, hstart] at heq
    exact Except.ok.inj (heq.symm.trans c.visits_eq)
  have hsame : d.sources = c.sources := by rw [Completed.sources, Completed.sources, hvisits]
  have hoptions : d.options = c.options := by
    rw [Completed.options, Completed.options, hconfig]
    rfl
  -- What each run leaves is determined by the sources alone.
  have hc := hinto.leaves hinj (consistent_of_reachable hinj hreachable) hsources
  have hd := hclean.leaves hinj hvacant.consistent (hsame.symm ▸ hsources)
  have hhashed : ∀ s ∈ c.sources, contentOf s ∈ hashed := fun s hs =>
    hinto.sources s hs _ (Batch.readBytes_of_isSource hinto.grounded (hsources s hs))
  have hprevious : ∀ rel,
      ((r.into clean).batch parser d.config d.made).previous.files.get? rel = none :=
    (hvacant.grew hclean.grew_made).get?_previous (hclean.outputDir hvacant.consistent) d.config
  obtain ⟨hmanifest, hmetrics⟩ :=
    hc.manifest_eq hd (c.wrote hwrote) (d.wrote hwrote') hsame hoptions rfl hprevious
  refine ⟨c.manifest, hc.readBytes_manifest, hmanifest ▸ hd.readBytes_manifest, ?_, hmetrics⟩
  intro p hp
  exact hc.exists_readBytes hd hinj hhashed hsame hoptions rfl hmanifest hp

/-! ## A run after a run -/

/-- A source with other files, a used output directory and an empty one. -/
def sampleFiles (others : List (String × Entry)) (used : Entry) : FileSystem where
  root := .dir [("src", .dir (("A.java", .file (utf8 "A")) :: others)), ("out", used),
    ("clean", .dir [])]
  workingDir := []

/-- A request to extract all sources. -/
def sampleRequest : ExtractRequest := { path := "/src", out := "/out", all := true }

/-- A parser that finds no declarations. -/
def sampleParser : Parser := fun _ => some { kind := "program" }

/-- The files before the first run. -/
def sampleBefore : FileSystem := sampleFiles [] (.dir [])

/-- The files after the first run and an edit that adds a file to the sources. -/
def sampleAfter : FileSystem :=
  sampleFiles [("notes.txt", .file [])]
    (((sampleRequest.runAll sampleParser "/home" sampleBefore).files.root.get? ["out"]).getD
      (.dir []))

/-- All that is hashed. -/
def sampleHashed : Set Bytes :=
  {settingsBytes {} true, utf8 "A"}

theorem injOn_sampleHashed : Set.InjOn Blake3.hexHash sampleHashed := by
  have hne : Blake3.hexHash (settingsBytes {} true) ≠ Blake3.hexHash (utf8 "A") := by
    decide +kernel
  rintro a (rfl | rfl) b (rfl | rfl) heq
  · rfl
  · exact absurd heq hne
  · exact absurd heq.symm hne
  · rfl

/-- What is found before a run of the sample. -/
def IsSample (fs : FileSystem) : Prop :=
  fs.root.IsSound ∧ fs.Grounded ∧ Config.load fs "/home" = .ok {} ∧
    fs.canonical "/src" = .ok "/src" ∧
    fs.sources (fs.isExcluded (sampleRequest.patterns {}) sampleRequest.maxFileSize) Path.isJava
      "/src" = .ok [⟨"A.java", "/src/A.java"⟩] ∧
    fs.readBytes "/src/A.java" = .ok (utf8 "A")

instance (fs : FileSystem) : Decidable (IsSample fs) :=
  inferInstanceAs (Decidable (_ ∧ _ ∧ _ ∧ _ ∧ _ ∧ _))

/-- A run of the sample into a directory that is there. -/
theorem into_of_isSample {out : String}
    (c : Completed sampleParser "/home" (sampleRequest.into out) fs) (h : IsSample fs)
    (hout : fs.follow (fs.start out) (Path.parts out) = .ok (.found o)) :
    c.Into sampleHashed o := by
  obtain ⟨hsound, hgrounded, hconfig, hstart, hsources, hread⟩ := h
  -- The stages of the run are those that the files of the sample give.
  have hconfig : c.config = {} := Except.ok.inj (c.config_eq.symm.trans hconfig)
  have hstart : c.start = "/src" := Except.ok.inj (c.start_eq.symm.trans hstart)
  have hsources : c.sources = [⟨"A.java", "/src/A.java"⟩] := by
    have hvisits := c.visits_eq
    rw [hconfig, hstart] at hvisits
    replace hvisits : fs.visits (fs.isExcluded (sampleRequest.patterns {})
      sampleRequest.maxFileSize) Path.isJava "/src" = .ok c.visits := hvisits
    rw [FileSystem.sources, hvisits] at hsources
    exact Except.ok.inj hsources
  have hoptions : c.options = {} := by
    rw [Completed.options, hconfig]
    rfl
  constructor
  case sound => exact hsound
  case grounded => exact hgrounded
  -- There is one source, with a plain name and a known content.
  case noBackslash =>
    rw [hsources]
    decide
  case leads => exact c.follow_made hgrounded hout
  case sources =>
    rw [hsources]
    intro s hs content hcontent
    obtain rfl := List.mem_singleton.1 hs
    exact .inr (Except.ok.inj (hcontent.symm.trans hread))
  -- The settings are the defaults.
  case settings =>
    rw [hoptions]
    exact .inl rfl
  case depth =>
    rw [hoptions]
    decide
  case metrics => exact nofun

/-- The files after the first run and the edit can be reached. -/
theorem reachable_sampleAfter : Reachable sampleParser sampleHashed ["out"] sampleAfter := by
  have hfatal : (sampleRequest.runAll sampleParser "/home" sampleBefore).fatal = none := by
    decide +kernel
  have hbefore : IsSample sampleBefore ∧
      sampleBefore.follow (sampleBefore.start "/out") (Path.parts "/out") =
        .ok (.found ["out"]) := by
    decide +kernel
  -- The first run, from an empty output directory, and then the edit of the source.
  obtain ⟨c⟩ := nonempty_completed hfatal
  have hfirst := Reachable.run (.start (vacant_of_get? rfl)) c
    (into_of_isSample c hbefore.1 hbefore.2)
  exact .edit hfirst (edited_of_get? rfl)

/-- The sample is extracted again, into the same directory and into an empty one. -/
theorem incremental_eq_clean_sample :
    ∃ m : Manifest,
      (sampleRequest.runAll sampleParser "/home" sampleAfter).files.readBytes
        (Manifest.pathIn "/out") = .ok m.encode ∧
      ((sampleRequest.into "/clean").runAll sampleParser "/home" sampleAfter).files.readBytes
        (Manifest.pathIn "/clean") = .ok m.encode := by
  -- Both directories are there, and the second run and the clean one go through.
  have hafter : IsSample sampleAfter ∧
      sampleAfter.follow (sampleAfter.start "/out") (Path.parts "/out") = .ok (.found ["out"]) ∧
      sampleAfter.follow (sampleAfter.start "/clean") (Path.parts "/clean") =
        .ok (.found ["clean"]) := by
    decide +kernel
  have hrun : (sampleRequest.runAll sampleParser "/home" sampleAfter).fatal = none ∧
      (sampleRequest.runAll sampleParser "/home" sampleAfter).WroteAll := by
    decide +kernel
  have hclean :
      ((sampleRequest.into "/clean").runAll sampleParser "/home" sampleAfter).fatal = none ∧
      ((sampleRequest.into "/clean").runAll sampleParser "/home" sampleAfter).WroteAll := by
    decide +kernel
  obtain ⟨c⟩ := nonempty_completed hrun.1
  obtain ⟨d⟩ := nonempty_completed hclean.1
  -- The history is the first run with the edit behind it.
  obtain ⟨m, hm, hm', -, -⟩ := incremental_eq_clean injOn_sampleHashed reachable_sampleAfter c
    (into_of_isSample c hafter.1 hafter.2.1) hrun.2 d (into_of_isSample d hafter.1 hafter.2.2)
    (vacant_of_get? rfl) hclean.2
  exact ⟨m, hm, hm'⟩

end JavaOutline.Command

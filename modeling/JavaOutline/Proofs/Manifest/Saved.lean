import JavaOutline.Proofs.Files.Look
import JavaOutline.Proofs.Manifest

/-!
# Saved manifests

A manifest that is saved is the one that the next run goes on from, if it runs under the same
settings; under other settings the next run starts from nothing.  Saving takes no output away, so
what was fresh stays fresh.  The one thing that saving can make fresh is an entry whose output is
the manifest itself, and only if there was no manifest before.

## Key results

- `load_of_save`, `load_of_save_of_ne`: which manifest is gone on from
- `fresh?_of_save`: what is fresh once a manifest is saved
- `load_saved`: all of it, for every directory into which a manifest can be written
-/

namespace JavaOutline

namespace FileSystem

variable {fs : FileSystem} {path path' : String}

/-- A path that a file can be written to: it leads to a free name in a directory or to a file. -/
def IsWritable (fs : FileSystem) (path : String) : Prop :=
  ∃ p, fs.resolve path = .ok p ∧ fs.root.look p.place ≠ some .dir

/-- Writing succeeds where a file can be written. -/
theorem IsWritable.exists_writeBytes (h : fs.IsWritable path) (hfs : fs.Grounded)
    (content : Bytes) : ∃ fs', fs.writeBytes path content = .ok fs' := by
  obtain ⟨p, hresolve, hfree⟩ := h
  exact ⟨_, (writeBytes_eq_ok_iff hfs).2 ⟨p, (resolve_eq_ok_iff hfs).1 hresolve, hfree, rfl⟩⟩

/-- What has been written can be read. -/
theorem readBytes_writeBytes (hfs : fs.Grounded) {fs' : FileSystem} {content : Bytes}
    (h : fs.writeBytes path content = .ok fs') : fs'.readBytes path = .ok content := by
  obtain ⟨p, -, hgrew, hleads, hfile⟩ := grew_writeBytes hfs h
  exact (readBytes_eq_ok_iff (hgrew.grounded hfs)).2 ⟨p.place, hleads, hfile⟩

/-- Whether a path names a file depends on what it leads to. -/
theorem isFile_congr (h : fs.resolve path = fs.resolve path') :
    fs.isFile path = fs.isFile path' := by
  rw [isFile, isFile, entryOf, entryOf, placeOf, placeOf, h]

end FileSystem

namespace Manifest

variable {fs fs' : FileSystem} {outDir : String} {m : Manifest}

/-- A saved manifest is gone on from under its own fingerprint. -/
theorem load_of_save (hfs : fs.Grounded) (h : m.save fs outDir = .ok fs') :
    load fs' outDir m.fingerprint = m :=
  load_of_encode (FileSystem.readBytes_writeBytes hfs h)

/-- Under any other fingerprint nothing is gone on from. -/
theorem load_of_save_of_ne (hfs : fs.Grounded) (h : m.save fs outDir = .ok fs')
    {fingerprint : String} (hne : fingerprint ≠ m.fingerprint) :
    load fs' outDir fingerprint = { fingerprint } := by
  rw [load_eq, read?_of_encode (FileSystem.readBytes_writeBytes hfs h)]
  exact if_neg hne.symm

/-- The entry of a source is that of this hash, and its output is where the manifest would be, which
    is not there yet. -/
def AwaitsItself (m : Manifest) (fs : FileSystem) (outDir rel hash : String) : Prop :=
  fs.isFile (pathIn outDir) = false ∧
    ∃ e, m.files.get? rel = some e ∧ e.hash = hash ∧
      fs.resolve (Path.join outDir e.output) = fs.resolve (pathIn outDir)

/-- Once the manifest is saved, an entry is fresh if it was so before or if it awaited the
    manifest. -/
theorem fresh?_of_save (hfs : fs.Grounded) (h : m.save fs outDir = .ok fs') {rel hash : String}
    {e : ManifestEntry} :
    m.fresh? fs' outDir rel hash = some e ↔
      m.fresh? fs outDir rel hash = some e ∨
        m.AwaitsItself fs outDir rel hash ∧ m.files.get? rel = some e := by
  rw [fresh?_eq_some_iff, fresh?_eq_some_iff, FileSystem.isFile_writeBytes hfs h]
  constructor
  · rintro ⟨hget, hhash, hfile | hsame⟩
    · exact .inl ⟨hget, hhash, hfile⟩
    · -- The output is the manifest, so it was there before if the manifest was.
      cases hold : fs.isFile (pathIn outDir) with
      | true => exact .inl ⟨hget, hhash, (FileSystem.isFile_congr hsame).trans hold⟩
      | false => exact .inr ⟨⟨hold, e, hget, hhash, hsame⟩, hget⟩
  · rintro (⟨hget, hhash, hfile⟩ | ⟨⟨-, e', hget', hhash, hsame⟩, hget⟩)
    · exact ⟨hget, hhash, .inl hfile⟩
    · obtain rfl : e' = e := Option.some.inj (hget'.symm.trans hget)
      exact ⟨hget, hhash, .inr hsame⟩

/-- An entry that awaits the manifest is not fresh. -/
theorem AwaitsItself.fresh?_eq_none {rel hash : String}
    (h : m.AwaitsItself fs outDir rel hash) : m.fresh? fs outDir rel hash = none := by
  obtain ⟨hold, e, hget, -, hsame⟩ := h
  rw [Option.eq_none_iff_forall_ne_some]
  intro e' he'
  obtain ⟨hget', -, hfile⟩ := fresh?_eq_some_iff.1 he'
  obtain rfl : e = e' := Option.some.inj (hget.symm.trans hget')
  rw [FileSystem.isFile_congr hsame, hold] at hfile
  exact nomatch hfile

/-- A manifest can be saved wherever its path can be written.  It is then gone on from under its own
    fingerprint, and under any other one nothing is.  All entries are as fresh as before, but for
    those that awaited the manifest: these are fresh now. -/
theorem load_saved (m : Manifest) (fs : FileSystem) (outDir : String) (hfs : fs.Grounded)
    (hwritable : fs.IsWritable (pathIn outDir)) :
    ∃ fs', m.save fs outDir = .ok fs' ∧ load fs' outDir m.fingerprint = m ∧
      (∀ f, f ≠ m.fingerprint → load fs' outDir f = { fingerprint := f }) ∧
      ∀ rel hash,
        (¬ m.AwaitsItself fs outDir rel hash →
          (load fs' outDir m.fingerprint).fresh? fs' outDir rel hash =
            m.fresh? fs outDir rel hash) ∧
        (m.AwaitsItself fs outDir rel hash →
          m.fresh? fs outDir rel hash = none ∧
            (load fs' outDir m.fingerprint).fresh? fs' outDir rel hash = m.files.get? rel) := by
  obtain ⟨fs', hsave⟩ := hwritable.exists_writeBytes hfs m.encode
  have hload := load_of_save hfs hsave
  refine ⟨fs', hsave, hload, fun f hne => load_of_save_of_ne hfs hsave hne, fun rel hash => ?_⟩
  -- What is loaded is the manifest itself, so only the files have changed.
  rw [hload]
  constructor
  -- No other file than the manifest was written.
  · intro hnot
    ext e
    rw [fresh?_of_save hfs hsave]
    simp only [hnot, false_and, or_false]
  -- The entry names the file of the manifest, which is there only once it is saved.
  · intro hawaits
    refine ⟨hawaits.fresh?_eq_none, ?_⟩
    ext e
    rw [fresh?_of_save hfs hsave, hawaits.fresh?_eq_none]
    simp only [hawaits, true_and, reduceCtorEq, false_or]

/-- An output directory with the output of one source and no manifest. -/
def oneOutputFiles : FileSystem where
  root := .dir [("out", .dir [("A.java.ast", .file [])])]
  workingDir := []

/-- A manifest with two entries, one of which names the manifest as its output. -/
def selfNaming : Manifest where
  fingerprint := "f"
  files := ⟨[("A.java", ⟨"a", "A.java.ast"⟩), ("B.java", ⟨"b", "manifest.json"⟩)], by decide⟩

theorem isWritable_oneOutputFiles : oneOutputFiles.IsWritable (pathIn "out") :=
  ⟨.absent ["out"] fileName, by rfl, by decide⟩

/-- Saved next to the output of `A.java`, `selfNaming` is read back, and the output is as fresh as
    before. -/
theorem load_saved_selfNaming :
    ∃ fs', selfNaming.save oneOutputFiles "out" = .ok fs' ∧ load fs' "out" "f" = selfNaming ∧
      load fs' "out" "g" = { fingerprint := "g" } ∧
      (load fs' "out" "f").fresh? fs' "out" "A.java" "a" = some ⟨"a", "A.java.ast"⟩ := by
  obtain ⟨fs', hsave, hload, hother, hfresh⟩ :=
    load_saved selfNaming oneOutputFiles "out" (by decide) isWritable_oneOutputFiles
  refine ⟨fs', hsave, hload, hother "g" (by decide), ?_⟩
  refine ((hfresh "A.java" "a").1 ?_).trans (by decide)
  rintro ⟨-, e, hget, -, hsame⟩
  cases hget
  exact absurd hsame (by decide)

/-- The other entry of `selfNaming` is not fresh before the manifest is saved, and it is fresh
    once the manifest is. -/
theorem fresh_only_once_saved :
    ∃ fs', selfNaming.save oneOutputFiles "out" = .ok fs' ∧ load fs' "out" "f" = selfNaming ∧
      selfNaming.fresh? oneOutputFiles "out" "B.java" "b" = none ∧
      (load fs' "out" "f").fresh? fs' "out" "B.java" "b" = some ⟨"b", "manifest.json"⟩ := by
  have hfs : oneOutputFiles.Grounded := by decide
  obtain ⟨fs', hsave⟩ := isWritable_oneOutputFiles.exists_writeBytes hfs selfNaming.encode
  -- The entry for the source names the file that is about to be saved.
  have hawaits : selfNaming.AwaitsItself oneOutputFiles "out" "B.java" "b" :=
    ⟨by decide, _, rfl, rfl, rfl⟩
  have hload : load fs' "out" "f" = selfNaming := load_of_save hfs hsave
  refine ⟨fs', hsave, hload, hawaits.fresh?_eq_none, ?_⟩
  rw [hload, fresh?_of_save hfs hsave]
  exact .inr ⟨hawaits, rfl⟩

end Manifest

end JavaOutline

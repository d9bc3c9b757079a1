import JavaOutline.Proofs.Files.Extract
import JavaOutline.Proofs.Manifest
import Mathlib.Data.Set.Function

/-!
# What a fingerprint stands for

A fingerprint is the hash of the nesting budget, of whether all files are wanted, and of the marker
in lower case.  Where the hash has no collision it stands for these settings, and they are all that
extraction depends on: under equal fingerprints a file is extracted to the same bytes, passed over
or refused with the same cause, however long the parser may take for it.

## Key results

- `fingerprint_eq_iff`: equal fingerprints mean equal settings
- `extractFile_congr`: the settings behind a fingerprint are all that extraction depends on
- `fingerprint_covers_settings`: both, for any two settings
-/

namespace JavaOutline

section

variable {parser parser' : Parser} {options options' : ExtractOptions} {source : String}

/-- Whether a source is a candidate depends on its syntax tree and on the marker in lower case. -/
theorem isCandidate_congr (hparse : parser source = parser' source)
    (hmarker : Text.lower options.marker = Text.lower options'.marker) (origin : String) :
    isCandidate parser options source origin = isCandidate parser' options' source origin := by
  unfold isCandidate parseSource
  rw [hparse, hmarker]

/-- The outline of a source depends on its syntax tree and on the nesting budget. -/
theorem extractSource_congr (hparse : parser source = parser' source)
    (hdepth : options.maxDepth = options'.maxDepth) (origin : String) :
    extractSource parser options source origin = extractSource parser' options' source origin := by
  unfold extractSource extractNoted parseSource
  rw [hparse, hdepth]

/-- What becomes of a file depends on the syntax tree of its text, on the nesting budget and on the
    marker in lower case. -/
theorem extractFile_congr {fs : FileSystem} {path : String}
    (hparse : ∀ source, readSource fs path = .ok source → parser source = parser' source)
    (hdepth : options.maxDepth = options'.maxDepth)
    (hmarker : Text.lower options.marker = Text.lower options'.marker) (candidatesOnly : Bool) :
    extractFile parser options fs candidatesOnly path =
      extractFile parser' options' fs candidatesOnly path := by
  have hjava : extractJava parser options fs candidatesOnly path =
      extractJava parser' options' fs candidatesOnly path := by
    unfold extractJava
    cases hread : readSource fs path with
    -- A file that cannot be read is never parsed.
    | error cause => rfl
    | ok source =>
      have hsame := hparse source hread
      simp only [bind, Except.bind, isCandidate_congr hsame hmarker path,
        extractSource_congr hsame hdepth path]
  rw [extractFile, extractFile, hjava]

end

section

variable {options options' : ExtractOptions} {all all' : Bool}

/-- Equal fingerprints mean an equal budget, an equal wish for all files, and markers that differ in
    case only, if the hash tells the settings apart. -/
theorem fingerprint_eq_iff (hdepth : options.maxDepth < Number.wordBound)
    (hdepth' : options'.maxDepth < Number.wordBound)
    (hinj : Set.InjOn Blake3.hexHash {settingsBytes options all, settingsBytes options' all'}) :
    fingerprint options all = fingerprint options' all' ↔
      options.maxDepth = options'.maxDepth ∧ all = all' ∧
        Text.lower options.marker = Text.lower options'.marker := by
  constructor
  · intro h
    -- Equal hashes of the two encodings mean equal encodings, which are read back.
    have hbytes : settingsBytes options all = settingsBytes options' all' :=
      hinj (by simp) (by simp) h
    exact settingsBytes_inj hbytes hdepth hdepth'
  · rintro ⟨hsame, rfl, hmarker⟩
    rw [fingerprint, fingerprint, settingsBytes, settingsBytes, hsame, hmarker]

/-- Equal fingerprints mean equal settings, and under these every file is extracted alike, if the
    parser gives the same tree for its text. -/
theorem fingerprint_covers_settings (hdepth : options.maxDepth < Number.wordBound)
    (hdepth' : options'.maxDepth < Number.wordBound)
    (hinj : Set.InjOn Blake3.hexHash {settingsBytes options all, settingsBytes options' all'}) :
    (fingerprint options all = fingerprint options' all' ↔
      options.maxDepth = options'.maxDepth ∧ all = all' ∧
        Text.lower options.marker = Text.lower options'.marker) ∧
    (fingerprint options all = fingerprint options' all' →
      ∀ (parser parser' : Parser) (fs : FileSystem) (path : String),
        (∀ source, readSource fs path = .ok source → parser source = parser' source) →
        extractFile parser options fs (!all) path =
          extractFile parser' options' fs (!all') path) := by
  have hsettings := fingerprint_eq_iff hdepth hdepth' hinj
  refine ⟨hsettings, fun h parser parser' fs path hparse => ?_⟩
  -- Extraction depends on these settings only, and on the marker through its lower case.
  obtain ⟨hsame, rfl, hmarker⟩ := hsettings.1 h
  exact extractFile_congr hparse hsame hmarker (!all)

end

/-! ## Settings that differ -/

/-- A parser that gives up on long sources. -/
def hastyParser : Parser := fun source =>
  if source.utf8ByteSize < 10 then some { kind := "program" } else none

/-- A parser that never gives up. -/
def patientParser : Parser := fun _ => some { kind := "program" }

/-- A short source. -/
def shortFiles : FileSystem where
  root := .dir [("A.java", .file (utf8 ";"))]
  workingDir := []

/-- The marker in capitals and the time for the parser do not count, one level of nesting does. -/
theorem fingerprint_covers_settings_capitals :
    fingerprint {} true = fingerprint { marker := "JMH", parseTimeoutMicros := 7 } true ∧
      extractFile patientParser {} shortFiles false "A.java" =
        extractFile hastyParser { marker := "JMH", parseTimeoutMicros := 7 } shortFiles false
          "A.java" ∧
      fingerprint {} true ≠ fingerprint { maxDepth := 1025 } true := by
  have hlower : Text.lower "jmh" = Text.lower "JMH" := by decide
  have hcapitals : Set.InjOn Blake3.hexHash {settingsBytes {} true,
      settingsBytes { marker := "JMH", parseTimeoutMicros := 7 } true} := by
    rw [Set.injOn_pair, settingsBytes, settingsBytes, hlower]
    exact fun _ => rfl
  have hdeeper : Set.InjOn Blake3.hexHash
      {settingsBytes {} true, settingsBytes { maxDepth := 1025 } true} := by
    have hne : Blake3.hexHash (settingsBytes {} true) ≠
        Blake3.hexHash (settingsBytes { maxDepth := 1025 } true) := by
      decide +kernel
    exact Set.injOn_pair.2 fun h => absurd h hne
  have hread : readSource shortFiles "A.java" = .ok ";" := by decide
  obtain ⟨hsame, halike⟩ := fingerprint_covers_settings (by decide) (by decide) hcapitals
  have hequal := hsame.2 ⟨rfl, rfl, hlower⟩
  refine ⟨hequal, ?_, fun h => ?_⟩
  · refine halike hequal patientParser hastyParser shortFiles "A.java" fun source hsource => ?_
    -- The only text there is short enough.
    obtain rfl : ";" = source := Except.ok.inj (hread.symm.trans hsource)
    rfl
  · obtain ⟨hdepth, -⟩ := (fingerprint_covers_settings (by decide) (by decide) hdeeper).1.1 h
    exact absurd hdepth (by decide)

end JavaOutline

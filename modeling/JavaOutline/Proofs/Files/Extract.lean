import JavaOutline.Files.Extract
import JavaOutline.Proofs.Extraction

/-!
# What extraction depends on

The outcome of extracting a Java source depends on its content, not on where it is kept, and on no
other settings than a fingerprint covers.

## Key results

- `extractFile_eq`: extracting a file is extracting its content
- `extractBytes_eq_ok_some`: a content that is extracted under one path is so under every path
- `extractBytes_congr`: the nesting budget and the marker in lower case are all that counts
- `isIo_or_isParse_of_extractFile`: a file that fails could not be read or not be parsed
-/

namespace JavaOutline

/-- The persisted outline of the content of a Java source; nothing if it is passed over. -/
def extractBytes (parser : Parser) (options : ExtractOptions) (candidatesOnly : Bool)
    (content : Bytes) (path : String) : Except ExtractError (Option Bytes) :=
  match ofUtf8? content with
  | none => .error (.io path .notText)
  | some source => do
    if candidatesOnly then
      if !(← isCandidate parser options source path) then return none
    return some (← extractSource parser options source path).encode

section

variable {parser : Parser} {options : ExtractOptions} {candidatesOnly : Bool} {content : Bytes}

/-- Extracting a file is extracting its content. -/
theorem extractFile_eq {fs : FileSystem} {path : String} (hjava : Path.isJava path = true)
    (hread : fs.readBytes path = .ok content) :
    extractFile parser options fs candidatesOnly path =
      extractBytes parser options candidatesOnly content path := by
  rw [extractFile, if_pos hjava, extractJava, extractBytes, readSource, FileSystem.readText, hread]
  simp only [bind, Except.bind]
  cases ofUtf8? content <;> rfl

/-- A content is extracted to an outline if it is a text that is wanted and has one. -/
theorem extractBytes_eq_ok_some_iff {path : String} {bytes : Bytes} :
    extractBytes parser options candidatesOnly content path = .ok (some bytes) ↔
      ∃ source o, ofUtf8? content = some source ∧
        (candidatesOnly = true → isCandidate parser options source path = .ok true) ∧
        extractSource parser options source path = .ok o ∧ o.encode = bytes := by
  unfold extractBytes
  cases ofUtf8? content with
  -- A content that is no text has no outline.
  | none => simp
  | some source =>
    cases hsource : extractSource parser options source path with
    | error e =>
      -- Whether the source is a candidate is asked only where it matters.
      cases candidatesOnly with
      | false => simp [bind, Except.bind, hsource]
      | true =>
        cases hcandidate : isCandidate parser options source path with
        | error e => simp [bind, Except.bind, hcandidate]
        | ok b => cases b <;> simp [bind, Except.bind, pure, Except.pure, hsource, hcandidate]
    | ok o =>
      cases candidatesOnly with
      | false => simp [bind, Except.bind, pure, Except.pure, hsource]
      | true =>
        cases hcandidate : isCandidate parser options source path with
        | error e => simp [bind, Except.bind, hcandidate]
        | ok b => cases b <;> simp [bind, Except.bind, pure, Except.pure, hsource, hcandidate]

/-- A content that is extracted under one path is extracted under every path. -/
theorem extractBytes_eq_ok_some {path path' : String} {bytes : Bytes}
    (h : extractBytes parser options candidatesOnly content path = .ok (some bytes)) :
    extractBytes parser options candidatesOnly content path' = .ok (some bytes) := by
  obtain ⟨source, o, hsource, hcandidate, ho, rfl⟩ := extractBytes_eq_ok_some_iff.1 h
  -- Whether and how this succeeds does not depend on the path.
  rw [extractSource_eq_ok_iff, ← @extractSource_eq_ok_iff _ _ _ path'] at ho
  rw [isCandidate_eq_ok_iff, ← @isCandidate_eq_ok_iff _ _ _ path'] at hcandidate
  exact extractBytes_eq_ok_some_iff.2 ⟨source, o, hsource, hcandidate, ho, rfl⟩

/-- The nesting budget and the marker in lower case are all that counts of the options. -/
theorem extractBytes_congr {options' : ExtractOptions}
    (hdepth : options.maxDepth = options'.maxDepth)
    (hmarker : Text.lower options.marker = Text.lower options'.marker) (path : String) :
    extractBytes parser options candidatesOnly content path =
      extractBytes parser options' candidatesOnly content path := by
  unfold extractBytes isCandidate extractSource extractNoted
  rw [hdepth, hmarker]

/-- Two steps fail if the first one fails, or the second one after it. -/
theorem exists_of_bind_eq_error {α β : Type} {x : Except ExtractError α}
    {f : α → Except ExtractError β} {e : ExtractError} (h : x >>= f = .error e) :
    x = .error e ∨ ∃ a, x = .ok a ∧ f a = .error e := by
  cases x with
  | error cause =>
    left
    exact congrArg Except.error (Except.error.inj h)
  | ok a => exact .inr ⟨a, rfl, h⟩

/-- A source that cannot be read has no text. -/
theorem isIo_of_readSource {fs : FileSystem} {path : String} {e : ExtractError}
    (h : readSource fs path = .error e) : e.isIo = true := by
  unfold readSource at h
  split at h
  · exact nomatch h
  · cases h
    rfl

/-- A file that fails could not be read or not be parsed, so every failure is counted. -/
theorem isIo_or_isParse_of_extractFile {fs : FileSystem} {path : String} {e : ExtractError}
    (h : extractFile parser options fs candidatesOnly path = .error e) :
    e.isIo = true ∨ e.isParse = true := by
  rw [extractFile] at h
  split at h
  · rw [extractJava] at h
    rcases exists_of_bind_eq_error h with hsource | ⟨source, -, h⟩
    · exact .inl (isIo_of_readSource hsource)
    · right
      -- Whether it comes after the filter or not, extraction fails in one way only.
      have hextract : (do return some (← extractSource parser options source path).encode :
          Except ExtractError (Option Bytes)) = .error e → e.isParse = true := by
        intro h
        rcases exists_of_bind_eq_error h with hfail | ⟨o, -, h⟩
        · exact isParse_of_extractSource hfail
        · exact nomatch h
      split at h
      · rcases exists_of_bind_eq_error h with hfail | ⟨b, -, h⟩
        · exact isParse_of_isCandidate hfail
        · cases b with
          | false => exact nomatch h
          | true => exact hextract h
      · exact hextract h
  · exact nomatch h

end

end JavaOutline

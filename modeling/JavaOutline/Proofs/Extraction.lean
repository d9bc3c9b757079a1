import JavaOutline.Extraction

/-!
# When extraction succeeds

A source is extracted if the parser gives a tree without an error; its imports can be read from
any tree.  The path of the source plays no part in this, it is only named by the errors.

## Key results

- `extractSource_eq_ok_iff`: when a source has an outline, and which
- `isCandidate_eq_ok_iff`: when a source can be asked for the marker, and what it answers
- `isParse_of_extractSource`: a source without an outline could not be parsed
-/

namespace JavaOutline

/-- A source has an outline if it is parsed without an error: the outline of its syntax tree. -/
theorem extractNoted_eq_ok_iff {parser : Parser} {options : ExtractOptions}
    {source origin : String} {result : Noted Outline} :
    extractNoted parser options source origin = .ok result ↔
      ∃ root, parser source = some root ∧ root.hasError = false ∧
        unitOf (utf8 source) options.maxDepth root = result := by
  unfold extractNoted parseSource
  cases hparse : parser source with
  | none => simp [bind, Except.bind]
  | some root =>
    cases herror : root.hasError with
    | true => simp [herror, bind, Except.bind, throw, throwThe, MonadExceptOf.throw]
    | false => simp [herror, bind, Except.bind, pure, Except.pure]

/-- The same without the remarks. -/
theorem extractSource_eq_ok_iff {parser : Parser} {options : ExtractOptions}
    {source origin : String} {o : Outline} :
    extractSource parser options source origin = .ok o ↔
      ∃ root, parser source = some root ∧ root.hasError = false ∧
        (unitOf (utf8 source) options.maxDepth root).value = o := by
  unfold extractSource
  cases hresult : extractNoted parser options source origin with
  | error e =>
    -- What fails with its remarks kept fails without them.
    have hnone : ∀ root, parser source = some root → root.hasError = false →
        (unitOf (utf8 source) options.maxDepth root).value ≠ o := fun root hparse herror _ =>
      nomatch hresult.symm.trans (extractNoted_eq_ok_iff.2 ⟨root, hparse, herror, rfl⟩)
    simpa [bind, Except.bind] using hnone
  | ok result =>
    obtain ⟨root, hparse, herror, rfl⟩ := extractNoted_eq_ok_iff.1 hresult
    simp [bind, Except.bind, pure, Except.pure, hparse, herror]

/-- A source can be asked for the marker if it is parsed at all. -/
theorem isCandidate_eq_ok_iff {parser : Parser} {options : ExtractOptions}
    {source origin : String} {b : Bool} :
    isCandidate parser options source origin = .ok b ↔
      ∃ root, parser source = some root ∧
        ((importsOf (utf8 source) root).any fun name =>
          Text.contains (Text.lower name) (Text.lower options.marker)) = b := by
  unfold isCandidate parseSource
  cases hparse : parser source with
  | none => simp [bind, Except.bind]
  | some root => simp [bind, Except.bind, pure, Except.pure]

/-! ## Failures -/

section

variable {parser : Parser} {options : ExtractOptions} {source origin : String} {e : ExtractError}

/-- A source that the parser gave up on could not be parsed. -/
theorem isParse_of_parseSource (h : parseSource parser source origin = .error e) :
    e.isParse = true := by
  unfold parseSource at h
  split at h
  · exact nomatch h
  · cases h
    rfl

/-- A source without an outline could not be parsed. -/
theorem isParse_of_extractSource (h : extractSource parser options source origin = .error e) :
    e.isParse = true := by
  unfold extractSource extractNoted at h
  cases hparse : parseSource parser source origin with
  | error cause =>
    simp only [hparse, bind, Except.bind, Except.error.injEq] at h
    exact h ▸ isParse_of_parseSource hparse
  | ok root =>
    simp only [hparse, bind, Except.bind] at h
    split at h
    · rename_i hrefused
      cases h
      -- The only refusal left is that of a tree with an error.
      split at hrefused
      · cases hrefused
        rfl
      · exact nomatch hrefused
    · exact nomatch h

/-- A source whose imports cannot be read could not be parsed. -/
theorem isParse_of_isCandidate (h : isCandidate parser options source origin = .error e) :
    e.isParse = true := by
  unfold isCandidate at h
  cases hparse : parseSource parser source origin with
  | error cause =>
    simp only [hparse, bind, Except.bind, Except.error.injEq] at h
    exact h ▸ isParse_of_parseSource hparse
  | ok root => simp [hparse, bind, Except.bind, pure, Except.pure] at h

end

end JavaOutline

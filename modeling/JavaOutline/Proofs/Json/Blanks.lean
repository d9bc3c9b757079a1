import JavaOutline.Proofs.Json.Layout

/-!
# Documents without their blanks

`withoutBlanks` deletes the blanks of a document but not those inside its strings.  It knows nothing
of the grammar: it follows where strings begin and end, with an eye on escaped bytes.

What it leaves of any spelling of a value is the compact form of this value, so all spellings that
differ in their blanks alone are the same bytes without them.

## Key results

- `Spells.withoutBlanks`: a spelling without its blanks is the compact form
- `withoutBlanks_pretty`: so the indented form without its blanks is the compact form
-/

namespace JavaOutline.Json

/-! ## Deleting blanks -/

/-- Where in a document a byte stands. -/
inductive Place where
  | outside
  /-- In a string. -/
  | inside
  /-- In a string behind a backslash. -/
  | escaped
deriving DecidableEq

/-- The place behind a byte. -/
def Place.next : Place → UInt8 → Place
  | outside, b => if b == quoteMark then inside else outside
  | inside, b => if b == quoteMark then outside else if b == escapeMark then escaped else inside
  | escaped, _ => inside

/-- The bytes without the blanks outside strings, where the first one stands at `place`. -/
def withoutBlanksFrom : (place : Place) → Bytes → Bytes
  | _, [] => []
  | place, b :: rest =>
    if place == .outside && isBlank b then withoutBlanksFrom place rest
    else b :: withoutBlanksFrom (place.next b) rest

/-- A document without the blanks outside its strings. -/
def withoutBlanks (bytes : Bytes) : Bytes :=
  withoutBlanksFrom .outside bytes

/-! ## Outside strings -/

/-- A blank outside strings is deleted. -/
theorem withoutBlanks_cons_of_blank {b : UInt8} (h : isBlank b = true) (rest : Bytes) :
    withoutBlanks (b :: rest) = withoutBlanks rest := by
  rw [withoutBlanks, withoutBlanksFrom, h]
  rfl

/-- Any number of blanks outside strings is deleted. -/
theorem withoutBlanks_append_of_areBlank {blanks : Bytes} (h : areBlank blanks = true)
    (rest : Bytes) : withoutBlanks (blanks ++ rest) = withoutBlanks rest :=
  of_blanks (fun bytes => withoutBlanks bytes = withoutBlanks rest)
    (fun hb hbytes => (withoutBlanks_cons_of_blank hb _).trans hbytes) h rfl

/-- Whether a byte belongs to a token that is no string. -/
def isBare (b : UInt8) : Bool :=
  !isBlank b && b != quoteMark

/-- A byte of a token that is no string stays, and leads into no string. -/
theorem withoutBlanks_cons_of_isBare {b : UInt8} (h : isBare b = true) (rest : Bytes) :
    withoutBlanks (b :: rest) = b :: withoutBlanks rest := by
  rw [isBare, Bool.and_eq_true, Bool.not_eq_true', bne_iff_ne] at h
  obtain ⟨hblank, hquote⟩ := h
  simp [withoutBlanks, withoutBlanksFrom, Place.next, hblank, hquote]

/-- So do all bytes of such a token. -/
theorem withoutBlanks_append_of_isBare {token : Bytes} (h : token.all isBare = true)
    (rest : Bytes) : withoutBlanks (token ++ rest) = token ++ withoutBlanks rest := by
  induction token with
  | nil => rfl
  | cons b token ih =>
    rw [List.all_cons, Bool.and_eq_true] at h
    rw [List.cons_append, withoutBlanks_cons_of_isBare h.1, ih h.2, List.cons_append]

/-- No blank and no quote continues a number. -/
theorem NumberPhase.isBare_of_next? {phase next : NumberPhase} {b : UInt8}
    (h : phase.next? b = some next) : isBare b = true := by
  -- A blank or a quote ends a number, and no byte that may end one also continues one.
  have hends : ∀ b, isBare b = false → endsNumber [b] = true := forall_byte (by decide +kernel)
  cases hbare : isBare b with
  | true => rfl
  | false =>
    rw [phase.next?_eq_none (hends b hbare)] at h
    cases h

/-- A number literal holds neither blanks nor quotes. -/
theorem all_isBare_of_isNumber {literal : Bytes} (h : isNumber literal = true) :
    literal.all isBare = true := by
  -- The first byte is read before there is a phase, so it is apart from the others.
  have hthrough : ∀ {digits : Bytes} {phase last : NumberPhase},
      phase.through? digits = some last → digits.all isBare = true := by
    intro digits
    induction digits with
    | nil => exact fun _ => rfl
    | cons b digits ih =>
      intro phase last h
      rw [NumberPhase.through?, Option.bind_eq_some_iff] at h
      obtain ⟨next, hnext, hdigits⟩ := h
      rw [List.all_cons, NumberPhase.isBare_of_next? hnext, ih hdigits]
      rfl
  have hfirst : ∀ b, (NumberPhase.first? b).isSome = true → isBare b = true :=
    forall_byte (by decide +kernel)
  cases literal with
  | nil => rfl
  | cons b digits =>
    rw [isNumber, Option.any_eq_true] at h
    obtain ⟨last, hlast, -⟩ := h
    rw [Option.bind_eq_some_iff] at hlast
    obtain ⟨phase, hphase, hdigits⟩ := hlast
    rw [List.all_cons, hfirst b (by rw [hphase]; rfl), hthrough hdigits]
    rfl

/-! ## Inside strings -/

/-- The place of a byte that the reader meets in a phase of a string. -/
def StringPhase.place : StringPhase → Place
  | plain | hex _ => .inside
  | escaped => .escaped

/-- A byte that does not close the string leads to the place of the next phase. -/
theorem StringPhase.place_next? {phase next : StringPhase} {b : UInt8}
    (hquote : (phase == .plain && b == quoteMark) = false) (h : phase.next? b = some next) :
    phase.place.next b = next.place := by
  match phase with
  | .plain =>
    have hb : b ≠ quoteMark := by simpa using hquote
    rw [next?] at h
    split at h
    · rename_i hescape
      cases h
      rw [eq_of_beq hescape]
      rfl
    · rename_i hescape
      split at h
      · cases h
      · cases h
        simp only [place, Place.next, hescape, beq_eq_false_iff_ne.2 hb, Bool.false_eq_true,
          ↓reduceIte]
  | .escaped =>
    rw [next?] at h
    split at h
    · cases h
      rfl
    · obtain ⟨-, -, rfl⟩ := Option.map_eq_some_iff.1 h
      rfl
  | .hex left =>
    -- A digit is neither a quote nor a backslash.
    have hdigit : ∀ b, (hexValue? b).isSome = true → b ≠ quoteMark ∧ b ≠ escapeMark :=
      forall_byte (by decide +kernel)
    obtain ⟨value, hvalue, rfl⟩ := Option.map_eq_some_iff.1 h
    obtain ⟨hb, hescape⟩ := hdigit b (by rw [hvalue]; rfl)
    split <;> simp [place, Place.next, hb, hescape]

/-- All bytes of a string stay. -/
theorem withoutBlanksFrom_through? {phase next : StringPhase} {body : Bytes}
    (h : phase.through? body = some next) (rest : Bytes) :
    withoutBlanksFrom phase.place (body ++ rest) = body ++ withoutBlanksFrom next.place rest := by
  -- Whatever the phase, the scanner is inside the string, where it deletes no blank.
  have hinside : ∀ phase : StringPhase, (phase.place == .outside) = false := by
    rintro (_ | _ | _) <;> rfl
  induction body generalizing phase with
  | nil =>
    obtain rfl : phase = next := by simpa [StringPhase.through?] using h
    rfl
  | cons b body ih =>
    rw [StringPhase.through?] at h
    split at h
    · cases h
    · rename_i hquote
      obtain ⟨mid, hmid, hbody⟩ := Option.bind_eq_some_iff.1 h
      -- The reader and the scanner move on together.
      have hplace := StringPhase.place_next? (Bool.eq_false_iff.2 hquote) hmid
      rw [List.cons_append, withoutBlanksFrom, hinside phase, hplace, ih hbody]
      rfl

/-- A string stays as it is. -/
theorem withoutBlanks_writeString {body : Bytes} (h : IsStringBody body) (rest : Bytes) :
    withoutBlanks (writeString body rest) = writeString body (withoutBlanks rest) :=
  calc withoutBlanks (quoteMark :: (body ++ quoteMark :: rest))
      = quoteMark :: withoutBlanksFrom .inside (body ++ quoteMark :: rest) := rfl
    _ = quoteMark :: (body ++ withoutBlanksFrom .inside (quoteMark :: rest)) :=
      congrArg (quoteMark :: ·) (withoutBlanksFrom_through? h (quoteMark :: rest))
    _ = quoteMark :: (body ++ quoteMark :: withoutBlanks rest) := rfl

/-! ## Spellings without blanks -/

mutual

/-- A spelling of a value without its blanks is the compact form of the value. -/
theorem Spells.withoutBlanks {v : Json} {bytes rest : Bytes} (h : Spells v bytes rest) :
    withoutBlanks bytes = write v (withoutBlanks rest) := by
  -- The derivation tells blanks from tokens: the scanner skips the former and copies the latter.
  match h with
  | .null => exact withoutBlanks_append_of_isBare (by decide) rest
  | .bool (b := b) =>
    have hword : (boolWord b).all isBare = true := by cases b <;> decide
    exact withoutBlanks_append_of_isBare hword rest
  | .number hl _ => exact withoutBlanks_append_of_isBare (all_isBare_of_isNumber hl) rest
  | .string hb => exact withoutBlanks_writeString hb rest
  | .emptyArray _ hb =>
    rw [withoutBlanks_cons_of_isBare (by decide), withoutBlanks_append_of_areBlank hb,
      withoutBlanks_cons_of_isBare (by decide), write]
  | .array hv hvs =>
    rw [withoutBlanks_cons_of_isBare (by decide), hv.withoutBlanks, hvs.withoutBlanks, write]
  | .emptyObject _ hb =>
    rw [withoutBlanks_cons_of_isBare (by decide), withoutBlanks_append_of_areBlank hb,
      withoutBlanks_cons_of_isBare (by decide), write]
  | .object (f := (k, v)) hf hfs =>
    rw [withoutBlanks_cons_of_isBare (by decide), hf.withoutBlanks, hfs.withoutBlanks, write]
  | .blank hb hv => rw [withoutBlanks_cons_of_blank hb, hv.withoutBlanks]

/-- Elements behind an element keep their commas and the closing bracket. -/
theorem SpellsElements.withoutBlanks {vs : List Json} {bytes rest : Bytes}
    (h : SpellsElements vs bytes rest) :
    withoutBlanks bytes = writeElements vs (arrayClose :: withoutBlanks rest) := by
  match h with
  | .close => rw [withoutBlanks_cons_of_isBare (by decide), writeElements]
  | .next hv hvs =>
    rw [withoutBlanks_cons_of_isBare (by decide), hv.withoutBlanks, hvs.withoutBlanks,
      writeElements]
  | .blank hb hvs => rw [withoutBlanks_cons_of_blank hb, hvs.withoutBlanks]

/-- A field keeps its name, the colon and its value. -/
theorem SpellsField.withoutBlanks {f : Bytes × Json} {bytes rest : Bytes}
    (h : SpellsField f bytes rest) :
    withoutBlanks bytes = writeString f.1 (colonMark :: write f.2 (withoutBlanks rest)) := by
  match h with
  | .name _ hk hb hv =>
    rw [withoutBlanks_writeString hk, withoutBlanks_append_of_areBlank hb,
      withoutBlanks_cons_of_isBare (by decide), hv.withoutBlanks]
  | .blank hb hf => rw [withoutBlanks_cons_of_blank hb, hf.withoutBlanks]

/-- Fields behind a field keep their commas and the closing brace. -/
theorem SpellsFields.withoutBlanks {fs : List (Bytes × Json)} {bytes rest : Bytes}
    (h : SpellsFields fs bytes rest) :
    withoutBlanks bytes = writeFields fs (objectClose :: withoutBlanks rest) := by
  match h with
  | .close => rw [withoutBlanks_cons_of_isBare (by decide), writeFields]
  | .next (f := (k, v)) hf hfs =>
    rw [withoutBlanks_cons_of_isBare (by decide), hf.withoutBlanks, hfs.withoutBlanks,
      writeFields]
  | .blank hb hfs => rw [withoutBlanks_cons_of_blank hb, hfs.withoutBlanks]

end

/-- The indented form of a value without its blanks is the compact form. -/
theorem withoutBlanks_pretty {v : Json} (h : WellSpelled v) : withoutBlanks v.pretty = v.compact :=
  (spells_writePretty h 0 rfl).withoutBlanks

end JavaOutline.Json

import JavaOutline.Json.Parse

/-!
# Canonical spelling of texts

`Json.escape` and `Json.unescape?` work byte by byte and unit by unit.  Every byte is spelled as one
unit that reads back as this byte, so a spelled text reads back as itself, whatever its characters.

The string phases of the reader are followed over whole bodies by `StringPhase.through?`.  A body
that goes from `plain` to `plain` without an unescaped quote is what may stand between two quotes.

## Key results

- `unescape?_escape`: a text is what its canonical spelling stands for
- `isStringBody_escape`: a canonical spelling may stand between quotes
-/

namespace JavaOutline.Json

/-- What holds of each of the 256 values holds of every byte. -/
theorem forall_byte {p : UInt8 → Prop} (h : ∀ m ∈ List.range 256, p (.ofNat m)) (b : UInt8) :
    p b := by
  have hb := h b.toNat (List.mem_range.2 b.toNat_lt)
  rwa [show UInt8.ofNat b.toNat = b from UInt8.ofNat_toNat] at hb

/-! ## Units -/

/-- A byte other than the backslash is a unit of its own. -/
theorem units?_of_ne {b : UInt8} (hb : b ≠ escapeMark) (rest : Bytes) :
    units? (b :: rest) = (units? rest).map (.byte b :: ·) := by
  have h := units?.eq_4 b rest (fun _ _ _ _ _ h => absurd h hb) (fun _ _ h => absurd h hb)
  rw [h]
  cases units? rest <;> rfl

/-- A backslash and the byte behind it are one unit, unless four digits follow. -/
theorem units?_short {e b : UInt8} (he : e ≠ 0x75) (hb : shortEscape? e = some b) (rest : Bytes) :
    units? (escapeMark :: e :: rest) = (units? rest).map (.byte b :: ·) := by
  refine (units?.eq_3 e rest fun _ _ _ _ _ h => absurd h he).trans ?_
  rw [hb]
  cases units? rest <;> rfl

/-- A `\u00xx` escape is the unit of its last two digits. -/
theorem units?_code {a b : UInt8} {high low : Nat} (ha : hexValue? a = some high)
    (hb : hexValue? b = some low) (rest : Bytes) :
    units? (escapeMark :: 0x75 :: 0x30 :: 0x30 :: a :: b :: rest) =
      (units? rest).map (.code (16 * high + low) :: ·) := by
  refine (units?.eq_2 0x30 0x30 a b rest).trans ?_
  have hzero : hexValue? 0x30 = some 0 := by decide
  rw [hzero, ha, hb]
  cases units? rest <;> simp

/-- A hexadecimal digit reads back as its value. -/
theorem hexValue?_hexDigit {n : UInt8} (hn : n < 16) : hexValue? (hexDigit n) = some n.toNat := by
  have h : ∀ m : Fin 16, hexValue? (hexDigit (.ofNat m)) = some m.val := by decide
  have hlt : n.toNat < 16 := hn
  simpa using h ⟨n.toNat, hlt⟩

/-- The code unit of a control character is this character. -/
theorem joinUnits?_control {b : UInt8} (hb : b < 0x20) (us : List TextUnit) :
    joinUnits? none (.code b.toNat :: us) = (joinUnits? none us).map (b :: ·) := by
  have hlt : b.toNat < 32 := hb
  have hpoint : ∀ m : Fin 32, encodePoint m = [.ofNat m] := by decide
  have hbyte : encodePoint b.toNat = [b] := by simpa using hpoint ⟨b.toNat, hlt⟩
  have hhigh : isHighHalf b.toNat = false := by simp [isHighHalf]; omega
  have hlow : isLowHalf b.toNat = false := by simp [isLowHalf]; omega
  rw [joinUnits?, hhigh, hlow, hbyte]
  cases joinUnits? none us <;> rfl

/-- A spelled byte is one unit, and this unit stands for the byte. -/
theorem units?_escapeByte (b : UInt8) (rest : Bytes) :
    ∃ u, units? (escapeByte b ++ rest) = (units? rest).map (u :: ·) ∧
      ∀ us, joinUnits? none (u :: us) = (joinUnits? none us).map (b :: ·) := by
  have hbyte : ∀ us, joinUnits? none (.byte b :: us) = (joinUnits? none us).map (b :: ·) := by
    intro us
    rw [joinUnits?]
    cases joinUnits? none us <;> rfl
  unfold escapeByte
  split
  -- The quote and the backslash are spelled with a backslash in front.
  · rename_i h
    refine ⟨.byte b, units?_short ?_ ?_ rest, hbyte⟩
    · rcases Bool.or_eq_true_iff.1 h with h | h <;> rw [eq_of_beq h] <;> decide
    · rcases Bool.or_eq_true_iff.1 h with h | h <;> rw [eq_of_beq h] <;> decide
  -- The five control characters with an escape of their own.
  iterate 5
    split
    · rename_i h
      obtain rfl := eq_of_beq h
      exact ⟨.byte _, units?_short (by decide) (by decide) rest, hbyte⟩
  rename_i hquote _ _ _ _ _
  split
  · rename_i hlt
    -- Any other control character is given by its two digits, which the reader joins again.
    have hlt' : b.toNat < 32 := hlt
    have hhigh : (b / 16).toNat = b.toNat / 16 := by simp
    have hlow : (b % 16).toNat = b.toNat % 16 := by simp
    have ha := hexValue?_hexDigit (n := b / 16) (by rw [UInt8.lt_iff_toNat_lt, hhigh]; simp; omega)
    have hb := hexValue?_hexDigit (n := b % 16) (by rw [UInt8.lt_iff_toNat_lt, hlow]; simp; omega)
    have hcode : 16 * (b / 16).toNat + (b % 16).toNat = b.toNat := by rw [hhigh, hlow]; omega
    refine ⟨.code b.toNat, ?_, joinUnits?_control hlt⟩
    rw [← hcode]
    exact units?_code ha hb rest
  · refine ⟨.byte b, units?_of_ne ?_ rest, hbyte⟩
    rintro rfl
    simp at hquote

/-- Spelled bytes read back as the bytes. -/
theorem units?_escapeBytes (bytes : Bytes) :
    ∃ us, units? (bytes.flatMap escapeByte) = some us ∧ joinUnits? none us = some bytes := by
  induction bytes with
  | nil => exact ⟨[], by rw [List.flatMap_nil, units?], by rw [joinUnits?]⟩
  | cons b bytes ih =>
    obtain ⟨us, hus, hjoin⟩ := ih
    obtain ⟨u, hu, hbyte⟩ := units?_escapeByte b (bytes.flatMap escapeByte)
    refine ⟨u :: us, ?_, ?_⟩
    · rw [List.flatMap_cons, hu, hus, Option.map_some]
    · rw [hbyte, hjoin, Option.map_some]

/-- A text is what its canonical spelling stands for. -/
@[simp] theorem unescape?_escape (s : String) : unescape? (escape s) = some s := by
  obtain ⟨us, hus, hjoin⟩ := units?_escapeBytes (utf8 s)
  rw [unescape?, escape, hus]
  simp [hjoin]

/-- A string value that was made from a text holds this text. -/
@[simp] theorem text?_text (s : String) : (text s).text? = some s :=
  unescape?_escape s

/-! ## Bodies of strings -/

/-- The phase behind some bytes of a string, none of which closes it. -/
def StringPhase.through? : StringPhase → Bytes → Option StringPhase
  | phase, [] => some phase
  | phase, b :: rest =>
    if phase == .plain && b == quoteMark then none
    else (phase.next? b).bind fun next => next.through? rest

/-- Whether bytes may stand between two quotes. -/
def IsStringBody (body : Bytes) : Prop :=
  StringPhase.plain.through? body = some .plain

instance (body : Bytes) : Decidable (IsStringBody body) :=
  inferInstanceAs (Decidable (StringPhase.plain.through? body = some .plain))

/-- Bytes are gone through one part after the other. -/
theorem StringPhase.through?_append (phase : StringPhase) (xs ys : Bytes) :
    phase.through? (xs ++ ys) = (phase.through? xs).bind fun next => next.through? ys := by
  induction xs generalizing phase with
  | nil => rfl
  | cons b xs ih =>
    rw [List.cons_append, through?, through?]
    split
    · rfl
    · cases phase.next? b with
      | none => rfl
      | some next => exact ih next

/-- A spelled byte leads from `plain` back to `plain`. -/
theorem isStringBody_escapeByte (b : UInt8) : IsStringBody (escapeByte b) := by
  -- One check for each of the 256 bytes: the escapes are short and closed terms.
  revert b
  exact forall_byte (by decide +kernel)

/-- A canonical spelling may stand between quotes. -/
theorem isStringBody_escape (s : String) : IsStringBody (escape s) := by
  unfold escape IsStringBody
  induction utf8 s with
  | nil => rfl
  | cons b bytes ih =>
    rw [List.flatMap_cons, StringPhase.through?_append, isStringBody_escapeByte b]
    exact ih

end JavaOutline.Json

import JavaOutline.Proofs.Json.Layout

/-!
# Written documents are texts

Whatever is spelled canonically is again UTF-8: an escape is made of ASCII bytes, and the bytes of a
character beyond ASCII are kept as they are.

## Key results

- `isText_escape`: the canonical spelling of a text is a text
- `Canonical.isText_pretty`: the indented form of a canonical value is a text
-/

namespace JavaOutline

/-- Whether bytes are the UTF-8 of some text. -/
def IsText (bytes : Bytes) : Prop :=
  ∃ s, utf8 s = bytes

/-- Bytes that are a text can be read as one. -/
theorem IsText.ofUtf8? {bytes : Bytes} (h : IsText bytes) : (ofUtf8? bytes).isSome = true := by
  obtain ⟨s, rfl⟩ := h
  rw [ofUtf8?_utf8]
  rfl

/-- The bytes of a text are those of its characters. -/
theorem utf8_eq_flatMap (s : String) : utf8 s = s.toList.flatMap String.utf8EncodeChar := by
  have hbytes : s.toByteArray = s.toList.utf8Encode := String.utf8Encode_toList.symm
  have htoUTF8 : s.toUTF8 = s.toByteArray := rfl
  rw [utf8, htoUTF8, hbytes, List.utf8Encode]
  simp

/-- No bytes are a text. -/
theorem isText_nil : IsText [] :=
  ⟨"", rfl⟩

/-- A text behind a text is a text. -/
theorem IsText.append {as bs : Bytes} (ha : IsText as) (hb : IsText bs) : IsText (as ++ bs) := by
  obtain ⟨s, rfl⟩ := ha
  obtain ⟨t, rfl⟩ := hb
  exact ⟨s ++ t, by simp [utf8_eq_flatMap]⟩

/-- The bytes of a character are a text. -/
theorem isText_utf8EncodeChar (c : Char) : IsText (String.utf8EncodeChar c) :=
  ⟨String.singleton c, by simp [utf8_eq_flatMap]⟩

/-- ASCII bytes are a text. -/
theorem isText_of_ascii {bytes : Bytes} (h : bytes.all (· < 0x80)) : IsText bytes := by
  -- An ASCII character is its own single byte.
  have hchar : ∀ m : Fin 128, String.utf8EncodeChar (Char.ofNat m) = [.ofNat m] := by
    decide
  induction bytes with
  | nil => exact isText_nil
  | cons b bytes ih =>
    rw [List.all_cons, Bool.and_eq_true, decide_eq_true_eq] at h
    have hlt : b.toNat < 128 := h.1
    have hb : IsText [b] := by
      have hbyte := hchar ⟨b.toNat, hlt⟩
      rw [show UInt8.ofNat b.toNat = b from UInt8.ofNat_toNat] at hbyte
      exact hbyte ▸ isText_utf8EncodeChar _
    exact hb.append (ih h.2)

/-- One ASCII byte in front of a text is a text. -/
theorem IsText.cons {b : UInt8} (hb : b < 0x80) {rest : Bytes} (h : IsText rest) :
    IsText (b :: rest) :=
  (@isText_of_ascii [b] (by simpa using hb)).append h

namespace Json

/-! ## Escapes -/

/-- A character is one ASCII byte, or all its bytes are beyond ASCII. -/
theorem utf8EncodeChar_cases (c : Char) :
    (∀ b ∈ String.utf8EncodeChar c, b < 0x80) ∨ ∀ b ∈ String.utf8EncodeChar c, 0x80 ≤ b := by
  have hlow {n : Nat} (h : n ≤ 0x7f) : UInt8.ofNat n < 0x80 := by
    rw [UInt8.lt_iff_toNat_lt, UInt8.toNat_ofNat]
    simp
    omega
  have hhigh {n : Nat} (h : 0x80 ≤ n ∧ n < 0x100) : 0x80 ≤ UInt8.ofNat n := by
    rw [UInt8.le_iff_toNat_le, UInt8.toNat_ofNat]
    simp
    omega
  -- The first byte of a longer character starts with `11`, the others with `10`.
  unfold String.utf8EncodeChar
  by_cases hascii : c.val.toNat ≤ 0x7f
  · left
    intro b hb
    rw [if_pos hascii, List.mem_singleton] at hb
    exact hb ▸ hlow hascii
  · right
    simp only [hascii, if_false]
    split
    · simp only [List.forall_mem_cons, List.not_mem_nil, false_imp_iff, implies_true, and_true]
      exact ⟨hhigh (by omega), hhigh (by omega)⟩
    · split
      · simp only [List.forall_mem_cons, List.not_mem_nil, false_imp_iff, implies_true, and_true]
        exact ⟨hhigh (by omega), hhigh (by omega), hhigh (by omega)⟩
      · simp only [List.forall_mem_cons, List.not_mem_nil, false_imp_iff, implies_true, and_true]
        exact ⟨hhigh (by omega), hhigh (by omega), hhigh (by omega), hhigh (by omega)⟩

/-- Bytes that are not ASCII are spelled as they are. -/
theorem flatMap_escapeByte_of_le {bytes : Bytes} (h : ∀ b ∈ bytes, 0x80 ≤ b) :
    bytes.flatMap escapeByte = bytes := by
  have hbyte : ∀ b : UInt8, 0x80 ≤ b → escapeByte b = [b] := forall_byte (by decide +kernel)
  induction bytes with
  | nil => rfl
  | cons b bytes ih =>
    rw [List.flatMap_cons, hbyte b (h b List.mem_cons_self),
      ih fun c hc => h c (List.mem_cons_of_mem b hc)]
    rfl

/-- The canonical spelling of a text is a text. -/
theorem isText_escape (s : String) : IsText (escape s) := by
  -- Escaping works on bytes and UTF-8 on characters, so the bytes are grouped by character first.
  have hascii : ∀ b : UInt8, b < 0x80 → (escapeByte b).all (· < 0x80) = true :=
    forall_byte (by decide +kernel)
  have hchar : ∀ c, IsText ((String.utf8EncodeChar c).flatMap escapeByte) := by
    intro c
    rcases utf8EncodeChar_cases c with hlow | hhigh
    · apply isText_of_ascii
      rw [List.all_eq_true]
      intro e he
      obtain ⟨b, hb, he⟩ := List.mem_flatMap.1 he
      exact List.all_eq_true.1 (hascii b (hlow b hb)) e he
    · rw [flatMap_escapeByte_of_le hhigh]
      exact isText_utf8EncodeChar c
  rw [escape, utf8_eq_flatMap, List.flatMap_assoc]
  induction s.toList with
  | nil => exact isText_nil
  | cons c cs ih => exact (hchar c).append ih

/-! ## Indented form -/

/-- A quoted text in front of a text is a text. -/
theorem isText_writeString (s : String) {rest : Bytes} (h : IsText rest) :
    IsText (writeString (escape s) rest) := by
  have hquote : IsText [quoteMark] := isText_of_ascii (by decide)
  exact hquote.append ((isText_escape s).append (hquote.append h))

/-- A new line in front of a text is a text. -/
theorem isText_writeLine (level : Nat) {rest : Bytes} (h : IsText rest) :
    IsText (writeLine level rest) := by
  refine (@isText_of_ascii (newline :: List.replicate (2 * level) space) ?_).append h
  rw [List.all_eq_true]
  intro b hb
  rcases List.mem_cons.1 hb with rfl | hb
  · decide
  · rw [List.eq_of_mem_replicate hb]
    decide

/-- The elements behind an element are a text if each of them is one. -/
theorem isText_writePrettyElements {vs : List Json}
    (hvs : ∀ v ∈ vs, ∀ level rest, IsText rest → IsText (writePretty level v rest)) (level : Nat)
    {rest : Bytes} (h : IsText rest) : IsText (writePrettyElements level vs rest) := by
  induction vs with
  | nil => rwa [writePrettyElements]
  | cons v vs ih =>
    rw [writePrettyElements]
    have hrest := ih fun w hw => hvs w (List.mem_cons_of_mem v hw)
    exact IsText.cons (by decide) (isText_writeLine _
      (hvs v List.mem_cons_self _ _ hrest))

/-- The fields behind a field are a text if the values of all of them are. -/
theorem isText_writePrettyFields {fields : List (String × Json)}
    (hfields : ∀ f ∈ fields, ∀ level rest, IsText rest → IsText (writePretty level f.2 rest))
    (level : Nat) {rest : Bytes} (h : IsText rest) :
    IsText (writePrettyFields level (fields.map fun (name, v) => (escape name, v)) rest) := by
  induction fields with
  | nil => rwa [List.map_nil, writePrettyFields]
  | cons f fields ih =>
    rw [List.map_cons, writePrettyFields]
    have hrest := ih fun g hg => hfields g (List.mem_cons_of_mem f hg)
    -- A field is a line with the name, a colon, a space and the value.
    refine IsText.cons (by decide) (isText_writeLine _ (isText_writeString _ ?_))
    exact IsText.cons (by decide) (IsText.cons (by decide)
      (hfields f List.mem_cons_self _ _ hrest))

/-- The indented form of a canonical value in front of a text is a text. -/
theorem Canonical.isText_writePretty {v : Json} (hv : Canonical v) (level : Nat) (rest : Bytes)
    (h : IsText rest) : IsText (writePretty level v rest) := by
  induction hv generalizing level rest with
  -- Words are ASCII.
  | null =>
    rw [writePretty]
    exact (isText_of_ascii (by decide)).append h
  | bool b =>
    rw [writePretty]
    refine IsText.append (isText_of_ascii ?_) h
    cases b <;> decide
  | text s =>
    rw [Json.text, writePretty]
    exact isText_writeString s h
  | @array vs _ ih =>
    cases vs with
    | nil =>
      rw [writePretty]
      exact IsText.cons (by decide) (IsText.cons (by decide) h)
    | cons v vs =>
      rw [writePretty]
      -- An array has each element on a line of its own.
      refine IsText.cons (by decide) (isText_writeLine _ (ih v List.mem_cons_self _ _ ?_))
      exact isText_writePrettyElements (fun w hw => ih w (List.mem_cons_of_mem v hw)) _
        (isText_writeLine _ (IsText.cons (by decide) h))
  | @record fields _ ih =>
    cases fields with
    | nil =>
      rw [Json.record, List.map_nil, writePretty]
      exact IsText.cons (by decide) (IsText.cons (by decide) h)
    | cons f fields =>
      rw [Json.record, List.map_cons, writePretty]
      -- A record has each field on a line of its own.
      refine IsText.cons (by decide) (isText_writeLine _ (isText_writeString _ ?_))
      refine IsText.cons (by decide) (IsText.cons (by decide) (ih f List.mem_cons_self _ _ ?_))
      exact isText_writePrettyFields (fun g hg => ih g (List.mem_cons_of_mem f hg)) _
        (isText_writeLine _ (IsText.cons (by decide) h))

/-- The indented form of a canonical value is a text. -/
theorem Canonical.isText_pretty {v : Json} (hv : Canonical v) : IsText v.pretty :=
  hv.isText_writePretty 0 [] isText_nil

end Json

end JavaOutline

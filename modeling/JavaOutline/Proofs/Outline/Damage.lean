import JavaOutline.Proofs.Json.Closing
import JavaOutline.Proofs.Outline.RoundTrip

/-!
# Damaged documents

A persisted outline is a compact object, so nothing but blanks may follow it and no part of it in
front of its last byte is a document.  What was appended to it or cut off from it is therefore seen
when it is read: the reader neither takes the outline for a different one nor stops early.

## Key results

- `decode_damaged`: what is read of a document with something behind it or with its end missing
-/

namespace JavaOutline.Outline

/-- Bytes that spell no value are refused as malformed. -/
theorem decode_of_parse?_eq_none {bytes : Bytes} (h : Json.parse? bytes = none) :
    decode bytes = .error .malformed := by
  rw [decode, h]
  rfl

/-- The document of an outline reads back with blanks behind it, and it is refused as malformed with
    anything else behind it or with any number of its last bytes missing. -/
theorem decode_damaged (o : Outline) :
    (∀ more : Bytes, decode (o.encode ++ more) =
      if Json.areBlank more then .ok o else .error .malformed) ∧
    (∀ front : Bytes, front <+: o.encode → front ≠ o.encode →
      decode front = .error .malformed) := by
  -- Bytes behind the document: the parser has the envelope already, only blanks may follow it.
  constructor
  · intro more
    have hparse : Json.parse? o.encode = some o.envelope :=
      Json.parse?_compact o.wellSpelled_envelope
    have hfirst : o.encode.head? = some Json.objectOpen := Json.head?_compact_object _
    have happend := Json.parse?_append hfirst hparse more
    cases hblank : Json.areBlank more with
    -- Blanks alone leave the parsed envelope, and decoding goes on as without them.
    | true =>
      rw [hblank] at happend
      exact decode_of_parse?_eq_envelope happend
    -- A byte that is not blank makes the parse fail, whatever stands behind it.
    | false =>
      rw [hblank] at happend
      exact decode_of_parse?_eq_none happend
  -- A proper prefix leaves the outer object open, so nothing parses.
  · intro front hfront hne
    exact decode_of_parse?_eq_none
      (Json.parse?_eq_none_of_prefix o.wellSpelled_envelope hfront hne)

/-- An outline whose document has a letter of two bytes and an escape. -/
def accented : Outline :=
  ⟨["é\n"], []⟩

/-- The document of `accented` with a line break or a second brace behind it, and cut off inside the
    letter and inside the escape. -/
theorem decode_damaged_accented :
    decode (accented.encode ++ [Json.newline]) = .ok accented ∧
    decode (accented.encode ++ [Json.objectClose]) = .error .malformed ∧
    (accented.encode.drop 57).take 3 = [0xc3, 0xa9, Json.escapeMark] ∧
    decode (accented.encode.take 58) = .error .malformed ∧
    decode (accented.encode.take 60) = .error .malformed := by
  obtain ⟨happend, hcut⟩ := decode_damaged accented
  refine ⟨happend [Json.newline], happend [Json.objectClose], by decide, ?_, ?_⟩
  · exact hcut _ (List.take_prefix ..) (by decide)
  · exact hcut _ (List.take_prefix ..) (by decide)

end JavaOutline.Outline

import JavaOutline.Proofs.Outline.RoundTrip

/-!
# Outlines read from other documents

An outline is read from its document whatever the order of the fields in any record, with fields
among them that the record does not know, without the conditions that are `null`, and with blanks
anywhere.  A document in which a required field is missing, however deep, is refused as a whole.

## Key results

- `Outline.ofJson?_of_varies_envelope`: what is read of a variant of the envelope
- `Outline.decode_of_varies`: a whole variant of a document, spelled in any way, reads as the
  outline, and one that is not whole is malformed
-/

namespace JavaOutline

open Json (HasPart Varies VariesElements text texts record)

/-! ## Documents -/

namespace Envelope

/-- The only field of a name is found as such. -/
theorem onlyField?_of_isSole {written : List (Bytes × Json)} {name : String} {part : Option Json}
    (h : Json.IsSole written name part) : onlyField? name written = part := by
  rw [onlyField?, h]
  cases part <;> rfl

/-- A field of the envelope is found, unless it is missing. -/
theorem onlyField?_of_hasPart {written : List (Bytes × Json)} {name : String} {v : Json}
    {whole : Bool} (h : HasPart written (name, v) whole) (hnull : v.isNull = false) :
    (∃ w, onlyField? name written = some w ∧ Varies whole v w) ∨
      onlyField? name written = none ∧ whole = false := by
  obtain ⟨part, hsole, hpart⟩ := h
  rw [onlyField?_of_isSole hsole]
  cases hpart with
  | kept h => exact .inl ⟨_, rfl, h⟩
  | dropped => cases hnull
  | missing _ => exact .inr ⟨rfl, rfl⟩

end Envelope

namespace Outline

/-- The document of an outline is strict. -/
theorem isStrict_envelope (o : Outline) : o.envelope.isStrict = true := by
  have hversion : Json.isFinite (Json.decimal schemaVersion) = true := by decide +kernel
  simp [envelope, record, Json.isStrict, Json.fieldsAreStrict, text, hversion,
    o.canonical_toJson.isStrict]

/-- The envelope of a variant names the schema and the version and holds a variant of the content,
    unless one of its fields is missing. -/
theorem ofJson?_of_varies_envelope {o : Outline} {whole : Bool} {v : Json}
    (h : Varies whole o.envelope v) :
    (∃ root, Envelope.ofJson? v = some ⟨schemaName, schemaVersion, root⟩ ∧
      Varies whole o.toJson root) ∨
    Envelope.ofJson? v = none ∧ whole = false := by
  -- The reader looks at all names and numbers first, also at those that it does not know.
  have hstrict := h.isStrict o.isStrict_envelope
  obtain ⟨written, isWhole, rfl, rfl, hparts⟩ := Varies.hasPart (by simp) h
  rw [Json.isStrict, Json.fieldsAreStrict_iff] at hstrict
  simp only [List.forall_mem_cons] at hparts
  obtain ⟨hschema, hversion, hroot, -⟩ := hparts
  rw [Envelope.ofJson?, if_pos (List.all_eq_true.2 fun f hf => (hstrict f hf).1)]
  simp only [Option.bind_eq_bind]
  -- The envelope is refused as soon as one of its three fields is missing.
  rcases Envelope.onlyField?_of_hasPart hschema rfl with ⟨schema, hs, hvaries⟩ | ⟨hs, hlacks⟩
  · obtain ⟨hschema, rfl⟩ := hvaries.of_string
    rcases Envelope.onlyField?_of_hasPart hversion rfl with ⟨version, hv, hvaries⟩ | ⟨hv, hlacks⟩
    · obtain ⟨hversion, rfl⟩ := hvaries.of_number
      rcases Envelope.onlyField?_of_hasPart hroot rfl with ⟨root, hr, hvaries⟩ | ⟨hr, hlacks⟩
      · have hstrict := hvaries.isStrict o.canonical_toJson.isStrict
        left
        refine ⟨root, ?_, by simpa [hschema, hversion] using hvaries⟩
        have htext : (Json.string (Json.escape schemaName)).text? = some schemaName :=
          Json.text?_text schemaName
        simp [hs, hv, hr, Envelope.ofParts?, htext, version?_schemaVersion, hstrict]
      · right
        simp [hs, hv, hr, hlacks]
    · right
      simp [hs, hv, hlacks]
  · right
    simp [hs, hlacks]

/-- A document is read whatever the order of its fields, with any fields in it that its records do
    not know, with or without a condition that is `null`, and with blanks anywhere.  But no field
    that is required may be missing, in the envelope or in any record. -/
theorem decode_of_varies {o : Outline} {whole : Bool} {v : Json} {bytes blanks : Bytes}
    (h : Varies whole o.envelope v) (hspells : Json.Spells v bytes blanks)
    (hblanks : Json.areBlank blanks = true) :
    decode bytes = if whole then .ok o else .error .malformed := by
  have hparse : Json.parse? bytes = some v := Json.parse?_of_spells hspells hblanks
  rw [decode, hparse]
  rcases ofJson?_of_varies_envelope h with ⟨root, henvelope, hroot⟩ | ⟨henvelope, rfl⟩
  · have hread := o.readsAs whole root hroot
    cases whole <;> simp [henvelope, hread]
  · simp [henvelope]

/-! ### A document in another order -/

/-- A public class with a method whose body holds an empty block. -/
def blockMethod : Method :=
  { name := "f", returnType := {}, statements := [{}] }

@[inherit_doc blockMethod]
def blockOutline : Outline where
  imports := ["a.B"]
  namespaces := [{
    name := "A", kind := .classDecl, modifiers := [.visibility .publicAccess]
    methods := [blockMethod] }]

/-- The document of the method, where the block has no condition. -/
def blockMethodDocument : Json :=
  record [("name", text "f"), ("returnType", TypeRef.toJson {}), ("modifiers", .array []),
    ("arguments", .array []), ("bodyContent", .array []),
    ("statements", .array [record [("kind", text "BLOCK"), ("statements", .array []),
      ("expressions", .array []), ("initializations", .array []), ("updates", .array [])]])]

/-- The content of the document of `blockOutline` with another modifier. -/
def blockContent (modifier : Json) : Json :=
  record [("imports", texts ["a.B"]),
    ("namespaces", .array [record [("name", text "A"), ("kind", text "CLASS"),
      ("modifiers", .array [modifier]), ("fields", .array []),
      ("methods", .array [blockMethodDocument]), ("nested", .array [])]])]

/-- The fields of the document from the last to the first, behind one that is not known. -/
def reversedDocument (modifier : Json) : Json :=
  record [("note", .array [.number (Json.decimal 7)]), ("root", blockContent modifier),
    ("version", .number (Json.decimal schemaVersion)), ("schema", text schemaName)]

/-- The document of the method is whole. -/
theorem varies_blockMethodDocument : Varies true blockMethod.toJson blockMethodDocument := by
  have hblock : Varies true (Statement.toJson {}) (record [("kind", text "BLOCK"),
      ("statements", .array []), ("expressions", .array []), ("initializations", .array []),
      ("updates", .array [])]) :=
    .object (.keep (.refl _) (.dropNull (by decide) (.refl _))) (List.forall_mem_nil _) (.refl _)
  have hstatements := Varies.array (.cons hblock .nil)
  exact .object (.keep (.refl _) (.keep (.refl _) (.keep (.refl _) (.keep (.refl _)
    (.keep (.refl _) (.keep hstatements .nil)))))) (List.forall_mem_nil _) (.refl _)

section

variable {whole : Bool} {modifier : Json}

/-- The content varies as much as its modifier. -/
theorem varies_blockContent (h : Varies whole (Modifier.visibility .publicAccess).toJson modifier) :
    Varies whole blockOutline.toJson (blockContent modifier) := by
  have hmodifiers := VariesElements.cons h .nil
  have hmethods := VariesElements.cons varies_blockMethodDocument .nil
  -- Whether a list is whole is a conjunction, which computes once it is known of the modifier.
  cases whole <;>
    exact .object (.keep (.refl _) (.keep (.array (.cons (.object (.keep (.refl _) (.keep (.refl _)
      (.keep (.array hmodifiers) (.keep (.refl _) (.keep (.array hmethods) (.keep (.refl _)
      .nil)))))) (List.forall_mem_nil _) (.refl _)) .nil)) .nil)) (List.forall_mem_nil _) (.refl _)

/-- So does the document in the other order. -/
theorem varies_reversedDocument
    (h : Varies whole (Modifier.visibility .publicAccess).toJson modifier) :
    Varies whole blockOutline.envelope (reversedDocument modifier) := by
  have hcontent := varies_blockContent h
  -- The key that no reader knows.
  have hnote : ∀ v w x, Json.IsUnknown [(Json.escape "schema", v), (Json.escape "version", w),
      (Json.escape "root", x)] (Json.escape "note", .array [.number (Json.decimal 7)]) :=
    fun v w x => ⟨"note", by simp, by simp, by decide +kernel⟩
  have horder : ∀ a b c d : Bytes × Json, [d, c, b, a].Perm ([a, b, c] ++ [d]) := fun a b c d =>
    List.reverse_perm [a, b, c, d]
  -- The content varies below the root; around it the fields stand in reverse.
  cases whole <;>
    exact .object (.keep (.refl _) (.keep (.refl _) (.keep hcontent .nil)))
      (List.forall_mem_singleton.2 (hnote _ _ _)) (horder _ _ _ _)

/-- The content is made of texts if its modifier is. -/
theorem canonical_blockContent (h : modifier.Canonical) : (blockContent modifier).Canonical := by
  have hempty : (Json.array []).Canonical := .array (List.forall_mem_nil _)
  have hsingle : ∀ {v : Json}, v.Canonical → (Json.array [v]).Canonical := fun hv =>
    .array (List.forall_mem_singleton.2 hv)
  -- From the innermost record outwards, each canonical since its parts are.
  have hblock : (Json.array [record [("kind", text "BLOCK"), ("statements", .array []),
      ("expressions", .array []), ("initializations", .array []),
      ("updates", .array [])]]).Canonical := by
    refine hsingle (.record ?_)
    simp [Json.Canonical.text, hempty]
  have hmethod : blockMethodDocument.Canonical := by
    refine .record ?_
    simp only [List.forall_mem_cons]
    simp [Json.Canonical.text, TypeRef.canonical_toJson, hempty, hblock]
  have hclass : (record [("name", text "A"), ("kind", text "CLASS"),
      ("modifiers", .array [modifier]), ("fields", .array []),
      ("methods", .array [blockMethodDocument]), ("nested", .array [])]).Canonical := by
    refine .record ?_
    simp [Json.Canonical.text, hempty, hsingle h, hsingle hmethod]
  refine .record ?_
  simp [Json.Canonical.texts, hsingle hclass]

/-- The document in the other order can be written. -/
theorem wellSpelled_reversedDocument (h : modifier.Canonical) :
    (reversedDocument modifier).WellSpelled := by
  have hnote : (Json.array [.number (Json.decimal 7)]).WellSpelled := by
    simp only [Json.WellSpelled, Json.AllWellSpelled]
    decide
  have hversion : (Json.number (Json.decimal schemaVersion)).WellSpelled := by
    rw [Json.WellSpelled]
    decide
  refine Json.wellSpelled_record ?_
  simp [Json.wellSpelled_text, hnote, hversion, (canonical_blockContent h).wellSpelled]

end

/-- The reversed document with its modifier reversed as well reads as the outline, and without the
    visibility of the modifier it is refused. -/
theorem decode_of_varies_reversedDocument :
    let kindLast := reversedDocument (record [("visibility", text "PUBLIC"),
      ("kind", text "VISIBILITY")])
    let kindOnly := reversedDocument (record [("kind", text "VISIBILITY")])
    (Varies true blockOutline.envelope kindLast ∧ Json.Spells kindLast kindLast.pretty [] ∧
      decode kindLast.pretty = .ok blockOutline) ∧
    (Varies false blockOutline.envelope kindOnly ∧ Json.Spells kindOnly kindOnly.pretty [] ∧
      decode kindOnly.pretty = .error .malformed) := by
  intro kindLast kindOnly
  -- The fields of the modifier change places: still a whole variant.
  have hlast : Varies true blockOutline.envelope kindLast :=
    varies_reversedDocument (.object (.keep (.refl _) (.keep (.refl _) .nil))
      (List.forall_mem_nil _) (.swap ..))
  -- Its visibility is left out: no longer whole.
  have honly : Varies false blockOutline.envelope kindOnly :=
    varies_reversedDocument (.object (.keep (.refl _) (.leaveOut (by decide) .nil))
      (List.forall_mem_nil _) (.refl _))
  -- Both are written with line breaks and indentation, which spells the same value.
  have hspells : ∀ {m : Json}, m.Canonical →
      Json.Spells (reversedDocument m) (reversedDocument m).pretty [] := fun h =>
    Json.spells_writePretty (wellSpelled_reversedDocument h) 0 rfl
  have hspellsLast : Json.Spells kindLast kindLast.pretty [] :=
    hspells (.record (by simp [Json.Canonical.text]))
  have hspellsOnly : Json.Spells kindOnly kindOnly.pretty [] :=
    hspells (.record (by simp [Json.Canonical.text]))
  exact ⟨⟨hlast, hspellsLast, decode_of_varies hlast hspellsLast rfl⟩,
    honly, hspellsOnly, decode_of_varies honly hspellsOnly rfl⟩

end Outline

end JavaOutline

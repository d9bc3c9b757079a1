import JavaOutline.Proofs.Outline.Records

/-!
# Persisted outlines read back

An outline is persisted as a document with a canonical spelling.  Reading it back is the case of
`Outline.readsAs` in which nothing varies.

## Key results

- `Outline.canonical_toJson`: what is written of an outline is canonical
- `decode_encode`: what persists an outline reads back as the outline
-/

namespace JavaOutline

open Json (Canonical)

/-! ## What is written -/

/-- What is written of a type reference is canonical. -/
theorem TypeRef.canonical_toJson (t : TypeRef) : t.toJson.Canonical := by
  refine .record ?_
  simp [Canonical.text]

/-- What is written of a modifier is canonical. -/
theorem Modifier.canonical_toJson (m : Modifier) : m.toJson.Canonical := by
  cases m <;> refine .record ?_ <;> simp [Canonical.text, Canonical.texts]

/-- What is written of a variable is canonical. -/
theorem Variable.canonical_toJson (v : Variable) : v.toJson.Canonical := by
  refine .record ?_
  simp [Canonical.text, TypeRef.canonical_toJson, Canonical.map Modifier.canonical_toJson]

mutual

/-- What is written of an expression is canonical. -/
theorem Expression.canonical_toJson (e : Expression) : e.toJson.Canonical := by
  match e with
  | ⟨kind, literal, varName, method, isPostfix, arguments, declared, operands, newType⟩ =>
    have harguments := Canonical.array (Expression.canonical_listToJson arguments)
    have hoperands := Canonical.array (Expression.canonical_listToJson operands)
    rw [toJson]
    refine .record ?_
    simp [Canonical.text, Canonical.bool, harguments, hoperands,
      Canonical.map Variable.canonical_toJson, TypeRef.canonical_toJson]

/-- What is written of expressions is canonical. -/
theorem Expression.canonical_listToJson (es : List Expression) :
    ∀ v ∈ Expression.listToJson es, v.Canonical := by
  match es with
  | [] => simp [listToJson]
  | e :: es =>
    rw [listToJson, List.forall_mem_cons]
    exact ⟨e.canonical_toJson, Expression.canonical_listToJson es⟩

end

/-- What is written of an optional expression is canonical. -/
theorem Expression.canonical_optionToJson (e : Option Expression) :
    (Expression.optionToJson e).Canonical := by
  cases e with
  | none => exact .null
  | some e => exact e.canonical_toJson

mutual

/-- What is written of a statement is canonical. -/
theorem Statement.canonical_toJson (s : Statement) : s.toJson.Canonical := by
  match s with
  | ⟨kind, condition, statements, expressions, initializations, updates⟩ =>
    have hstatements := Canonical.array (Statement.canonical_listToJson statements)
    have hexpressions := fun es => Canonical.array (Expression.canonical_listToJson es)
    rw [toJson]
    refine .record ?_
    simp [Canonical.text, Expression.canonical_optionToJson, hstatements, hexpressions]

/-- What is written of statements is canonical. -/
theorem Statement.canonical_listToJson (ss : List Statement) :
    ∀ v ∈ Statement.listToJson ss, v.Canonical := by
  match ss with
  | [] => simp [listToJson]
  | s :: ss =>
    rw [listToJson, List.forall_mem_cons]
    exact ⟨s.canonical_toJson, Statement.canonical_listToJson ss⟩

end

/-- What is written of a method is canonical. -/
theorem Method.canonical_toJson (m : Method) : m.toJson.Canonical := by
  have hbody := Canonical.array (Expression.canonical_listToJson m.bodyContent)
  have hstatements := Canonical.array (Statement.canonical_listToJson m.statements)
  refine .record ?_
  simp [Canonical.text, TypeRef.canonical_toJson, Canonical.map Modifier.canonical_toJson,
    Canonical.map Variable.canonical_toJson, hbody, hstatements]

mutual

/-- What is written of a type declaration is canonical. -/
theorem TypeDecl.canonical_toJson (d : TypeDecl) : d.toJson.Canonical := by
  match d with
  | ⟨name, kind, modifiers, fields, methods, nested⟩ =>
    have hnested := Canonical.array (TypeDecl.canonical_listToJson nested)
    rw [toJson]
    refine .record ?_
    simp [Canonical.text, Canonical.map Modifier.canonical_toJson,
      Canonical.map Variable.canonical_toJson, Canonical.map Method.canonical_toJson, hnested]

/-- What is written of type declarations is canonical. -/
theorem TypeDecl.canonical_listToJson (ds : List TypeDecl) :
    ∀ v ∈ TypeDecl.listToJson ds, v.Canonical := by
  match ds with
  | [] => simp [listToJson]
  | d :: ds =>
    rw [listToJson, List.forall_mem_cons]
    exact ⟨d.canonical_toJson, TypeDecl.canonical_listToJson ds⟩

end

namespace Outline

/-- The content of a document is canonical. -/
theorem canonical_toJson (o : Outline) : o.toJson.Canonical := by
  have hnamespaces := Canonical.array (TypeDecl.canonical_listToJson o.namespaces)
  refine .record ?_
  simp [Canonical.texts, hnamespaces]

/-! ## Documents -/

/-- The content of a document reads back. -/
theorem ofJson?_toJson (o : Outline) : ofJson? o.toJson = some o :=
  o.readsAs true o.toJson (Json.Varies.refl _)

/-- The version is written as a number that reads back. -/
theorem version?_schemaVersion :
    Envelope.version? (.number (Json.decimal schemaVersion)) = some schemaVersion := by
  decide

/-- The document of an outline is well spelled. -/
theorem wellSpelled_envelope (o : Outline) : o.envelope.WellSpelled := by
  refine Json.wellSpelled_record ?_
  have hversion : (Json.number (Json.decimal schemaVersion)).WellSpelled := by
    rw [Json.WellSpelled]
    decide
  simp [Json.wellSpelled_text, hversion, o.canonical_toJson.wellSpelled]

/-- The envelope of an outline reads back. -/
theorem ofJson?_envelope (o : Outline) :
    Envelope.ofJson? o.envelope = some ⟨schemaName, schemaVersion, o.toJson⟩ := by
  simp [envelope, Json.record, Envelope.ofJson?, Envelope.onlyField?, List.filter,
    Envelope.ofParts?, version?_schemaVersion, o.canonical_toJson.isStrict]

/-- A spelling of the document of an outline is read as the outline. -/
theorem decode_of_parse?_eq_envelope {o : Outline} {bytes : Bytes}
    (h : Json.parse? bytes = some o.envelope) : decode bytes = .ok o := by
  simp [decode, h, ofJson?_envelope, ofJson?_toJson]

/-- What persists an outline reads back as the outline. -/
theorem decode_encode (o : Outline) : decode o.encode = .ok o := by
  have hparse : Json.parse? o.encode = some o.envelope := Json.parse?_compact o.wellSpelled_envelope
  simp [decode, hparse, ofJson?_envelope, ofJson?_toJson]

end Outline

end JavaOutline

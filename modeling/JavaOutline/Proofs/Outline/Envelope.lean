import JavaOutline.Proofs.Json.Acceptance
import JavaOutline.Proofs.Json.Decimal
import JavaOutline.Proofs.Outline.RoundTrip

/-!
# The envelope is judged before its content

A document is read in two stages.  First it has to be one complete envelope: an object with the
three known fields once each, in any order and with unknown fields among them, or an array of the
three.  The content may be any strict value here.  Then the schema is compared, then the version,
and only then the content is read.  So a document of another schema or of a later version is
reported as such whatever its content looks like, and a document that is no complete envelope is
malformed whatever schema and version it names.

## Key results

- `Envelope.ofJson?_eq_some_iff`: the values that read as an envelope are the complete ones
- `Outline.decode_of_isWhole`: what is read of a complete envelope
- `Outline.decode_by_stages`: what is read of any bytes
-/

namespace JavaOutline

open Json (isNamed unescape?)

namespace Envelope

/-! ## Complete envelopes -/

/-- The values of the parts of an envelope.  The version is written in decimal digits. -/
structure IsMadeOf (e : Envelope) (schema version root : Json) : Prop where
  schema : schema.text? = some e.schema
  version : version = .number (Json.decimal e.version)
  bound : e.version ≤ maxVersion
  root : root = e.root
  strict : e.root.isStrict = true

/-- A field that the envelope does not know.  Its name is a text, and its value may be anything. -/
def IsExtra (f : Bytes × Json) : Prop :=
  ∃ name, unescape? f.1 = some name ∧ name ∉ ["schema", "version", "root"]

/-- A value that is one complete envelope. -/
inductive IsWhole (e : Envelope) : Json → Prop
  | array {schema version root : Json} (h : e.IsMadeOf schema version root) :
    IsWhole e (.array [schema, version, root])
  | object {s v r : Bytes × Json} {extras fields : List (Bytes × Json)}
    (hs : unescape? s.1 = some "schema") (hv : unescape? v.1 = some "version")
    (hr : unescape? r.1 = some "root") (h : e.IsMadeOf s.2 v.2 r.2)
    (hextras : ∀ f ∈ extras, IsExtra f) (horder : fields.Perm (s :: v :: r :: extras)) :
    IsWhole e (.object fields)

/-! ## Fields -/

/-- A field has the name that its spelling stands for. -/
theorem isNamed_iff {name : String} {f : Bytes × Json} :
    isNamed name f = true ↔ unescape? f.1 = some name :=
  beq_iff_eq

/-- A field with one name has no other. -/
theorem isNamed_eq_false {name other : String} {f : Bytes × Json} (h : unescape? f.1 = some name)
    (hne : name ≠ other) : isNamed other f = false := by
  simpa [isNamed, h] using hne

/-- A field of a name is the only one exactly if no field beside it has this name. -/
theorem onlyField?_eq_some_iff {name : String} {fields : List (Bytes × Json)} {v : Json} :
    onlyField? name fields = some v ↔ ∃ k rest, unescape? k = some name ∧
      fields.Perm ((k, v) :: rest) ∧ ∀ f ∈ rest, isNamed name f = false := by
  unfold onlyField?
  constructor
  -- Reading: the fields with the name are one, and the rest of the permutation are the others.
  · intro h
    split at h
    · rename_i k w hfilter
      obtain rfl := Option.some.inj h
      have hmem : (k, w) ∈ fields.filter (isNamed name) := by
        rw [hfilter]
        exact List.mem_cons_self
      have hperm := List.filter_append_perm (isNamed name) fields
      rw [hfilter, List.singleton_append] at hperm
      refine ⟨k, _, isNamed_iff.1 (List.mem_filter.1 hmem).2, hperm.symm, fun f hf => ?_⟩
      simpa using (List.mem_filter.1 hf).2
    · cases h
  · rintro ⟨k, rest, hk, horder, hrest⟩
    -- Writing: a permutation keeps the number of fields with the name.
    have hnone : rest.filter (isNamed name) = [] :=
      List.filter_eq_nil_iff.2 fun f hf => by simp [hrest f hf]
    have hperm := horder.filter (isNamed name)
    rw [List.filter_cons_of_pos (isNamed_iff.2 hk), hnone, List.perm_singleton] at hperm
    rw [hperm]

/-- A field of one name has no part in the search for another name. -/
theorem onlyField?_of_perm {name other : String} {f : Bytes × Json}
    {fields rest : List (Bytes × Json)} (horder : fields.Perm (f :: rest))
    (hf : unescape? f.1 = some other) (hne : other ≠ name) {v : Json}
    (h : onlyField? name fields = some v) : onlyField? name rest = some v := by
  obtain ⟨k, others, hk, hothers, hnone⟩ := onlyField?_eq_some_iff.1 h
  -- Both splittings are of one list; under the filter each keeps only the field with the name.
  have hperm := (hothers.symm.trans horder).filter (isNamed name)
  have hempty : others.filter (isNamed name) = [] :=
    List.filter_eq_nil_iff.2 fun g hg => by simp [hnone g hg]
  have hdrop := isNamed_eq_false hf hne
  rw [List.filter_cons_of_pos (isNamed_iff.2 hk), hempty, List.filter_cons_of_neg (by simp [hdrop]),
    List.singleton_perm] at hperm
  rw [onlyField?, ← hperm]

/-- A field is found among others of other names. -/
theorem onlyField?_of_middle {name : String} {f : Bytes × Json} {fields : List (Bytes × Json)}
    (front : List (Bytes × Json)) {back : List (Bytes × Json)}
    (horder : fields.Perm (front ++ f :: back)) (hf : unescape? f.1 = some name)
    (hother : ∀ g ∈ front ++ back, isNamed name g = false) :
    onlyField? name fields = some f.2 :=
  onlyField?_eq_some_iff.2 ⟨f.1, front ++ back, hf, horder.trans List.perm_middle, hother⟩

/-- Where each known field is there once and all names are texts, the other fields are unknown. -/
theorem exists_perm_of_onlyField? {fields : List (Bytes × Json)} {schema version root : Json}
    (hnames : ∀ f ∈ fields, (unescape? f.1).isSome = true)
    (hschema : onlyField? "schema" fields = some schema)
    (hversion : onlyField? "version" fields = some version)
    (hroot : onlyField? "root" fields = some root) :
    ∃ s v r extras, unescape? s = some "schema" ∧ unescape? v = some "version" ∧
      unescape? r = some "root" ∧ (∀ f ∈ extras, IsExtra f) ∧
      fields.Perm ((s, schema) :: (v, version) :: (r, root) :: extras) := by
  -- The known fields are taken out one after the other.
  obtain ⟨s, rest, hs, horder, hnoSchema⟩ := onlyField?_eq_some_iff.1 hschema
  obtain ⟨v, rest', hv, horder', hnoVersion⟩ :=
    onlyField?_eq_some_iff.1 (onlyField?_of_perm horder hs (by decide) hversion)
  obtain ⟨r, extras, hr, horder'', hnoRoot⟩ := onlyField?_eq_some_iff.1
    (onlyField?_of_perm horder' hv (by decide) (onlyField?_of_perm horder hs (by decide) hroot))
  refine ⟨s, v, r, extras, hs, hv, hr, fun f hf => ?_,
    horder.trans ((horder'.trans (horder''.cons _)).cons _)⟩
  have hf' : f ∈ rest' := horder''.symm.subset (List.mem_cons_of_mem _ hf)
  have hf'' : f ∈ rest := horder'.symm.subset (List.mem_cons_of_mem _ hf')
  have hfields : f ∈ fields := horder.symm.subset (List.mem_cons_of_mem _ hf'')
  obtain ⟨name, hname⟩ := Option.isSome_iff_exists.1 (hnames f hfields)
  have hschema := hnoSchema f hf''
  have hversion := hnoVersion f hf'
  have hroot := hnoRoot f hf
  exact ⟨name, hname, by simp_all [isNamed]⟩

/-- An unknown field has the name of no known one. -/
theorem IsExtra.isNamed_eq_false {f : Bytes × Json} (h : IsExtra f) {name : String}
    (hname : name ∈ ["schema", "version", "root"]) : isNamed name f = false := by
  obtain ⟨other, hother, hne⟩ := h
  exact Envelope.isNamed_eq_false hother fun heq => hne (heq ▸ hname)

/-! ## Reading an envelope -/

/-- A version is a number in decimal digits that fits its field. -/
theorem version?_eq_some_iff {v : Json} (h : v.WellSpelled) {n : Nat} :
    version? v = some n ↔ v = .number (Json.decimal n) ∧ n ≤ maxVersion := by
  cases v with
  | number literal =>
    rw [version?, Option.filter_eq_some_iff, Json.natural?_eq_some_iff h]
    simp
  | _ => simp [version?]

/-- Three values read as the envelope that they make. -/
theorem ofParts?_eq_some_iff {e : Envelope} {schema version root : Json}
    (h : version.WellSpelled) :
    ofParts? schema version root = some e ↔ e.IsMadeOf schema version root := by
  constructor
  · intro hparts
    -- The reader succeeds, so each of its steps did: the three parts are there in turn.
    simp only [ofParts?, Option.bind_eq_bind, Option.bind_eq_some_iff] at hparts
    obtain ⟨s, hs, n, hn, hroot⟩ := hparts
    split at hroot
    · rename_i hstrict
      obtain rfl := Option.some.inj hroot
      obtain ⟨hversion, hbound⟩ := (version?_eq_some_iff h).1 hn
      exact ⟨hs, hversion, hbound, rfl, hstrict⟩
    · cases hroot
  -- And with the three parts in place no step of the reader can fail.
  · rintro ⟨hs, hversion, hbound, rfl, hstrict⟩
    have hn := (version?_eq_some_iff h).2 ⟨hversion, hbound⟩
    simp [ofParts?, hs, hn, hstrict]

/-- An object that reads as an envelope is a complete one. -/
theorem isWhole_of_ofJson?_object {e : Envelope} {fields : List (Bytes × Json)}
    (h : Json.FieldsWellSpelled fields) (hread : ofJson? (.object fields) = some e) :
    e.IsWhole (.object fields) := by
  rw [ofJson?] at hread
  split at hread
  -- Every name decodes and each of the three fields is found exactly once.
  · rename_i hnames
    simp only [Option.bind_eq_bind, Option.bind_eq_some_iff] at hread
    obtain ⟨schema, hschema, version, hversion, root, hroot, hparts⟩ := hread
    obtain ⟨s, v, r, extras, hs, hv, hr, hextras, horder⟩ :=
      exists_perm_of_onlyField? (List.all_eq_true.1 hnames) hschema hversion hroot
    -- The version is one of the fields, so it is well spelled as they all are.
    have hspelled := Json.fieldsWellSpelled_iff.1 h (v, version) (horder.symm.subset (by simp))
    exact .object hs hv hr ((ofParts?_eq_some_iff hspelled.2).1 hparts) hextras horder
  · cases hread

/-- A complete object reads as the envelope that it is. -/
theorem ofJson?_of_isWhole_object {e : Envelope} {fields : List (Bytes × Json)}
    (h : Json.FieldsWellSpelled fields) (hwhole : e.IsWhole (.object fields)) :
    ofJson? (.object fields) = some e := by
  cases hwhole with
  | @object s v r extras _ hs hv hr hparts hextras horder =>
    have hother : ∀ name ∈ ["schema", "version", "root"], ∀ f ∈ extras,
        isNamed name f = false := fun name hname f hf => (hextras f hf).isNamed_eq_false hname
    -- Every name decodes: the three known ones by assumption, the others since they are extras.
    have hnames : ∀ f ∈ fields, (unescape? f.1).isSome = true := by
      intro f hf
      have hmem := horder.subset hf
      simp only [List.mem_cons] at hmem
      rcases hmem with rfl | rfl | rfl | hmem
      · simp [hs]
      · simp [hv]
      · simp [hr]
      · obtain ⟨name, hname, -⟩ := hextras f hmem
        simp [hname]
    -- Each known field is the only one of its name: the other two and the extras have other names.
    have hschema : onlyField? "schema" fields = some s.2 := onlyField?_of_middle [] horder hs <| by
      simpa [isNamed, hv, hr] using hother "schema" (by simp)
    have hversion : onlyField? "version" fields = some v.2 :=
      onlyField?_of_middle [s] horder hv <| by
        simpa [isNamed, hs, hr] using hother "version" (by simp)
    have hroot : onlyField? "root" fields = some r.2 := onlyField?_of_middle [s, v] horder hr <| by
      simpa [isNamed, hs, hv] using hother "root" (by simp)
    have hspelled := Json.fieldsWellSpelled_iff.1 h v (horder.symm.subset (by simp))
    rw [ofJson?, if_pos (List.all_eq_true.2 hnames), hschema, hversion, hroot]
    exact (ofParts?_eq_some_iff hspelled.2).2 hparts

/-- Arrays of three read as the envelope that their elements make. -/
theorem ofJson?_array_eq_some_iff {e : Envelope} {schema version root : Json}
    (h : version.WellSpelled) :
    ofJson? (.array [schema, version, root]) = some e ↔
      e.IsWhole (.array [schema, version, root]) := by
  rw [ofJson?, ofParts?_eq_some_iff h]
  constructor
  · exact .array
  · intro hwhole
    cases hwhole with
    | array hparts => exact hparts

/-- The values that read as an envelope are the complete ones. -/
theorem ofJson?_eq_some_iff {e : Envelope} {v : Json} (h : v.WellSpelled) :
    ofJson? v = some e ↔ e.IsWhole v := by
  match v with
  | .object fields => exact ⟨isWhole_of_ofJson?_object h, ofJson?_of_isWhole_object h⟩
  | .array [_, _, _] => exact ofJson?_array_eq_some_iff h.2.1
  | .null | .bool _ | .number _ | .string _ | .array [] | .array [_] | .array [_, _]
  | .array (_ :: _ :: _ :: _ :: _) => exact ⟨nofun, nofun⟩

/-- Every schema, version and strict content can be written as a complete envelope, with the fields
    in any order and with any unknown fields among them. -/
theorem isWhole_compact {s : String} {n : Nat} {x : Json} {extras fields : List (Bytes × Json)}
    (hbound : n ≤ maxVersion) (hstrict : x.isStrict = true) (hx : x.WellSpelled)
    (hextras : ∀ f ∈ extras, IsExtra f) (hspelled : Json.FieldsWellSpelled extras)
    (horder : fields.Perm ((Json.escape "schema", Json.text s) ::
      (Json.escape "version", .number (Json.decimal n)) :: (Json.escape "root", x) :: extras)) :
    IsWhole ⟨s, n, x⟩ (.object fields) ∧
      Json.IsDocument (.object fields) (Json.object fields).compact := by
  -- The names are written as they are read, so the three parts are found.
  have hwhole : IsWhole ⟨s, n, x⟩ (.object fields) :=
    .object (Json.unescape?_escape _) (Json.unescape?_escape _) (Json.unescape?_escape _)
      ⟨Json.text?_text s, rfl, hbound, rfl, hstrict⟩ hextras horder
  have hknown : Json.FieldsWellSpelled ((Json.escape "schema", Json.text s) ::
      (Json.escape "version", .number (Json.decimal n)) :: (Json.escape "root", x) :: extras) :=
    ⟨Json.isStringBody_escape _, Json.wellSpelled_text s, Json.isStringBody_escape _,
      Json.isNumber_decimal n, Json.isStringBody_escape _, hx, hspelled⟩
  -- Well-spelledness does not look at the order, which is why the permutation does no harm.
  have hfields : Json.FieldsWellSpelled fields := Json.fieldsWellSpelled_iff.2 fun f hf =>
    Json.fieldsWellSpelled_iff.1 hknown f (horder.subset hf)
  exact ⟨hwhole, Json.parse?_eq_some_iff.1 (Json.parse?_compact hfields)⟩

end Envelope

/-! ## Reading a document -/

namespace Outline

/-- The wording of a refused version tells it and the expected one. -/
theorem message_unsupportedVersion (n : Nat) : (DecodeError.unsupportedVersion n).message =
    "unsupported IR schema version " ++ n.repr ++ " (expected 1)" := by
  have hmessage : (DecodeError.unsupportedVersion n).message =
    "unsupported IR schema version " ++ n.repr ++ " (expected " ++ schemaVersion.repr ++ ")" := rfl
  have hexpected : " (expected " ++ (schemaVersion.repr ++ ")") = " (expected 1)" := by
    decide
  rw [hmessage, String.append_assoc, String.append_assoc, hexpected]

/-- What is read of a document that is one complete envelope. -/
theorem decode_of_isWhole {s : String} {n : Nat} {x v : Json} {bytes : Bytes}
    (hwhole : Envelope.IsWhole ⟨s, n, x⟩ v) (hdocument : Json.IsDocument v bytes) :
    decode bytes =
      if s ≠ schemaName then .error (.unknownSchema s)
      else if n ≠ schemaVersion then .error (.unsupportedVersion n)
      else (ofJson? x).elim (.error .malformed) .ok := by
  have hread := (Envelope.ofJson?_eq_some_iff hdocument.wellSpelled).2 hwhole
  simp only [decode, Json.parse?_eq_some_iff.2 hdocument, Option.bind_eq_bind, Option.bind_some,
    hread]
  cases ofJson? x <;> rfl

/-- Bytes that are no complete envelope are refused as malformed. -/
theorem decode_of_not_isWhole {bytes : Bytes}
    (h : ∀ e v, Envelope.IsWhole e v → ¬ Json.IsDocument v bytes) :
    decode bytes = .error .malformed := by
  cases hparse : Json.parse? bytes with
  -- Bytes that spell no document at all.
  | none => simp [decode, hparse]
  | some v =>
    -- They spell one document, and reading an envelope from it would contradict the hypothesis.
    have hdocument := Json.parse?_eq_some_iff.1 hparse
    cases hread : Envelope.ofJson? v with
    | none => simp [decode, hparse, hread]
    | some e =>
      have hwhole := (Envelope.ofJson?_eq_some_iff hdocument.wellSpelled).1 hread
      exact absurd hdocument (h e v hwhole)

/-- A document that is one complete envelope is judged by its schema first, then by its version and
    last by its content, which is looked at only if the other two are known.  Bytes that are no such
    document are malformed. -/
theorem decode_by_stages (bytes : Bytes) :
    (∀ s n x v, Envelope.IsWhole ⟨s, n, x⟩ v → Json.IsDocument v bytes →
      (s ≠ schemaName → decode bytes = .error (.unknownSchema s)) ∧
      (s = schemaName → n ≠ 1 → decode bytes = .error (.unsupportedVersion n) ∧
        (DecodeError.unsupportedVersion n).message =
          "unsupported IR schema version " ++ n.repr ++ " (expected 1)") ∧
      (s = schemaName → n = 1 →
        decode bytes = (ofJson? x).elim (.error .malformed) .ok)) ∧
    ((∀ e v, Envelope.IsWhole e v → ¬ Json.IsDocument v bytes) →
      decode bytes = .error .malformed) := by
  refine ⟨fun s n x v hwhole hdocument => ?_, decode_of_not_isWhole⟩
  have hdecode := decode_of_isWhole hwhole hdocument
  refine ⟨fun hs => ?_, fun hs hn => ⟨?_, message_unsupportedVersion n⟩, fun hs hn => ?_⟩
  -- The schema is looked at first, whatever the version and the root are.
  · rw [hdecode, if_pos hs]
  -- Then the version, before the root is read.
  · have hversion : n ≠ schemaVersion := hn
    rw [hdecode, if_neg (not_not.2 hs), if_pos hversion]
  -- Last the root; the two checks before it are passed.
  · have hversion : n = schemaVersion := hn
    rw [hdecode, if_neg (not_not.2 hs), if_neg (not_not.2 hversion)]

/-- A document in which the value of an unknown field holds a byte that no text holds. -/
def strayDocument (s : String) (n : Nat) (x : Json) : Json :=
  .object [(Json.escape "version", .number (Json.decimal n)), (Json.escape "note", .string [0xff]),
    (Json.escape "root", x), (Json.escape "schema", Json.text s)]

/-- The stray byte is in nobody's way. -/
theorem isWhole_strayDocument (s : String) {n : Nat} {x : Json} (hbound : n ≤ Envelope.maxVersion)
    (hstrict : x.isStrict = true) (hx : x.WellSpelled) :
    Envelope.IsWhole ⟨s, n, x⟩ (strayDocument s n x) ∧
      Json.IsDocument (strayDocument s n x) (strayDocument s n x).compact := by
  have hextra : Envelope.IsExtra (Json.escape "note", .string [0xff]) :=
    ⟨"note", Json.unescape?_escape _, by decide⟩
  have hspelled : Json.FieldsWellSpelled [(Json.escape "note", .string [0xff])] :=
    ⟨Json.isStringBody_escape _, (by decide : Json.IsStringBody [0xff]), trivial⟩
  refine Envelope.isWhole_compact hbound hstrict hx (by simpa using hextra) hspelled ?_
  exact (List.perm_append_singleton _ [_, _, _]).trans (((List.Perm.swap _ _ []).cons _).cons _)

/-- The document with the stray byte is no text and is read all the same. -/
theorem decode_strayDocument :
    ofUtf8? (strayDocument schemaName 1 (⟨[], []⟩ : Outline).toJson).compact = none ∧
      decode (strayDocument schemaName 1 (⟨[], []⟩ : Outline).toJson).compact = .ok ⟨[], []⟩ := by
  have hcanonical := (⟨[], []⟩ : Outline).canonical_toJson
  obtain ⟨hwhole, hdocument⟩ := isWhole_strayDocument schemaName (n := 1) (by decide)
    hcanonical.isStrict hcanonical.wellSpelled
  refine ⟨by decide, ?_⟩
  rw [decode_of_isWhole hwhole hdocument, ofJson?_toJson]
  rfl

/-- Documents with the stray byte: of another schema and another version, of another version, and
    with a number as content.  Without its last brace such a document is malformed. -/
theorem decode_by_stages_stray :
    let seven : Json := .number (Json.decimal 7)
    decode (strayDocument "other" 9 seven).compact = .error (.unknownSchema "other") ∧
      decode (strayDocument schemaName 9 seven).compact = .error (.unsupportedVersion 9) ∧
      decode (strayDocument schemaName 1 seven).compact = .error .malformed ∧
      decode (strayDocument "other" 9 seven).compact.dropLast = .error .malformed := by
  -- The four documents differ in the name and the version only, so one fact serves them.
  have hstray : ∀ s n, n ≤ Envelope.maxVersion →
      Envelope.IsWhole ⟨s, n, .number (Json.decimal 7)⟩ (strayDocument s n _) ∧
        Json.IsDocument (strayDocument s n (.number (Json.decimal 7))) _ := fun s n hn =>
    isWhole_strayDocument s hn (by decide +kernel) (Json.isNumber_decimal 7)
  obtain ⟨hother, hotherDocument⟩ := hstray "other" 9 (by decide)
  obtain ⟨hlater, hlaterDocument⟩ := hstray schemaName 9 (by decide)
  obtain ⟨hknown, hknownDocument⟩ := hstray schemaName 1 (by decide)
  refine ⟨?_, ?_, ?_, ?_⟩
  · exact ((decode_by_stages _).1 _ _ _ _ hother hotherDocument).1 (by decide)
  · exact (((decode_by_stages _).1 _ _ _ _ hlater hlaterDocument).2.1 rfl (by decide)).1
  · exact ((decode_by_stages _).1 _ _ _ _ hknown hknownDocument).2.2 rfl rfl
  -- The document without its last bracket parses to nothing, so it is no document of any value.
  · refine (decode_by_stages _).2 fun e v _ hdocument => ?_
    have hcut := Json.parse?_eq_none_of_prefix hotherDocument.wellSpelled
      (List.dropLast_prefix _) (by decide)
    exact nomatch (Json.parse?_eq_some_iff.2 hdocument).symm.trans hcut

end Outline

end JavaOutline

import JavaOutline.Outline.Decode
import JavaOutline.Proofs.Json.Grammar

/-!
# The two written forms of a document

A value is well spelled if its strings may stand between quotes and its numbers are literals.  The
compact and the indented form of a well-spelled value are both spellings of it, so both read back as
the value they were written from.

## Key results

- `parse?_compact`: the compact form reads as the value
- `parse?_pretty`: the indented form reads as the value
- `Canonical.wellSpelled`, `Canonical.isStrict`: values made of texts are well spelled and strict
-/

namespace JavaOutline.Json

/-! ## Well-spelled values -/

mutual

/-- Whether the strings and numbers of a value are spelled as the grammar asks. -/
def WellSpelled : Json → Prop
  | .null => True
  | .bool _ => True
  | .number literal => isNumber literal = true
  | .string body => IsStringBody body
  | .array elements => AllWellSpelled elements
  | .object fields => FieldsWellSpelled fields

/-- Whether every element is well spelled. -/
def AllWellSpelled : List Json → Prop
  | [] => True
  | v :: vs => WellSpelled v ∧ AllWellSpelled vs

/-- Whether every field has a well-spelled name and value. -/
def FieldsWellSpelled : List (Bytes × Json) → Prop
  | [] => True
  | (k, v) :: fs => IsStringBody k ∧ WellSpelled v ∧ FieldsWellSpelled fs

end

/-- A string made from a text is well spelled. -/
theorem wellSpelled_text (s : String) : WellSpelled (text s) := by
  rw [text, WellSpelled]
  exact isStringBody_escape s

/-- Elements are well spelled if each of them is. -/
theorem allWellSpelled_iff {vs : List Json} : AllWellSpelled vs ↔ ∀ v ∈ vs, WellSpelled v := by
  induction vs with
  | nil => simp [AllWellSpelled]
  | cons v vs ih => simp [AllWellSpelled, ih]

/-- Fields are well spelled if the name and the value of each of them are. -/
theorem fieldsWellSpelled_iff {fields : List (Bytes × Json)} :
    FieldsWellSpelled fields ↔ ∀ f ∈ fields, IsStringBody f.1 ∧ WellSpelled f.2 := by
  induction fields with
  | nil => simp [FieldsWellSpelled]
  | cons f fields ih => simp [FieldsWellSpelled, ih, and_assoc]

/-- A record is well spelled if its values are. -/
theorem wellSpelled_record {fields : List (String × Json)}
    (h : ∀ f ∈ fields, WellSpelled f.2) : WellSpelled (record fields) := by
  rw [record, WellSpelled]
  induction fields with
  | nil => rw [List.map_nil, FieldsWellSpelled]; trivial
  | cons f fields ih =>
    rw [List.map_cons, FieldsWellSpelled]
    exact ⟨isStringBody_escape f.1, h f List.mem_cons_self,
      ih fun g hg => h g (List.mem_cons_of_mem f hg)⟩

/-! ## Canonical values -/

/-- Elements are strict if each of them is. -/
theorem areStrict_of_forall {vs : List Json} (h : ∀ v ∈ vs, v.isStrict = true) :
    areStrict vs = true := by
  induction vs with
  | nil => rfl
  | cons v vs ih =>
    rw [areStrict, h v List.mem_cons_self, ih fun w hw => h w (List.mem_cons_of_mem v hw)]
    rfl

/-- Fields that were written by name are strict if their values are. -/
theorem fieldsAreStrict_of_forall {fields : List (String × Json)}
    (h : ∀ f ∈ fields, f.2.isStrict = true) :
    fieldsAreStrict (fields.map fun (name, value) => (escape name, value)) = true := by
  induction fields with
  | nil => rfl
  | cons f fields ih =>
    rw [List.map_cons, fieldsAreStrict, unescape?_escape, h f List.mem_cons_self,
      ih fun g hg => h g (List.mem_cons_of_mem f hg)]
    rfl

/-- A value made of canonically spelled texts, truth values and `null`. -/
inductive Canonical : Json → Prop
  | null : Canonical .null
  | bool (b : Bool) : Canonical (.bool b)
  | text (s : String) : Canonical (text s)
  | array {vs : List Json} (h : ∀ v ∈ vs, Canonical v) : Canonical (.array vs)
  | record {fields : List (String × Json)} (h : ∀ f ∈ fields, Canonical f.2) :
    Canonical (record fields)

namespace Canonical

/-- An array of texts is canonical. -/
theorem texts (items : List String) : Canonical (Json.texts items) := by
  refine .array fun v hv => ?_
  obtain ⟨s, -, rfl⟩ := List.mem_map.1 hv
  exact .text s

/-- An array of what is written of items is canonical if this is so for each item. -/
theorem map {α : Type} {write : α → Json} (h : ∀ a, Canonical (write a)) (items : List α) :
    Canonical (.array (items.map write)) := by
  refine .array fun v hv => ?_
  obtain ⟨a, -, rfl⟩ := List.mem_map.1 hv
  exact h a

/-- A canonical value is well spelled. -/
theorem wellSpelled {v : Json} (h : Canonical v) : WellSpelled v := by
  induction h with
  | null => trivial
  | bool b => trivial
  | text s => exact wellSpelled_text s
  | array _ ih =>
    rw [WellSpelled]
    exact allWellSpelled_iff.2 ih
  | record _ ih => exact wellSpelled_record ih

/-- The strings of a canonical value are texts, and it has no numbers. -/
theorem isStrict {v : Json} (h : Canonical v) : v.isStrict = true := by
  induction h with
  | null => rfl
  | bool b => rfl
  | text s => simp [Json.text, Json.isStrict]
  | array _ ih =>
    rw [Json.isStrict]
    exact areStrict_of_forall ih
  | record _ ih =>
    rw [Json.record, Json.isStrict]
    exact fieldsAreStrict_of_forall ih

end Canonical

/-! ## Compact form -/

mutual

/-- The compact form of a value is a spelling of it. -/
theorem spells_write {v : Json} (h : WellSpelled v) {rest : Bytes} (hr : endsNumber rest = true) :
    Spells v (write v rest) rest := by
  match v with
  | .null => exact .null
  | .bool b => exact .bool
  | .number literal =>
    rw [WellSpelled] at h
    exact .number h hr
  | .string body =>
    rw [WellSpelled] at h
    exact .string h
  | .array [] => exact .emptyArray [] rfl
  | .array (v :: vs) =>
    rw [WellSpelled, AllWellSpelled] at h
    -- The first element may be a number, so what follows it has to end numbers.
    obtain ⟨hends, helements⟩ := spellsElements_write h.2 rest
    exact .array (spells_write h.1 hends) helements
  | .object [] => exact .emptyObject [] rfl
  | .object ((k, v) :: fs) =>
    rw [WellSpelled, FieldsWellSpelled] at h
    obtain ⟨hends, hfields⟩ := spellsFields_write h.2.2 rest
    exact .object (.name [] h.1 rfl (spells_write h.2.1 hends)) hfields

/-- The compact form of the elements behind an element ends numbers and spells the elements. -/
theorem spellsElements_write {vs : List Json} (h : AllWellSpelled vs) (rest : Bytes) :
    endsNumber (writeElements vs (arrayClose :: rest)) = true ∧
      SpellsElements vs (writeElements vs (arrayClose :: rest)) rest := by
  match vs with
  | [] => exact ⟨rfl, .close⟩
  | v :: vs =>
    rw [AllWellSpelled] at h
    obtain ⟨hends, helements⟩ := spellsElements_write h.2 rest
    exact ⟨rfl, .next (spells_write h.1 hends) helements⟩

/-- The compact form of the fields behind a field ends numbers and spells the fields. -/
theorem spellsFields_write {fs : List (Bytes × Json)} (h : FieldsWellSpelled fs) (rest : Bytes) :
    endsNumber (writeFields fs (objectClose :: rest)) = true ∧
      SpellsFields fs (writeFields fs (objectClose :: rest)) rest := by
  match fs with
  | [] => exact ⟨rfl, .close⟩
  | (k, v) :: fs =>
    rw [FieldsWellSpelled] at h
    obtain ⟨hends, hfields⟩ := spellsFields_write h.2.2 rest
    exact ⟨rfl, .next (.name [] h.1 rfl (spells_write h.2.1 hends)) hfields⟩

end

/-- The compact form of a value reads as the value. -/
theorem parse?_compact {v : Json} (h : WellSpelled v) : parse? v.compact = some v :=
  parse?_of_spells (spells_write h rfl) rfl

/-! ## Indented form -/

/-- A line break and the spaces behind it are blanks. -/
theorem areBlank_line (level : Nat) :
    areBlank (newline :: List.replicate (2 * level) space) = true := by
  rw [areBlank, List.all_cons, List.all_replicate]
  split <;> rfl

/-- What holds with one more blank in front holds with any number of them. -/
theorem of_blanks (p : Bytes → Prop) (hp : ∀ {b bytes}, isBlank b = true → p bytes → p (b :: bytes))
    {blanks bytes : Bytes} (hb : areBlank blanks = true) (h : p bytes) : p (blanks ++ bytes) := by
  induction blanks with
  | nil => exact h
  | cons b blanks ih =>
    rw [areBlank, List.all_cons, Bool.and_eq_true] at hb
    exact hp hb.1 (ih hb.2)

/-- A value may stand on a line of its own. -/
theorem Spells.onLine {v : Json} {bytes rest : Bytes} (h : Spells v bytes rest) (level : Nat) :
    Spells v (writeLine level bytes) rest :=
  of_blanks (Spells v · rest) Spells.blank (areBlank_line level) h

/-- A comma or a closing bracket may stand on a line of its own. -/
theorem SpellsElements.onLine {vs : List Json} {bytes rest : Bytes}
    (h : SpellsElements vs bytes rest) (level : Nat) :
    SpellsElements vs (writeLine level bytes) rest :=
  of_blanks (SpellsElements vs · rest) SpellsElements.blank (areBlank_line level) h

/-- A field may stand on a line of its own. -/
theorem SpellsField.onLine {f : Bytes × Json} {bytes rest : Bytes} (h : SpellsField f bytes rest)
    (level : Nat) : SpellsField f (writeLine level bytes) rest :=
  of_blanks (SpellsField f · rest) SpellsField.blank (areBlank_line level) h

/-- A comma or a closing brace may stand on a line of its own. -/
theorem SpellsFields.onLine {fs : List (Bytes × Json)} {bytes rest : Bytes}
    (h : SpellsFields fs bytes rest) (level : Nat) :
    SpellsFields fs (writeLine level bytes) rest :=
  of_blanks (SpellsFields fs · rest) SpellsFields.blank (areBlank_line level) h

mutual

/-- The indented form of a value is a spelling of it, at any nesting. -/
theorem spells_writePretty {v : Json} (h : WellSpelled v) (level : Nat) {rest : Bytes}
    (hr : endsNumber rest = true) : Spells v (writePretty level v rest) rest := by
  match v with
  | .null => exact .null
  | .bool b => exact .bool
  | .number literal =>
    rw [WellSpelled] at h
    exact .number h hr
  | .string body =>
    rw [WellSpelled] at h
    exact .string h
  | .array [] => exact .emptyArray [] rfl
  | .array (v :: vs) =>
    rw [WellSpelled, AllWellSpelled] at h
    obtain ⟨hends, helements⟩ := spellsElements_writePretty h.2 level rest
    exact .array ((spells_writePretty h.1 (level + 1) hends).onLine _) helements
  | .object [] => exact .emptyObject [] rfl
  | .object ((k, v) :: fs) =>
    rw [WellSpelled, FieldsWellSpelled] at h
    obtain ⟨hends, hfields⟩ := spellsFields_writePretty h.2.2 level rest
    -- The space behind the colon is a blank in front of the value.
    have hvalue := (spells_writePretty h.2.1 (level + 1) hends).blank (b := space) (by rfl)
    exact .object ((SpellsField.name [] h.1 rfl hvalue).onLine _) hfields

/-- The indented form of the elements behind an element ends numbers and spells the elements. -/
theorem spellsElements_writePretty {vs : List Json} (h : AllWellSpelled vs) (level : Nat)
    (rest : Bytes) :
    endsNumber (writePrettyElements level vs (writeLine level (arrayClose :: rest))) = true ∧
      SpellsElements vs (writePrettyElements level vs (writeLine level (arrayClose :: rest)))
        rest := by
  match vs with
  | [] => exact ⟨rfl, SpellsElements.close.onLine _⟩
  | v :: vs =>
    rw [AllWellSpelled] at h
    obtain ⟨hends, helements⟩ := spellsElements_writePretty h.2 level rest
    -- The comma behind the value ends a number.
    have hvalue := spells_writePretty h.1 (level + 1) hends
    exact ⟨rfl, .next (hvalue.onLine _) helements⟩

/-- The indented form of the fields behind a field ends numbers and spells the fields. -/
theorem spellsFields_writePretty {fs : List (Bytes × Json)} (h : FieldsWellSpelled fs)
    (level : Nat) (rest : Bytes) :
    endsNumber (writePrettyFields level fs (writeLine level (objectClose :: rest))) = true ∧
      SpellsFields fs (writePrettyFields level fs (writeLine level (objectClose :: rest)))
        rest := by
  match fs with
  | [] => exact ⟨rfl, SpellsFields.close.onLine _⟩
  | (k, v) :: fs =>
    rw [FieldsWellSpelled] at h
    obtain ⟨hends, hfields⟩ := spellsFields_writePretty h.2.2 level rest
    -- The value stands behind the colon and a space.
    have hvalue := (spells_writePretty h.2.1 (level + 1) hends).blank (b := space) (by rfl)
    exact ⟨rfl, .next ((SpellsField.name [] h.1 rfl hvalue).onLine _) hfields⟩

end

/-- The indented form of a value reads as the value. -/
theorem parse?_pretty {v : Json} (h : WellSpelled v) : parse? v.pretty = some v :=
  parse?_of_spells (spells_writePretty h 0 rfl) rfl

/-! ### What stands behind the indented form -/

/-- What follows a line follows what is written on it. -/
theorem writeLine_append (level : Nat) (rest more : Bytes) :
    writeLine level rest ++ more = writeLine level (rest ++ more) := by
  simp [writeLine]

/-- What follows a string token follows what is written behind it. -/
theorem writeString_append (body rest more : Bytes) :
    writeString body rest ++ more = writeString body (rest ++ more) := by
  simp [writeString]

mutual

/-- The indented form of a value does not depend on what follows it. -/
theorem writePretty_append (level : Nat) (v : Json) (rest more : Bytes) :
    writePretty level v rest ++ more = writePretty level v (rest ++ more) := by
  match v with
  | .null | .bool _ | .number _ => exact List.append_assoc ..
  | .string _ => exact writeString_append ..
  | .array [] | .object [] => rfl
  | .array (v :: vs) =>
    simp only [writePretty, List.cons_append, writeLine_append, writePretty_append,
      writePrettyElements_append]
  | .object ((_, v) :: fs) =>
    simp only [writePretty, List.cons_append, writeLine_append, writeString_append,
      writePretty_append, writePrettyFields_append]

/-- Nor do the elements behind an element. -/
theorem writePrettyElements_append (level : Nat) (vs : List Json) (rest more : Bytes) :
    writePrettyElements level vs rest ++ more = writePrettyElements level vs (rest ++ more) := by
  match vs with
  | [] => rfl
  | v :: vs =>
    simp only [writePrettyElements, List.cons_append, writeLine_append, writePretty_append,
      writePrettyElements_append]

/-- Nor do the fields behind a field. -/
theorem writePrettyFields_append (level : Nat) (fs : List (Bytes × Json)) (rest more : Bytes) :
    writePrettyFields level fs rest ++ more = writePrettyFields level fs (rest ++ more) := by
  match fs with
  | [] => rfl
  | (_, v) :: fs =>
    simp only [writePrettyFields, List.cons_append, writeLine_append, writeString_append,
      writePretty_append, writePrettyFields_append]

end

/-- The indented form of an object that is not empty ends with its brace. -/
theorem exists_pretty_object (f : Bytes × Json) (fs : List (Bytes × Json)) :
    ∃ front, (object (f :: fs)).pretty = front ++ [objectClose] := by
  obtain ⟨k, v⟩ := f
  refine ⟨objectOpen :: writeLine 1 (writeString k (colonMark :: space :: writePretty 1 v
    (writePrettyFields 0 fs (writeLine 0 [])))), ?_⟩
  simp only [pretty, writePretty, List.cons_append, writeLine_append, writeString_append,
    writePretty_append, writePrettyFields_append, List.nil_append]

/-- The indented form followed by blanks reads as the value. -/
theorem parse?_pretty_append {v : Json} (h : WellSpelled v) {blanks : Bytes}
    (hends : endsNumber blanks = true) (hb : areBlank blanks = true) :
    parse? (v.pretty ++ blanks) = some v := by
  rw [pretty, writePretty_append, List.nil_append]
  exact parse?_of_spells (spells_writePretty h 0 hends) hb

end JavaOutline.Json

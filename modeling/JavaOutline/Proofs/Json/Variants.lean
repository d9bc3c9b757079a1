import JavaOutline.Outline.Decode
import JavaOutline.Proofs.Json.Layout
import Mathlib.Logic.Function.Basic

/-!
# Other ways to write a record

A record may be written with its fields in another order, with fields among them that it does not
know, and without the one optional field where its value is `null`.  `Varies whole v w` says that
`w` is `v` with any of its objects written in such a way; `whole` tells whether every required field
is still there, at any depth.

What a reader makes of a variant is stated by `ReadsAs read v a`: a whole variant of `v` reads as
`a`, and one that lacks a required field anywhere is refused.  This composes: a list reads as its
items if each element does, and a record if each of its parts does.

## Key results

- `Varies.hasPart`: the parts of a variant are variants of the parts
- `VariesPart.bind`: what is read of a part of a variant
- `ReadsAs.array`: a list is read element by element
- `Varies.isStrict`: a variant of a strict value is strict
-/

namespace JavaOutline.Json

/-! ## Variants -/

/-- The name of the only field that may be left out, which it may where its value is `null`. -/
def optionalName : String := "condition"

/-- Whether a field may be added to a record with these fields: its name is a text that none of them
    has, and its value is strict. -/
def IsUnknown (fields : List (Bytes × Json)) (f : Bytes × Json) : Prop :=
  ∃ name, unescape? f.1 = some name ∧ (∀ g ∈ fields, isNamed name g = false) ∧ f.2.isStrict = true

mutual

/-- Another way to write a value; `whole` if no required field is missing in any of its objects. -/
inductive Varies : (whole : Bool) → Json → Json → Prop
  | null : Varies true .null .null
  | bool (b : Bool) : Varies true (.bool b) (.bool b)
  | number (literal : Bytes) : Varies true (.number literal) (.number literal)
  | string (body : Bytes) : Varies true (.string body) (.string body)
  | array {whole : Bool} {vs ws : List Json} (h : VariesElements whole vs ws) :
    Varies whole (.array vs) (.array ws)
  | object {whole : Bool} {fields known added written : List (Bytes × Json)}
    (h : VariesFields whole fields known) (hadded : ∀ f ∈ added, IsUnknown fields f)
    (horder : written.Perm (known ++ added)) : Varies whole (.object fields) (.object written)

/-- Another way to write each element of a list. -/
inductive VariesElements : (whole : Bool) → List Json → List Json → Prop
  | nil : VariesElements true [] []
  | cons {a b : Bool} {v w : Json} {vs ws : List Json} (h : Varies a v w)
    (hs : VariesElements b vs ws) : VariesElements (a && b) (v :: vs) (w :: ws)

/-- Another way to write each field of a list, where fields may be left out. -/
inductive VariesFields : (whole : Bool) → List (Bytes × Json) → List (Bytes × Json) → Prop
  | nil : VariesFields true [] []
  | keep {a b : Bool} {name : Bytes} {v w : Json} {fs gs : List (Bytes × Json)} (h : Varies a v w)
    (hs : VariesFields b fs gs) : VariesFields (a && b) ((name, v) :: fs) ((name, w) :: gs)
  | dropNull {b : Bool} {name : Bytes} {fs gs : List (Bytes × Json)}
    (hname : unescape? name = some optionalName) (hs : VariesFields b fs gs) :
    VariesFields b ((name, .null) :: fs) gs
  | leaveOut {b : Bool} {name : Bytes} {v : Json} {fs gs : List (Bytes × Json)}
    (hname : unescape? name ≠ some optionalName) (hs : VariesFields b fs gs) :
    VariesFields false ((name, v) :: fs) gs

end

/-- Only `null` varies to `null`. -/
theorem Varies.ne_null {whole : Bool} {v w : Json} (h : Varies whole v w) (hv : v ≠ .null) :
    w ≠ .null := by
  cases h with
  | null => exact hv
  | bool | number | string | array | object => nofun

/-- A string is written in one way only. -/
theorem Varies.of_string {whole : Bool} {body : Bytes} {w : Json}
    (h : Varies whole (.string body) w) : whole = true ∧ w = .string body := by
  cases h
  exact ⟨rfl, rfl⟩

/-- A number is written in one way only. -/
theorem Varies.of_number {whole : Bool} {literal : Bytes} {w : Json}
    (h : Varies whole (.number literal) w) : whole = true ∧ w = .number literal := by
  cases h
  exact ⟨rfl, rfl⟩

mutual

/-- A value is a whole variant of itself. -/
theorem Varies.refl (v : Json) : Varies true v v := by
  match v with
  | .null => exact .null
  | .bool b => exact .bool b
  | .number literal => exact .number literal
  | .string body => exact .string body
  | .array vs => exact .array (VariesElements.refl vs)
  | .object fields =>
    exact .object (VariesFields.refl fields) (List.forall_mem_nil _)
      (.of_eq (List.append_nil fields).symm)

/-- Elements are whole variants of themselves. -/
theorem VariesElements.refl (vs : List Json) : VariesElements true vs vs := by
  match vs with
  | [] => exact .nil
  | v :: vs => exact .cons (Varies.refl v) (VariesElements.refl vs)

/-- Fields are whole variants of themselves. -/
theorem VariesFields.refl (fields : List (Bytes × Json)) : VariesFields true fields fields := by
  match fields with
  | [] => exact .nil
  | (_, v) :: fields => exact .keep (Varies.refl v) (VariesFields.refl fields)

end

/-! ## Parts of a variant -/

/-- A field whose name was spelled canonically is called by this name only. -/
@[simp] theorem isNamed_escape (name key : String) (v : Json) :
    isNamed name (escape key, v) = (key == name) := by
  rw [isNamed, unescape?_escape]
  rfl

/-- What has become of the field called `name` with the value `v`. -/
inductive VariesPart : (whole : Bool) → (name : String) → (v : Json) → Option Json → Prop
  | kept {whole : Bool} {name : String} {v w : Json} (h : Varies whole v w) :
    VariesPart whole name v (some w)
  | dropped : VariesPart true optionalName .null none
  | missing {name : String} {v : Json} (h : name ≠ optionalName) : VariesPart false name v none

/-- The last field of a name is the last one of those that have the name. -/
theorem lastField?_eq_getLast? (name : String) (fields : List (Bytes × Json)) :
    lastField? name fields = ((fields.filter (isNamed name)).getLast?).map Prod.snd := by
  induction fields with
  | nil => rfl
  | cons f fields ih =>
    rw [lastField?, ih, List.filter_cons]
    split
    · rw [List.getLast?_cons]
      cases (fields.filter (isNamed name)).getLast? <;> rfl
    · simp

/-- No field that is kept has a name that no field had. -/
theorem VariesFields.filter_eq_nil {whole : Bool} {fields known : List (Bytes × Json)}
    {name : String} (h : VariesFields whole fields known)
    (hnone : ∀ f ∈ fields, isNamed name f = false) : known.filter (isNamed name) = [] := by
  cases h with
  | nil => rfl
  | keep _ hs =>
    rw [List.forall_mem_cons] at hnone
    -- The name of a kept field is what it was.
    rw [List.filter_cons_of_neg (by simpa [isNamed] using hnone.1), hs.filter_eq_nil hnone.2]
  | dropNull _ hs => exact hs.filter_eq_nil (List.forall_mem_cons.1 hnone).2
  | leaveOut _ hs => exact hs.filter_eq_nil (List.forall_mem_cons.1 hnone).2

/-- Whether the fields called `name` are one with the given value, or none if there is no value. -/
def IsSole (fields : List (Bytes × Json)) (name : String) (part : Option Json) : Prop :=
  fields.filter (isNamed name) = (part.map (Prod.mk (escape name))).toList

/-- The only field of a name is the last one. -/
theorem IsSole.lastField?_eq {fields : List (Bytes × Json)} {name : String} {part : Option Json}
    (h : IsSole fields name part) : lastField? name fields = part := by
  rw [lastField?_eq_getLast?, h]
  cases part <;> rfl

/-- A field of another name in front changes nothing. -/
theorem IsSole.cons_of_ne {fields : List (Bytes × Json)} {name key : String} {part : Option Json}
    (h : IsSole fields name part) (hne : key ≠ name) (v : Json) :
    IsSole ((escape key, v) :: fields) name part := by
  rw [IsSole, List.filter_cons_of_neg (by simpa using hne)]
  exact h

/-- Fields of other names and another order change nothing. -/
theorem IsSole.of_perm {known added written : List (Bytes × Json)} {name : String}
    {part : Option Json} (h : IsSole known name part)
    (hadded : ∀ f ∈ added, isNamed name f = false) (horder : written.Perm (known ++ added)) :
    IsSole written name part := by
  have hperm := horder.filter (isNamed name)
  have hnone : added.filter (isNamed name) = [] :=
    List.filter_eq_nil_iff.2 fun f hf => by simp [hadded f hf]
  rw [List.filter_append, hnone, List.append_nil, h] at hperm
  -- A list of at most one field has no other order.
  rw [IsSole]
  cases part with
  | none => exact hperm.eq_nil
  | some w => exact hperm.eq_singleton

/-- Whether among the fields of a variant there is one thing only that has become of a field. -/
def HasPart (written : List (Bytes × Json)) (f : String × Json) (whole : Bool) : Prop :=
  ∃ part, IsSole written f.1 part ∧ VariesPart whole f.1 f.2 part

/-- A part stays the same behind a field of another name. -/
theorem HasPart.cons_of_ne {known : List (Bytes × Json)} {f : String × Json} {whole : Bool}
    (h : HasPart known f whole) {key : String} (hne : key ≠ f.1) (v : Json) :
    HasPart ((escape key, v) :: known) f whole := by
  obtain ⟨part, hsole, hpart⟩ := h
  exact ⟨part, hsole.cons_of_ne hne v, hpart⟩

/-- A part joins parts of other names. -/
theorem HasPart.exists_cons {known : List (Bytes × Json)} {fields : List (String × Json)}
    {name : String} {v : Json} {a : Bool} {isWhole : String → Bool}
    (hother : ∀ f ∈ fields, name ≠ f.1) (hfirst : HasPart known (name, v) a)
    (hparts : ∀ f ∈ fields, HasPart known f (isWhole f.1)) :
    ∃ isWhole' : String → Bool,
      (a && fields.all (isWhole ·.1)) = ((name, v) :: fields).all (isWhole' ·.1) ∧
      ∀ f ∈ (name, v) :: fields, HasPart known f (isWhole' f.1) := by
  -- The names are distinct, so what holds of this one can be set without the others.
  have hsame : ∀ f ∈ fields, Function.update isWhole name a f.1 = isWhole f.1 := fun f hf =>
    Function.update_of_ne (hother f hf).symm a isWhole
  refine ⟨Function.update isWhole name a, ?_, List.forall_mem_cons.2 ⟨?_, fun f hf => ?_⟩⟩
  · rw [List.all_cons, Function.update_self, Bool.eq_iff_iff]
    simp +contextual [hsame]
  · rwa [Function.update_self]
  · rw [hsame f hf]
    exact hparts f hf

/-- Every field of a record of distinct names has become a part; the record is whole if all its
    parts are. -/
theorem VariesFields.hasPart {whole : Bool} {fields : List (String × Json)}
    {known : List (Bytes × Json)} (hnames : (fields.map Prod.fst).Nodup)
    (h : VariesFields whole (fields.map fun (name, v) => (escape name, v)) known) :
    ∃ isWhole : String → Bool, whole = fields.all (isWhole ·.1) ∧
      ∀ f ∈ fields, HasPart known f (isWhole f.1) := by
  induction fields generalizing whole known with
  | nil =>
    cases h
    exact ⟨fun _ => true, rfl, nofun⟩
  | cons f fields ih =>
    obtain ⟨name, v⟩ := f
    rw [List.map_cons, List.nodup_cons] at hnames
    have hother : ∀ g ∈ fields, name ≠ g.1 := by
      rintro g hg rfl
      exact hnames.1 (List.mem_map.2 ⟨g, hg, rfl⟩)
    -- None of the later fields has the name, so none of those that are kept has.
    have hnone : ∀ {b known}, VariesFields b
        (fields.map fun (name, v) => (escape name, v)) known → IsSole known name none := by
      intro b known hs
      refine hs.filter_eq_nil fun g hg => ?_
      obtain ⟨f, hf, rfl⟩ := List.mem_map.1 hg
      simpa using (hother f hf).symm
    rw [List.map_cons] at h
    cases h with
    | @keep a b _ _ w _ known hw hs =>
      obtain ⟨isWhole, rfl, hparts⟩ := ih hnames.2 hs
      refine HasPart.exists_cons hother ⟨some w, ?_, .kept hw⟩ fun f hf =>
        (hparts f hf).cons_of_ne (hother f hf) w
      rw [IsSole, List.filter_cons_of_pos (by simp), hnone hs]
      rfl
    | dropNull hname hs =>
      obtain ⟨isWhole, rfl, hparts⟩ := ih hnames.2 hs
      obtain rfl : name = optionalName := by simpa using hname
      exact HasPart.exists_cons hother ⟨none, hnone hs, .dropped⟩ hparts
    | leaveOut hname hs =>
      obtain ⟨isWhole, rfl, hparts⟩ := ih hnames.2 hs
      have hmissing := VariesPart.missing (v := v) (by simpa using hname : name ≠ optionalName)
      exact HasPart.exists_cons hother ⟨none, hnone hs, hmissing⟩ hparts

/-- A variant of a record of distinct names is an object with every part of the record, each as the
    only field of its name; it is whole if all its parts are. -/
theorem Varies.hasPart {whole : Bool} {fields : List (String × Json)} {v : Json}
    (hnames : (fields.map Prod.fst).Nodup) (h : Varies whole (record fields) v) :
    ∃ (written : List (Bytes × Json)) (isWhole : String → Bool), v = .object written ∧
      whole = fields.all (isWhole ·.1) ∧ ∀ f ∈ fields, HasPart written f (isWhole f.1) := by
  rw [record] at h
  cases h with
  | @object _ _ known added written h hadded horder =>
    obtain ⟨isWhole, hwhole, hparts⟩ := h.hasPart hnames
    refine ⟨written, isWhole, rfl, hwhole, fun f hf => ?_⟩
    obtain ⟨part, hsole, hpart⟩ := hparts f hf
    refine ⟨part, hsole.of_perm (fun g hg => ?_) horder, hpart⟩
    -- The name of an added field is another one than that of any field of the record.
    obtain ⟨name, hname, hother, -⟩ := hadded g hg
    have hne := hother (escape f.1, f.2) (List.mem_map.2 ⟨f, hf, rfl⟩)
    rw [isNamed_escape, beq_eq_false_iff_ne] at hne
    simpa [isNamed, hname] using hne.symm

/-! ## Reading variants -/

section

variable {α β : Type}

/-- What is read of a variant: the value if the variant is whole, else nothing. -/
def whenWhole (whole : Bool) (a : α) : Option α :=
  if whole then some a else none

@[simp] theorem whenWhole_true (a : α) : whenWhole true a = some a :=
  rfl

@[simp] theorem whenWhole_false (a : α) : whenWhole false a = none :=
  rfl

/-- Whether a reader makes `a` of the whole variants of `v` and nothing of the others. -/
def ReadsAs (read : Json → Option α) (v : Json) (a : α) : Prop :=
  ∀ (whole : Bool) (w : Json), Varies whole v w → read w = whenWhole whole a

/-- What is read of a part of a variant. -/
theorem VariesPart.bind {whole : Bool} {name : String} {v : Json} {part : Option Json}
    {read : Json → Option α} {a : α} (h : VariesPart whole name v part) (hread : ReadsAs read v a)
    (hnull : v.isNull = false) : part >>= read = whenWhole whole a := by
  cases h with
  | kept h => exact hread _ _ h
  | dropped => cases hnull
  | missing _ => rfl

/-- A part of a record is read, and what follows with it, as long as all parts are whole. -/
theorem HasPart.read {written : List (Bytes × Json)} {name : String} {v : Json} {whole rest : Bool}
    {read : Json → Option α} {a : α} (h : HasPart written (name, v) whole)
    (hread : ReadsAs read v a) (hnull : v.isNull = false) {arity index : Nat}
    {next : α → Option β} {b : β} (hnext : next a = whenWhole rest b) :
    (do next (← read (← (Json.object written).part? arity index name))) =
      whenWhole (whole && rest) b := by
  obtain ⟨part, hsole, hpart⟩ := h
  rw [part?, hsole.lastField?_eq, ← bind_assoc, hpart.bind hread hnull]
  -- Where this part is not whole, what follows is not looked at.
  cases whole
  · rfl
  · exact hnext

/-- A text is written in one way only. -/
theorem readsAs_text (s : String) : ReadsAs text? (text s) s := by
  intro whole w h
  cases h
  exact text?_text s

/-- A tag is written in one way only. -/
theorem readsAs_tag (isUnit : Json → Bool) (s : String) : ReadsAs (tag? isUnit) (text s) s := by
  intro whole w h
  cases h
  exact unescape?_escape s

/-- A truth value is written in one way only. -/
theorem readsAs_bool (b : Bool) : ReadsAs bool? (.bool b) b := by
  intro whole w h
  cases h
  rfl

/-- A list is read element by element. -/
theorem ReadsAs.array {read : Json → Option α} {write : α → Json} {items : List α}
    (h : ∀ a ∈ items, ReadsAs read (write a) a) :
    ReadsAs (fun v => v.elements?.bind (·.mapM read)) (.array (items.map write)) items := by
  have helements : ∀ {whole ws}, VariesElements whole (items.map write) ws →
      ws.mapM read = whenWhole whole items := by
    induction items with
    | nil =>
      intro whole ws hs
      cases hs
      rfl
    | cons a items ih =>
      intro whole ws hs
      rw [List.forall_mem_cons] at h
      cases hs with
      | @cons p q _ w _ ws hw hs =>
        rw [List.mapM_cons, h.1 _ _ hw, ih h.2 hs]
        -- The list is whole if both its first element and the others are.
        cases p <;> cases q <;> rfl
  intro whole w hw
  cases hw with
  | array hs => exact helements hs

/-- A part that is a tag is read as what the tag stands for. -/
theorem HasPart.readTag {written : List (Bytes × Json)} {name s : String} {whole rest : Bool}
    {ofName? : String → Option α} {a : α} (h : HasPart written (name, text s) whole)
    (ha : ofName? s = some a) {isUnit : Json → Bool} {arity index : Nat} {next : α → Option β}
    {b : β} (hnext : next a = whenWhole rest b) :
    (do next (← ofName? (← (← (Json.object written).part? arity index name).tag? isUnit))) =
      whenWhole (whole && rest) b := by
  refine h.read (readsAs_tag isUnit s) rfl ?_
  rw [ha]
  exact hnext

/-- A part that is a list is read element by element. -/
theorem HasPart.readList {written : List (Bytes × Json)} {name : String} {whole rest : Bool}
    {read : Json → Option α} {write : α → Json} {items : List α}
    (h : HasPart written (name, .array (items.map write)) whole)
    (hread : ∀ a ∈ items, ReadsAs read (write a) a) {arity index : Nat}
    {next : List α → Option β} {b : β} (hnext : next items = whenWhole rest b) :
    (do next (← (← (← (Json.object written).part? arity index name).elements?).mapM read)) =
      whenWhole (whole && rest) b := by
  refine (bind_congr fun part => ?_).trans (h.read (ReadsAs.array hread) rfl hnext)
  exact (Option.bind_assoc ..).symm

/-- Texts are read one by one. -/
theorem readsAs_texts (items : List String) : ReadsAs texts? (texts items) items :=
  ReadsAs.array fun s _ => readsAs_text s

end

/-! ## Strictness -/

/-- Fields are strict if the name of each is a text and its value is strict. -/
theorem fieldsAreStrict_iff {fields : List (Bytes × Json)} :
    fieldsAreStrict fields = true ↔
      ∀ f ∈ fields, (unescape? f.1).isSome = true ∧ f.2.isStrict = true := by
  induction fields with
  | nil => simp [fieldsAreStrict]
  | cons f fields ih => simp [fieldsAreStrict, ih, and_assoc]

mutual

/-- A variant of a strict value is strict. -/
theorem Varies.isStrict {whole : Bool} {v w : Json} (h : Varies whole v w)
    (hv : v.isStrict = true) : w.isStrict = true := by
  match h with
  | .null => exact hv
  | .bool b => exact hv
  | .number literal => exact hv
  | .string body => exact hv
  | .array hs =>
    rw [Json.isStrict] at hv ⊢
    exact hs.areStrict hv
  -- Every field comes from the original, or was added with a strict value.
  | .object hs hadded horder =>
    rw [Json.isStrict, fieldsAreStrict_iff] at hv ⊢
    intro f hf
    rcases List.mem_append.1 (horder.mem_iff.1 hf) with hf | hf
    · exact hs.areStrict hv f hf
    · obtain ⟨name, hname, -, hstrict⟩ := hadded f hf
      exact ⟨by rw [hname]; rfl, hstrict⟩

/-- Variants of strict elements are strict. -/
theorem VariesElements.areStrict {whole : Bool} {vs ws : List Json}
    (h : VariesElements whole vs ws) (hvs : areStrict vs = true) : areStrict ws = true := by
  match h with
  | .nil => rfl
  | .cons hw hs =>
    rw [Json.areStrict, Bool.and_eq_true] at hvs ⊢
    exact ⟨hw.isStrict hvs.1, hs.areStrict hvs.2⟩

/-- The fields that are kept of strict ones are strict. -/
theorem VariesFields.areStrict {whole : Bool} {fields known : List (Bytes × Json)}
    (h : VariesFields whole fields known)
    (hfields : ∀ f ∈ fields, (unescape? f.1).isSome = true ∧ f.2.isStrict = true) :
    ∀ f ∈ known, (unescape? f.1).isSome = true ∧ f.2.isStrict = true := by
  match h with
  | .nil => exact hfields
  | .keep hw hs =>
    rw [List.forall_mem_cons] at hfields ⊢
    exact ⟨⟨hfields.1.1, hw.isStrict hfields.1.2⟩, hs.areStrict hfields.2⟩
  | .dropNull _ hs => exact hs.areStrict (List.forall_mem_cons.1 hfields).2
  | .leaveOut _ hs => exact hs.areStrict (List.forall_mem_cons.1 hfields).2

end

end JavaOutline.Json

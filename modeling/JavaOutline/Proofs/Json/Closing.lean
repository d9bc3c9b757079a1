import JavaOutline.Proofs.Json.Layout

/-!
# Where a document ends

A document that starts with a brace is complete exactly when the bracket it started with is closed:
the reader has either something open, and then the bytes may not end, or it is behind the document,
and then only blanks may follow.  So such a document decides for every text that goes on with it,
and for every text that stops short of it, whether that text is a document too.

A document that is a bare number is different: `1` and `12` are both complete.

## Key results

- `State.Closes.step`: one more byte leaves something open or completes the document
- `parse?_append`: what may follow a complete object
- `parse?_eq_none_of_cut`: a complete object that is cut off reads as nothing
-/

namespace JavaOutline.Json

/-! ## Reading in two parts -/

/-- The state after some bytes, if a document may go on with them. -/
def State.through? : State → Bytes → Option State
  | s, [] => some s
  | s, b :: rest => (step s b).bind (through? · rest)

/-- What two parts complete is what the second completes behind the first. -/
theorem run_append (s : State) (front rest : Bytes) :
    run s (front ++ rest) = (s.through? front).bind (run · rest) := by
  induction front generalizing s with
  | nil => rfl
  | cons b front ih =>
    rw [List.cons_append, run, State.through?]
    cases step s b with
    | none => rfl
    | some next => exact ih next

/-- Behind a complete document only blanks may follow. -/
theorem run_done (v : Json) (rest : Bytes) :
    run ⟨.done v, []⟩ rest = if areBlank rest then some v else none := by
  induction rest with
  | nil => rfl
  | cons b rest ih =>
    rw [run, step, areBlank, List.all_cons]
    cases isBlank b with
    | false => rfl
    | true => exact ih

/-! ## Something is open or the document is complete -/

/-- A state in which something is still open, or behind a complete document. -/
inductive State.Closes : State → Prop
  | inside {mode : Mode} {frame : Frame} {stack : List Frame} (hmode : ∀ v, mode ≠ .done v) :
    Closes ⟨mode, frame :: stack⟩
  | behind (v : Json) : Closes ⟨.done v, []⟩

namespace State.Closes

/-- A value completes the document or belongs to what is open. -/
theorem deliver (v : Json) (stack : List Frame) : (deliver v stack).Closes :=
  match stack with
  | [] => .behind v
  | .array _ :: _ | .field _ _ :: _ | .object _ :: _ => .inside (by simp)

/-- The first byte of a value closes nothing. -/
theorem startValue {frame : Frame} {stack : List Frame} {b : UInt8} {next : State}
    (h : startValue (frame :: stack) b = some next) : next.Closes := by
  unfold Json.startValue at h
  repeat' split at h
  case isFalse =>
    obtain ⟨phase, -, rfl⟩ := Option.map_eq_some_iff.1 h
    exact .inside (by simp)
  all_goals
    cases h
    exact .inside (by simp)

/-- A closing bracket closes what was opened last, and a comma nothing. -/
theorem stepAfter {stack : List Frame} {b : UInt8} {next : State}
    (h : stepAfter stack b = some next) : next.Closes := by
  unfold Json.stepAfter at h
  repeat' split at h
  all_goals cases h
  all_goals first | exact .inside (by simp) | exact deliver _ _

/-- The end of a string completes a value or the name of a field. -/
theorem endString {isName : Bool} {body : Bytes} {stack : List Frame} {next : State}
    (h : endString isName body stack = some next) : next.Closes := by
  unfold Json.endString at h
  repeat' split at h
  all_goals cases h
  all_goals first | exact .inside (by simp) | exact deliver _ _

/-- A byte behind a number is a byte behind the value that the number is. -/
theorem stepBehind {v : Json} {stack : List Frame} {b : UInt8} {next : State}
    (h : stepBehind (Json.deliver v stack) b = some next) : next.Closes := by
  unfold Json.stepBehind at h
  repeat' split at h
  all_goals first | exact stepAfter h | cases h
  exact behind _

/-- One more byte leaves something open or completes the document. -/
theorem step {s next : State} (hs : s.Closes) {b : UInt8} (h : step s b = some next) :
    next.Closes := by
  cases hs with
  -- Behind the document a blank changes nothing, and any other byte is refused.
  | behind v =>
    simp only [Json.step] at h
    split at h <;> cases h
    exact behind v
  | @inside mode frame stack hmode =>
    cases mode with
    | done v => exact absurd rfl (hmode v)
    -- A blank leaves the mode alone, and any other byte begins a value.
    | value =>
      simp only [Json.step] at h
      split at h
      · cases h
        exact .inside (by simp)
      · exact startValue h
    -- The bracket may be closed at once, which is the step of a value that is over.
    | firstElement =>
      simp only [Json.step] at h
      repeat' split at h
      · cases h
        exact .inside (by simp)
      · exact stepAfter h
      · exact startValue h
    | firstName =>
      simp only [Json.step] at h
      repeat' split at h
      · cases h
        exact .inside (by simp)
      · exact stepAfter h
      · cases h
        exact .inside (by simp)
      · cases h
    -- These modes only lead deeper into the object.
    | name | colon =>
      simp only [Json.step] at h
      repeat' split at h
      all_goals cases h
      all_goals exact .inside (by simp)
    | after => exact stepAfter h
    -- A string that ends is a name or a value, and one that goes on stays in its mode.
    | string isName phase read =>
      simp only [Json.step] at h
      split at h
      · exact endString h
      · obtain ⟨phase', -, rfl⟩ := Option.map_eq_some_iff.1 h
        exact .inside (by simp)
    -- A number ends with the byte behind it.
    | number phase read =>
      simp only [Json.step] at h
      repeat' split at h
      · cases h
        exact .inside (by simp)
      · exact stepBehind h
      · cases h
    -- A word that ends is a value.
    | word left meaning =>
      simp only [Json.step] at h
      repeat' split at h
      all_goals cases h
      · exact deliver _ _
      · exact .inside (by simp)

/-- So do any number of bytes. -/
theorem through? {s next : State} (hs : s.Closes) {bytes : Bytes}
    (h : s.through? bytes = some next) : next.Closes := by
  induction bytes generalizing s with
  | nil =>
    cases h
    exact hs
  | cons b bytes ih =>
    obtain ⟨mid, hstep, hrest⟩ := Option.bind_eq_some_iff.1 h
    exact ih (hs.step hstep) hrest

/-- The bytes may end only behind the complete document. -/
theorem eq_of_finish {s : State} (hs : s.Closes) {v : Json} (h : finish s = some v) :
    s = ⟨.done v, []⟩ := by
  cases hs with
  | behind w =>
    cases h
    rfl
  | @inside mode frame stack hmode =>
    cases mode with
    | done w => exact absurd rfl (hmode w)
    | _ => cases h

end State.Closes

/-! ## Documents that start with a brace -/

/-- What may follow a complete object. -/
theorem parse?_append {bytes : Bytes} (hfirst : bytes.head? = some objectOpen) {v : Json}
    (h : parse? bytes = some v) (more : Bytes) :
    parse? (bytes ++ more) = if areBlank more then some v else none := by
  obtain ⟨rest, rfl⟩ := List.head?_eq_some_iff.1 hfirst
  have hopen : ∀ bytes, parse? (objectOpen :: bytes) = run ⟨.firstName, [.object []]⟩ bytes :=
    fun _ => rfl
  -- The machine has read the whole document and could stop there.
  obtain ⟨s, hs, hfinish⟩ : ∃ s, State.through? ⟨.firstName, [.object []]⟩ rest = some s ∧
      finish s = some v := by
    rw [hopen, ← List.append_nil rest, run_append] at h
    exact Option.bind_eq_some_iff.1 h
  -- An object is open from the first byte on, so the machine stops only behind its end.
  have hinside : State.Closes ⟨.firstName, [.object []]⟩ := .inside (by simp)
  have hdone := (hinside.through? hs).eq_of_finish hfinish
  rw [List.cons_append, hopen, run_append, hs, hdone, Option.bind_some, run_done]

/-- A complete object that is cut off in front of a byte that is no blank reads as nothing. -/
theorem parse?_eq_none_of_cut {front rest : Bytes}
    (hfirst : (front ++ rest).head? = some objectOpen) {v : Json}
    (h : parse? (front ++ rest) = some v) {b : UInt8} (hmem : b ∈ rest) (hb : isBlank b = false) :
    parse? front = none := by
  cases front with
  | nil => rfl
  | cons c front =>
    cases hparse : parse? (c :: front) with
    | none => rfl
    | some w =>
      -- A document is already complete here, so the rest would have to be blank.
      have hrest : ¬ areBlank rest = true := by
        intro hblank
        rw [List.all_eq_true.1 hblank b hmem] at hb
        cases hb
      have hfront : (c :: front).head? = some objectOpen := hfirst
      rw [parse?_append hfront hparse, if_neg hrest] at h
      cases h

/-! ## Compact objects -/

/-- A string token stands in front of what follows it. -/
theorem suffix_writeString (body rest : Bytes) : rest <:+ writeString body rest :=
  ⟨quoteMark :: (body ++ [quoteMark]), by simp [writeString]⟩

/-- The name of a field and its colon stand in front of its value. -/
theorem suffix_writeName (name value : Bytes) :
    value <:+ writeString name (colonMark :: value) :=
  (List.suffix_cons colonMark value).trans (suffix_writeString name _)

mutual

/-- The compact form of a value stands in front of what follows it. -/
theorem suffix_write (v : Json) (rest : Bytes) : rest <:+ write v rest := by
  match v with
  | .null | .bool _ | .number _ => exact List.suffix_append _ rest
  | .string body => exact suffix_writeString body rest
  | .array [] | .object [] => exact List.suffix_append [_, _] rest
  | .array (v :: vs) =>
    -- Whatever is written in front, the rest stays at the end.
    have hclose := (List.suffix_cons arrayClose rest).trans (suffix_writeElements vs _)
    exact (hclose.trans (suffix_write v _)).trans (List.suffix_cons ..)
  | .object ((k, v) :: fs) =>
    have hclose := (List.suffix_cons objectClose rest).trans (suffix_writeFields fs _)
    have hvalue := (hclose.trans (suffix_write v _)).trans (suffix_writeName k _)
    exact hvalue.trans (List.suffix_cons ..)

/-- So does the compact form of the elements behind an element. -/
theorem suffix_writeElements (vs : List Json) (rest : Bytes) : rest <:+ writeElements vs rest := by
  match vs with
  | [] => exact List.suffix_refl rest
  | v :: vs =>
    have helement := (suffix_writeElements vs rest).trans (suffix_write v _)
    exact helement.trans (List.suffix_cons ..)

/-- So does the compact form of the fields behind a field. -/
theorem suffix_writeFields (fs : List (Bytes × Json)) (rest : Bytes) :
    rest <:+ writeFields fs rest := by
  match fs with
  | [] => exact List.suffix_refl rest
  | (k, v) :: fs =>
    have hvalue := (suffix_writeFields fs rest).trans (suffix_write v _)
    exact (hvalue.trans (suffix_writeName k _)).trans (List.suffix_cons ..)

end

/-- The compact form of an object starts with its opening brace. -/
theorem head?_compact_object (fields : List (Bytes × Json)) :
    (object fields).compact.head? = some objectOpen := by
  cases fields <;> rfl

/-- The compact form of an object ends with its closing brace. -/
theorem suffix_compact_object (fields : List (Bytes × Json)) :
    [objectClose] <:+ (object fields).compact := by
  match fields with
  | [] => exact List.suffix_cons ..
  | (k, v) :: fs =>
    have hvalue := (suffix_writeFields fs [objectClose]).trans (suffix_write v _)
    exact (hvalue.trans (suffix_writeName k _)).trans (List.suffix_cons ..)

/-- A compact object that is cut off reads as nothing. -/
theorem parse?_eq_none_of_prefix {fields : List (Bytes × Json)}
    (hspelled : WellSpelled (object fields)) {front : Bytes}
    (hfront : front <+: (object fields).compact) (hne : front ≠ (object fields).compact) :
    parse? front = none := by
  obtain ⟨rest, hrest⟩ := hfront
  have hlength : 0 < rest.length := by
    rw [List.length_pos_iff]
    rintro rfl
    exact hne (by rw [← hrest, List.append_nil])
  -- What is cut off holds the last brace.
  have hclose : [objectClose] <:+ rest :=
    List.suffix_of_suffix_length_le (suffix_compact_object fields) ⟨front, hrest⟩ hlength
  have hparse : parse? (front ++ rest) = some (object fields) := by
    rw [hrest]
    exact parse?_compact hspelled
  have hfirst : (front ++ rest).head? = some objectOpen := by
    rw [hrest]
    exact head?_compact_object fields
  -- If the front were a document, nothing but blanks could follow.
  exact parse?_eq_none_of_cut hfirst hparse (hclose.subset List.mem_cons_self) (by decide)

end JavaOutline.Json

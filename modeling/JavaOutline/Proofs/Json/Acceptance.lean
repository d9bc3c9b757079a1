import JavaOutline.Proofs.Json.Closing

/-!
# What the reader accepts

The reader follows the grammar, and it accepts nothing else: whenever a document is read, its bytes
spell it.  The lemmas here are the converses of those in `JavaOutline.Proofs.Json.Grammar`: from a
state that waits for a part of the grammar, a run that succeeds has passed a spelling of this part
and has gone on from the state behind it.

## Key results

- `spells_of_run`: from a state that waits for a value, a run passes a spelling of the value that it
  delivers
- `parse?_eq_some_iff`: bytes read as a value exactly if they are a document of it
-/

namespace JavaOutline.Json

/-- A run over a first byte takes a step. -/
theorem exists_step_of_run {s : State} {b : UInt8} {rest : Bytes} {doc : Json}
    (h : run s (b :: rest) = some doc) : ∃ s', step s b = some s' ∧ run s' rest = some doc := by
  rw [run] at h
  cases hstep : step s b with
  | none =>
    rw [hstep] at h
    cases h
  | some s' =>
    rw [hstep] at h
    exact ⟨s', rfl, h⟩

/-! ## Tokens -/

/-- A run from within a string passes the rest of its body and the closing quote. -/
theorem string_of_run {isName : Bool} {phase : StringPhase} {read : Bytes} {stack : List Frame}
    {bytes : Bytes} {doc : Json} (h : run ⟨.string isName phase read, stack⟩ bytes = some doc) :
    ∃ body mid, phase.through? body = some .plain ∧ bytes = body ++ quoteMark :: mid ∧
      ∃ s, endString isName (read.reverse ++ body) stack = some s ∧ run s mid = some doc := by
  induction bytes generalizing phase read with
  | nil => cases h
  | cons b rest ih =>
    obtain ⟨s, hstep, hrest⟩ := exists_step_of_run h
    simp only [step] at hstep
    split at hstep
    -- The quote mark ends the string, unless it is escaped.
    · rename_i hquote
      obtain ⟨rfl, rfl⟩ : phase = .plain ∧ b = quoteMark := by simpa using hquote
      exact ⟨[], rest, rfl, rfl, s, by rwa [List.append_nil], hrest⟩
    · rename_i hquote
      -- Any other byte belongs to the body.
      obtain ⟨next, hnext, rfl⟩ := Option.map_eq_some_iff.1 hstep
      obtain ⟨body, mid, hbody, rfl, hend⟩ := ih hrest
      refine ⟨b :: body, mid, ?_, rfl, by simpa using hend⟩
      rw [StringPhase.through?, if_neg hquote, hnext, Option.bind_some, hbody]

/-- Behind a value stands a blank, a comma or a closing bracket. -/
theorem isBlank_or_mark_of_stepAfter {stack : List Frame} {b : UInt8} {s : State}
    (h : stepAfter stack b = some s) :
    isBlank b = true ∨ b = commaMark ∨ b = arrayClose ∨ b = objectClose := by
  unfold stepAfter at h
  repeat' split at h
  all_goals simp_all

/-- What goes on behind a complete value does not go on with a number. -/
theorem endsNumber_of_step_deliver {v : Json} {stack : List Frame} {b : UInt8} {s : State}
    (h : step (deliver v stack) b = some s) (rest : Bytes) : endsNumber (b :: rest) = true := by
  have hblank : ∀ b, isBlank b = true → endsNumber (b :: rest) = true :=
    forall_byte (by simp only [endsNumber]; decide +kernel)
  -- Behind a value only a blank or a mark is taken.
  have hmark : isBlank b = true ∨ b = commaMark ∨ b = arrayClose ∨ b = objectClose := by
    cases stack with
    -- At the top level it is a blank.
    | nil =>
      simp only [deliver, step] at h
      split at h
      · exact .inl ‹_›
      · cases h
    | cons frame outer =>
      have hafter : stepAfter (deliver v (frame :: outer)).stack b = some s := by
        cases frame <;> exact h
      exact isBlank_or_mark_of_stepAfter hafter
  rcases hmark with hb | rfl | rfl | rfl
  · exact hblank b hb
  all_goals rfl

/-- A run from within a number passes the rest of its digits and goes on as behind the value. -/
theorem number_of_run {phase : NumberPhase} {read : Bytes} {stack : List Frame} {bytes : Bytes}
    {doc : Json} (h : run ⟨.number phase read, stack⟩ bytes = some doc) :
    ∃ digits mid last, phase.through? digits = some last ∧ last.accepts = true ∧
      endsNumber mid = true ∧ bytes = digits ++ mid ∧
      run (deliver (.number (read.reverse ++ digits)) stack) mid = some doc := by
  induction bytes generalizing phase read with
  | nil =>
    have haccepts : phase.accepts = true := by
      cases stack with
      | nil =>
        rw [run, finish] at h
        simp_all
      | cons frame stack => cases h
    refine ⟨[], [], phase, rfl, haccepts, rfl, rfl, ?_⟩
    rw [List.append_nil, ← run_number_end haccepts read stack rfl, h]
  | cons b rest ih =>
    obtain ⟨s, hstep, hrest⟩ := exists_step_of_run h
    simp only [step] at hstep
    split at hstep
    · rename_i next hnext
      obtain rfl := Option.some.inj hstep
      obtain ⟨digits, mid, last, hlast, haccepts, hends, rfl, hrun⟩ := ih hrest
      refine ⟨b :: digits, mid, last, ?_, haccepts, hends, rfl, by simpa using hrun⟩
      rw [NumberPhase.through?, hnext, Option.bind_some, hlast]
    · split at hstep
      · rename_i haccepts
        -- The byte that ends the number is read again, behind the value.
        have hbehind : step (deliver (.number read.reverse) stack) b = some s := by
          rw [← hstep]
          cases stack with
          | nil => rfl
          | cons frame stack => cases frame <;> rfl
        have hends := endsNumber_of_step_deliver hbehind rest
        refine ⟨[], b :: rest, phase, rfl, haccepts, hends, rfl, ?_⟩
        rw [List.append_nil, ← run_number_end haccepts read stack hends, h]
      · cases hstep

/-- A run from within a word passes the rest of it. -/
theorem word_of_run {word : Bytes} {meaning : Json} {stack : List Frame} {bytes : Bytes}
    {doc : Json} (h : run ⟨.word word meaning, stack⟩ bytes = some doc) :
    ∃ mid, bytes = word ++ mid ∧ run (deliver meaning stack) mid = some doc := by
  induction bytes generalizing word with
  | nil => cases h
  | cons b rest ih =>
    obtain ⟨s, hstep, hrest⟩ := exists_step_of_run h
    simp only [step] at hstep
    repeat' split at hstep
    all_goals cases hstep
    -- The last letter ends the word, and any other one leaves the rest of it.
    · rename_i hb
      exact ⟨rest, by rw [eq_of_beq hb]; rfl, hrest⟩
    · rename_i hb
      obtain ⟨mid, rfl, hrun⟩ := ih hrest
      exact ⟨mid, by rw [eq_of_beq hb]; rfl, hrun⟩

/-- A run from behind the name of a field passes the colon. -/
theorem colon_of_run {stack : List Frame} {bytes : Bytes} {doc : Json}
    (h : run ⟨.colon, stack⟩ bytes = some doc) :
    ∃ blanks mid, areBlank blanks = true ∧ bytes = blanks ++ colonMark :: mid ∧
      run ⟨.value, stack⟩ mid = some doc := by
  induction bytes with
  | nil => cases h
  | cons b rest ih =>
    obtain ⟨s, hstep, hrest⟩ := exists_step_of_run h
    simp only [step] at hstep
    repeat' split at hstep
    all_goals cases hstep
    -- Blanks may stand in front of the colon.
    · rename_i hb
      obtain ⟨blanks, mid, hblanks, rfl, hrun⟩ := ih hrest
      exact ⟨b :: blanks, mid, by simp_all [areBlank], rfl, hrun⟩
    · rename_i hb
      exact ⟨[], rest, rfl, by rw [eq_of_beq hb]; rfl, hrest⟩

/-- What stands behind other bytes is shorter than all of them. -/
theorem length_lt_behind (b : UInt8) (front mark : Bytes) {rest : Bytes} :
    rest.length < (b :: (front ++ (mark ++ rest))).length := by
  simp only [List.length_cons, List.length_append]
  omega

/-! ## Openings -/

/-- What the first byte of a value may be, and where it leads. -/
theorem startValue_cases {stack : List Frame} {b : UInt8} {s : State}
    (h : startValue stack b = some s) :
    (b = quoteMark ∧ s = ⟨.string false .plain [], stack⟩) ∨
    (b = arrayOpen ∧ s = ⟨.firstElement, .array [] :: stack⟩) ∨
    (b = objectOpen ∧ s = ⟨.firstName, .object [] :: stack⟩) ∨
    (∃ word meaning, (∀ rest, Spells meaning (b :: (word ++ rest)) rest) ∧
      s = ⟨.word word meaning, stack⟩) ∨
    ∃ phase, NumberPhase.first? b = some phase ∧ s = ⟨.number phase [b], stack⟩ := by
  unfold startValue at h
  -- The first byte tells what the value is.
  split at h
  · rename_i hb
    exact .inl ⟨eq_of_beq hb, (Option.some.inj h).symm⟩
  split at h
  · rename_i hb
    exact .inr (.inl ⟨eq_of_beq hb, (Option.some.inj h).symm⟩)
  split at h
  · rename_i hb
    exact .inr (.inr (.inl ⟨eq_of_beq hb, (Option.some.inj h).symm⟩))
  split at h
  · rename_i hb
    -- The three words begin with different letters.
    obtain rfl := eq_of_beq hb
    exact .inr (.inr (.inr (.inl ⟨_, _, fun rest => .null, (Option.some.inj h).symm⟩)))
  split at h
  · rename_i hb
    obtain rfl := eq_of_beq hb
    exact .inr (.inr (.inr (.inl ⟨_, _, fun rest => .bool (b := true), (Option.some.inj h).symm⟩)))
  split at h
  · rename_i hb
    obtain rfl := eq_of_beq hb
    exact .inr (.inr (.inr (.inl ⟨_, _, fun rest => .bool (b := false), (Option.some.inj h).symm⟩)))
  refine .inr (.inr (.inr (.inr ?_)))
  -- What is left are numbers, with a sign or with a digit in front.
  unfold NumberPhase.first?
  split at h
  · rename_i hb
    exact ⟨.sign, if_pos hb, (Option.some.inj h).symm⟩
  · rename_i hb
    obtain ⟨phase, hphase, rfl⟩ := Option.map_eq_some_iff.1 h
    exact ⟨phase, by rw [if_neg hb, hphase], rfl⟩

/-- Behind an opening bracket stands the closing one or an element. -/
theorem firstElement_of_run {stack : List Frame} {bytes : Bytes} {doc : Json}
    (h : run ⟨.firstElement, stack⟩ bytes = some doc) :
    (∃ blanks mid, areBlank blanks = true ∧ bytes = blanks ++ arrayClose :: mid ∧
      run ⟨.after, stack⟩ (arrayClose :: mid) = some doc) ∨
      run ⟨.value, stack⟩ bytes = some doc := by
  induction bytes with
  | nil => cases h
  | cons b rest ih =>
    obtain ⟨s, hstep, hrest⟩ := exists_step_of_run h
    simp only [step] at hstep
    split at hstep
    · rename_i hb
      obtain rfl := Option.some.inj hstep
      -- A blank is passed over in both modes.
      rcases ih hrest with ⟨blanks, mid, hblanks, rfl, hrun⟩ | hrun
      · exact .inl ⟨b :: blanks, mid, by simp_all [areBlank], rfl, hrun⟩
      · exact .inr (by rwa [run_cons (step_value_blank hb stack)])
    split at hstep
    -- The array is closed at once.
    · rename_i hb
      obtain rfl := eq_of_beq hb
      exact .inl ⟨[], rest, rfl, rfl, (run_cons (s := ⟨.after, stack⟩) hstep rest).trans hrest⟩
    -- Any other byte begins a value.
    · rename_i hblank hb
      refine .inr ((run_cons ?_ rest).trans hrest)
      simp only [step, hblank, ↓reduceIte, hstep, Bool.false_eq_true]

/-- Behind an opening brace stands the closing one or a field. -/
theorem firstName_of_run {stack : List Frame} {bytes : Bytes} {doc : Json}
    (h : run ⟨.firstName, stack⟩ bytes = some doc) :
    (∃ blanks mid, areBlank blanks = true ∧ bytes = blanks ++ objectClose :: mid ∧
      run ⟨.after, stack⟩ (objectClose :: mid) = some doc) ∨
      run ⟨.name, stack⟩ bytes = some doc := by
  induction bytes with
  | nil => cases h
  | cons b rest ih =>
    obtain ⟨s, hstep, hrest⟩ := exists_step_of_run h
    simp only [step] at hstep
    split at hstep
    · rename_i hb
      obtain rfl := Option.some.inj hstep
      -- A blank is passed over in both modes.
      rcases ih hrest with ⟨blanks, mid, hblanks, rfl, hrun⟩ | hrun
      · exact .inl ⟨b :: blanks, mid, by simp_all [areBlank], rfl, hrun⟩
      · refine .inr ((run_cons ?_ rest).trans hrun)
        simp only [step, hb, ↓reduceIte]
    split at hstep
    -- The object is closed at once.
    · rename_i hb
      obtain rfl := eq_of_beq hb
      exact .inl ⟨[], rest, rfl, rfl, (run_cons (s := ⟨.after, stack⟩) hstep rest).trans hrest⟩
    -- Any other byte begins a name.
    · rename_i hblank hb
      refine .inr ((run_cons ?_ rest).trans hrest)
      simp only [step, hblank, ↓reduceIte, hstep, Bool.false_eq_true]

/-! ## Values -/

mutual

/-- A run from where a value must start passes a spelling of the value that it delivers. -/
theorem spells_of_run {bytes : Bytes} {stack : List Frame} {doc : Json}
    (h : run ⟨.value, stack⟩ bytes = some doc) :
    ∃ v mid, Spells v bytes mid ∧ mid.length < bytes.length ∧
      run (deliver v stack) mid = some doc := by
  match bytes, h with
  | [], h => cases h
  | b :: rest, h =>
    obtain ⟨s, hstep, hrest⟩ := exists_step_of_run h
    simp only [step] at hstep
    split at hstep
    · rename_i hb
      obtain rfl := Option.some.inj hstep
      obtain ⟨v, mid, hv, hlt, hrun⟩ := spells_of_run hrest
      exact ⟨v, mid, .blank hb hv, Nat.lt_succ_of_lt hlt, hrun⟩
    -- The first byte tells whether a string, an array, an object, a word or a number follows.
    · rcases startValue_cases hstep with ⟨rfl, rfl⟩ | ⟨rfl, rfl⟩ | ⟨rfl, rfl⟩ |
        ⟨word, meaning, hword, rfl⟩ | ⟨phase, hphase, rfl⟩
      · obtain ⟨body, mid, hbody, rfl, s, hend, hrun⟩ := string_of_run hrest
        obtain rfl := Option.some.inj hend
        exact ⟨.string body, mid, .string hbody, length_lt_behind _ body [_], hrun⟩
      · rcases firstElement_of_run hrest with ⟨blanks, mid, hblanks, rfl, hclose⟩ | helement
        · exact ⟨.array [], mid, .emptyArray blanks hblanks, length_lt_behind _ blanks [_], hclose⟩
        · obtain ⟨v, mid, hv, hlt, hrun⟩ := spells_of_run helement
          obtain ⟨vs, behind, hvs, hlt', hrun'⟩ := elements_of_run hrun
          have hshorter := Nat.lt_succ_of_lt (Nat.lt_trans hlt' hlt)
          exact ⟨.array (v :: vs), behind, .array hv hvs, hshorter, hrun'⟩
      · rcases firstName_of_run hrest with ⟨blanks, mid, hblanks, rfl, hclose⟩ | hfield
        · exact ⟨.object [], mid, .emptyObject blanks hblanks, length_lt_behind _ blanks [_],
            hclose⟩
        · obtain ⟨f, mid, hf, hlt, hrun⟩ := field_of_run hfield
          obtain ⟨fs, behind, hfs, hlt', hrun'⟩ := fields_of_run hrun
          have hshorter := Nat.lt_succ_of_lt (Nat.lt_trans hlt' hlt)
          exact ⟨.object (f :: fs), behind, .object hf hfs, hshorter, hrun'⟩
      · obtain ⟨mid, rfl, hrun⟩ := word_of_run hrest
        exact ⟨meaning, mid, hword mid, length_lt_behind b word [], hrun⟩
      · obtain ⟨digits, mid, last, hlast, haccepts, hends, rfl, hrun⟩ := number_of_run hrest
        have hnumber : isNumber (b :: digits) = true := by
          rw [isNumber, hphase, Option.bind_some, hlast]
          exact haccepts
        have hshorter : mid.length < (b :: (digits ++ mid)).length := length_lt_behind b digits []
        exact ⟨.number (b :: digits), mid, .number hnumber hends, hshorter, hrun⟩
termination_by bytes.length

/-- A run from behind an element passes the elements up to the closing bracket. -/
theorem elements_of_run {bytes : Bytes} {done : List Json} {stack : List Frame} {doc : Json}
    (h : run ⟨.after, .array done :: stack⟩ bytes = some doc) :
    ∃ vs mid, SpellsElements vs bytes mid ∧ mid.length < bytes.length ∧
      run (deliver (.array (done.reverse ++ vs)) stack) mid = some doc := by
  match bytes, h with
  | [], h => cases h
  | b :: rest, h =>
    obtain ⟨s, hstep, hrest⟩ := exists_step_of_run h
    simp only [step, stepAfter] at hstep
    repeat' split at hstep
    all_goals cases hstep
    · rename_i hb
      -- A blank is passed over.
      obtain ⟨vs, mid, hvs, hlt, hrun⟩ := elements_of_run hrest
      exact ⟨vs, mid, .blank hb hvs, Nat.lt_succ_of_lt hlt, hrun⟩
    · rename_i hb
      obtain rfl := eq_of_beq hb
      -- Behind a comma comes a value and then the rest of the array.
      obtain ⟨v, mid, hv, hlt, hrun⟩ := spells_of_run hrest
      obtain ⟨vs, behind, hvs, hlt', hrun'⟩ := elements_of_run hrun
      have hshorter := Nat.lt_succ_of_lt (Nat.lt_trans hlt' hlt)
      exact ⟨v :: vs, behind, .next hv hvs, hshorter, by simpa using hrun'⟩
    · rename_i hb
      obtain rfl := eq_of_beq hb
      -- The array is closed.
      exact ⟨[], rest, .close, Nat.lt_succ_self _, by rwa [List.append_nil]⟩
termination_by bytes.length

/-- A run from where the name of a field must stand passes the field. -/
theorem field_of_run {bytes : Bytes} {done : List (Bytes × Json)} {stack : List Frame}
    {doc : Json} (h : run ⟨.name, .object done :: stack⟩ bytes = some doc) :
    ∃ f mid, SpellsField f bytes mid ∧ mid.length < bytes.length ∧
      run ⟨.after, .object (f :: done) :: stack⟩ mid = some doc := by
  match bytes, h with
  | [], h => cases h
  | b :: rest, h =>
    obtain ⟨s, hstep, hrest⟩ := exists_step_of_run h
    simp only [step] at hstep
    repeat' split at hstep
    all_goals cases hstep
    · rename_i hb
      -- A blank is passed over.
      obtain ⟨f, mid, hf, hlt, hrun⟩ := field_of_run hrest
      exact ⟨f, mid, .blank hb hf, Nat.lt_succ_of_lt hlt, hrun⟩
    · rename_i hb
      obtain rfl := eq_of_beq hb
      -- A name comes with its colon and its value.
      obtain ⟨name, behind, hname, rfl, s, hend, hcolon⟩ := string_of_run hrest
      obtain rfl := Option.some.inj hend
      obtain ⟨blanks, value, hblanks, rfl, hvalue⟩ := colon_of_run hcolon
      obtain ⟨v, mid, hv, hlt, hrun⟩ := spells_of_run hvalue
      refine ⟨(name, v), mid, .name blanks hname hblanks hv, ?_, hrun⟩
      simp only [List.length_cons, List.length_append]
      omega
termination_by bytes.length

/-- A run from behind a field passes the fields up to the closing brace. -/
theorem fields_of_run {bytes : Bytes} {done : List (Bytes × Json)} {stack : List Frame}
    {doc : Json} (h : run ⟨.after, .object done :: stack⟩ bytes = some doc) :
    ∃ fs mid, SpellsFields fs bytes mid ∧ mid.length < bytes.length ∧
      run (deliver (.object (done.reverse ++ fs)) stack) mid = some doc := by
  match bytes, h with
  | [], h => cases h
  | b :: rest, h =>
    obtain ⟨s, hstep, hrest⟩ := exists_step_of_run h
    simp only [step, stepAfter] at hstep
    repeat' split at hstep
    all_goals cases hstep
    · rename_i hb
      -- A blank is passed over.
      obtain ⟨fs, mid, hfs, hlt, hrun⟩ := fields_of_run hrest
      exact ⟨fs, mid, .blank hb hfs, Nat.lt_succ_of_lt hlt, hrun⟩
    · rename_i hb
      obtain rfl := eq_of_beq hb
      -- Behind a comma comes a field and then the rest of the object.
      obtain ⟨f, mid, hf, hlt, hrun⟩ := field_of_run hrest
      obtain ⟨fs, behind, hfs, hlt', hrun'⟩ := fields_of_run hrun
      have hshorter := Nat.lt_succ_of_lt (Nat.lt_trans hlt' hlt)
      exact ⟨f :: fs, behind, .next hf hfs, hshorter, by simpa using hrun'⟩
    · rename_i hb
      obtain rfl := eq_of_beq hb
      -- The object is closed.
      exact ⟨[], rest, .close, Nat.lt_succ_self _, by rwa [List.append_nil]⟩
termination_by bytes.length

end

/-! ## Documents -/

mutual

/-- Only well-spelled values can be spelled. -/
theorem Spells.wellSpelled {v : Json} {bytes rest : Bytes} (h : Spells v bytes rest) :
    v.WellSpelled := by
  match h with
  | .null | .bool => trivial
  | .number hl _ => exact hl
  | .string hb => exact hb
  | .emptyArray _ _ | .emptyObject _ _ => trivial
  | .array hv hvs => exact ⟨hv.wellSpelled, hvs.wellSpelled⟩
  | .object (f := (k, v)) hf hfs =>
    have hfield := hf.wellSpelled
    exact ⟨hfield.1, hfield.2, hfs.wellSpelled⟩
  | .blank _ hv => exact hv.wellSpelled

/-- So are elements. -/
theorem SpellsElements.wellSpelled {vs : List Json} {bytes rest : Bytes}
    (h : SpellsElements vs bytes rest) : AllWellSpelled vs := by
  match h with
  | .close => trivial
  | .next hv hvs => exact ⟨hv.wellSpelled, hvs.wellSpelled⟩
  | .blank _ hvs => exact hvs.wellSpelled

/-- So is a field. -/
theorem SpellsField.wellSpelled {f : Bytes × Json} {bytes rest : Bytes}
    (h : SpellsField f bytes rest) : IsStringBody f.1 ∧ f.2.WellSpelled := by
  match h with
  | .name _ hk _ hv => exact ⟨hk, hv.wellSpelled⟩
  | .blank _ hf => exact hf.wellSpelled

/-- So are fields. -/
theorem SpellsFields.wellSpelled {fs : List (Bytes × Json)} {bytes rest : Bytes}
    (h : SpellsFields fs bytes rest) : FieldsWellSpelled fs := by
  match h with
  | .close => trivial
  | .next (f := (k, v)) hf hfs =>
    have hfield := hf.wellSpelled
    exact ⟨hfield.1, hfield.2, hfs.wellSpelled⟩
  | .blank _ hfs => exact hfs.wellSpelled

end

/-- Whether bytes are one document: they spell a value, and only blanks follow. -/
def IsDocument (v : Json) (bytes : Bytes) : Prop :=
  ∃ blanks, Spells v bytes blanks ∧ areBlank blanks = true

/-- The value of a document is well spelled. -/
theorem IsDocument.wellSpelled {v : Json} {bytes : Bytes} (h : IsDocument v bytes) :
    v.WellSpelled := by
  obtain ⟨blanks, hv, -⟩ := h
  exact hv.wellSpelled

/-- Bytes read as a value exactly if they are a document of it. -/
theorem parse?_eq_some_iff {bytes : Bytes} {v : Json} :
    parse? bytes = some v ↔ IsDocument v bytes := by
  constructor
  · intro h
    obtain ⟨w, blanks, hw, -, hrun⟩ := spells_of_run h
    -- Behind the value there are blanks only.
    rw [deliver, run_done] at hrun
    split at hrun
    · rename_i hblank
      obtain rfl := Option.some.inj hrun
      exact ⟨blanks, hw, hblank⟩
    · cases hrun
  · rintro ⟨blanks, hv, hblank⟩
    exact parse?_of_spells hv hblank

end JavaOutline.Json

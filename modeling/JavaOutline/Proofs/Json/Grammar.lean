import JavaOutline.Proofs.Json.Spelling

/-!
# The grammar of documents

`Spells v bytes rest` says that `bytes` spell the value `v` and go on with `rest`.  Blanks may stand
in front of every token, and a number is followed by a byte that cannot continue it.  The relation
knows nothing of states and stacks; the reader is shown to follow it.

Each part of the grammar leaves the reader in a state that depends on the value alone: behind `v`
the reader is in `deliver v stack`, whatever the blanks were and whatever is still open.

## Key results

- `run_spells`: from a state that waits for a value, a spelling of `v` delivers `v`
- `parse?_of_spells`: a spelling of `v` followed by blanks reads as `v`
-/

namespace JavaOutline.Json

/-! ## Tokens -/

/-- Whether no number goes on with what follows it. -/
def endsNumber : Bytes → Bool
  | [] => true
  | b :: _ => !(isDigit b || b == 0x2e || b == 0x65 || b == 0x45 || b == 0x2b || b == 0x2d)

/-- The phase behind more bytes of a number. -/
def NumberPhase.through? : NumberPhase → Bytes → Option NumberPhase
  | phase, [] => some phase
  | phase, b :: rest => (phase.next? b).bind fun next => next.through? rest

/-- The phase behind the first byte of a number. -/
def NumberPhase.first? (b : UInt8) : Option NumberPhase :=
  if b == 0x2d then some .sign else start? b

/-- Whether bytes are a number literal. -/
def isNumber : Bytes → Bool
  | [] => false
  | b :: rest => ((NumberPhase.first? b).bind fun phase => phase.through? rest).any (·.accepts)

/-- Whether all bytes are blanks. -/
def areBlank (bytes : Bytes) : Bool :=
  bytes.all isBlank

/-! ## Values -/

mutual

/-- A spelling of a value, in front of what follows it. -/
inductive Spells : Json → Bytes → Bytes → Prop
  | null {rest : Bytes} : Spells .null (nullWord ++ rest) rest
  | bool {b : Bool} {rest : Bytes} : Spells (.bool b) (boolWord b ++ rest) rest
  | number {literal rest : Bytes} (hl : isNumber literal) (hr : endsNumber rest) :
    Spells (.number literal) (literal ++ rest) rest
  | string {body rest : Bytes} (hb : IsStringBody body) :
    Spells (.string body) (writeString body rest) rest
  | emptyArray (blanks : Bytes) {rest : Bytes} (hb : areBlank blanks) :
    Spells (.array []) (arrayOpen :: (blanks ++ arrayClose :: rest)) rest
  | array {v : Json} {vs : List Json} {bytes mid rest : Bytes} (hv : Spells v bytes mid)
    (hvs : SpellsElements vs mid rest) : Spells (.array (v :: vs)) (arrayOpen :: bytes) rest
  | emptyObject (blanks : Bytes) {rest : Bytes} (hb : areBlank blanks) :
    Spells (.object []) (objectOpen :: (blanks ++ objectClose :: rest)) rest
  | object {f : Bytes × Json} {fs : List (Bytes × Json)} {bytes mid rest : Bytes}
    (hf : SpellsField f bytes mid) (hfs : SpellsFields fs mid rest) :
    Spells (.object (f :: fs)) (objectOpen :: bytes) rest
  | blank {v : Json} {b : UInt8} {bytes rest : Bytes} (hb : isBlank b) (hv : Spells v bytes rest) :
    Spells v (b :: bytes) rest

/-- The elements behind an element of an array, each behind a comma, up to the closing bracket. -/
inductive SpellsElements : List Json → Bytes → Bytes → Prop
  | close {rest : Bytes} : SpellsElements [] (arrayClose :: rest) rest
  | next {v : Json} {vs : List Json} {bytes mid rest : Bytes} (hv : Spells v bytes mid)
    (hvs : SpellsElements vs mid rest) : SpellsElements (v :: vs) (commaMark :: bytes) rest
  | blank {vs : List Json} {b : UInt8} {bytes rest : Bytes} (hb : isBlank b)
    (hvs : SpellsElements vs bytes rest) : SpellsElements vs (b :: bytes) rest

/-- A field of an object: its name, a colon and its value. -/
inductive SpellsField : Bytes × Json → Bytes → Bytes → Prop
  | name {k bytes rest : Bytes} {v : Json} (blanks : Bytes) (hk : IsStringBody k)
    (hb : areBlank blanks) (hv : Spells v bytes rest) :
    SpellsField (k, v) (writeString k (blanks ++ colonMark :: bytes)) rest
  | blank {f : Bytes × Json} {b : UInt8} {bytes rest : Bytes} (hb : isBlank b)
    (hf : SpellsField f bytes rest) : SpellsField f (b :: bytes) rest

/-- The fields behind a field of an object, each behind a comma, up to the closing brace. -/
inductive SpellsFields : List (Bytes × Json) → Bytes → Bytes → Prop
  | close {rest : Bytes} : SpellsFields [] (objectClose :: rest) rest
  | next {f : Bytes × Json} {fs : List (Bytes × Json)} {bytes mid rest : Bytes}
    (hf : SpellsField f bytes mid) (hfs : SpellsFields fs mid rest) :
    SpellsFields (f :: fs) (commaMark :: bytes) rest
  | blank {fs : List (Bytes × Json)} {b : UInt8} {bytes rest : Bytes} (hb : isBlank b)
    (hfs : SpellsFields fs bytes rest) : SpellsFields fs (b :: bytes) rest

end

/-! ## The reader inside a token -/

/-- One byte is read by one step. -/
theorem run_cons {s s' : State} {b : UInt8} (h : step s b = some s') (rest : Bytes) :
    run s (b :: rest) = run s' rest := by
  rw [run, h]

/-- Inside a string the reader collects the bytes of its body and then the closing quote. -/
theorem run_string {isName : Bool} {phase : StringPhase} {body : Bytes}
    (h : phase.through? body = some .plain) (read : Bytes) (stack : List Frame) (rest : Bytes) :
    run ⟨.string isName phase read, stack⟩ (body ++ quoteMark :: rest) =
      (endString isName (read.reverse ++ body) stack).bind (run · rest) := by
  -- The bytes that were read so far are kept in reverse; the induction has to leave them open.
  induction body generalizing phase read with
  | nil =>
    obtain rfl : phase = .plain := by simpa [StringPhase.through?] using h
    rw [List.nil_append, List.append_nil, run, step]
    simp only [beq_self_eq_true, Bool.and_self, ↓reduceIte]
    cases endString isName read.reverse stack <;> rfl
  | cons b body ih =>
    rw [StringPhase.through?] at h
    split at h
    · cases h
    · rename_i hquote
      cases hnext : phase.next? b with
      | none =>
        rw [hnext] at h
        cases h
      | some next =>
        rw [hnext, Option.bind_some] at h
        have hstep : step ⟨.string isName phase read, stack⟩ b =
            some ⟨.string isName next (b :: read), stack⟩ := by
          simp only [step, hquote, hnext, Option.map_some, Bool.false_eq_true, ↓reduceIte]
        rw [List.cons_append, run_cons hstep, ih h]
        simp

/-- A byte that ends numbers continues none. -/
theorem NumberPhase.next?_eq_none (phase : NumberPhase) {b : UInt8} {rest : Bytes}
    (h : endsNumber (b :: rest) = true) : phase.next? b = none := by
  simp only [endsNumber, Bool.not_eq_true', Bool.or_eq_false_iff, beq_eq_false_iff_ne] at h
  obtain ⟨⟨⟨⟨⟨hdigit, hpoint⟩, he⟩, hE⟩, hplus⟩, hminus⟩ := h
  have hzero : b ≠ 0x30 := by rintro rfl; exact absurd hdigit (by decide)
  cases phase <;> simp [next?, start?, hdigit, hpoint, he, hE, hplus, hminus, hzero]

/-- Behind a complete number the reader goes on as behind the value. -/
theorem run_number_end {phase : NumberPhase} (hp : phase.accepts = true) (read : Bytes)
    (stack : List Frame) {rest : Bytes} (hr : endsNumber rest = true) :
    run ⟨.number phase read, stack⟩ rest = run (deliver (.number read.reverse) stack) rest := by
  -- A number ends without a mark of its own: the reader sees this at the end of the input, or at a
  -- byte that continues no number and is then read again behind the value.
  cases rest with
  | nil =>
    rw [run, run]
    cases stack with
    | nil => simp [finish, deliver, hp]
    | cons frame stack => cases frame <;> simp [finish, deliver]
  | cons b rest =>
    have hstep : step ⟨.number phase read, stack⟩ b =
        step (deliver (.number read.reverse) stack) b := by
      rw [step]
      simp only [phase.next?_eq_none hr, hp, ↓reduceIte]
      cases stack with
      | nil => rfl
      | cons frame stack => cases frame <;> rfl
    rw [run, run, hstep]

/-- Inside a number the reader collects its bytes and then goes on as behind the value. -/
theorem run_number {phase last : NumberPhase} {digits : Bytes}
    (h : phase.through? digits = some last) (hl : last.accepts = true) (read : Bytes)
    (stack : List Frame) {rest : Bytes} (hr : endsNumber rest = true) :
    run ⟨.number phase read, stack⟩ (digits ++ rest) =
      run (deliver (.number (read.reverse ++ digits)) stack) rest := by
  induction digits generalizing phase read with
  | nil =>
    obtain rfl : phase = last := by simpa [NumberPhase.through?] using h
    simpa using run_number_end hl read stack hr
  | cons b digits ih =>
    rw [NumberPhase.through?] at h
    cases hnext : phase.next? b with
    -- The digits are the whole number, so each of them is taken.
    | none => rw [hnext] at h; exact nomatch h
    | some next =>
      rw [hnext, Option.bind_some] at h
      have hstep : step ⟨.number phase read, stack⟩ b =
          some ⟨.number next (b :: read), stack⟩ := by
        simp only [step, hnext]
      rw [List.cons_append, run_cons hstep, ih h]
      simp

/-- Blanks leave a state alone that skips them. -/
theorem run_blanks {s : State} (hs : ∀ b, isBlank b = true → step s b = some s) {blanks : Bytes}
    (hb : areBlank blanks = true) (rest : Bytes) : run s (blanks ++ rest) = run s rest := by
  induction blanks with
  | nil => rfl
  | cons b blanks ih =>
    rw [areBlank, List.all_cons, Bool.and_eq_true] at hb
    rw [List.cons_append, run_cons (hs b hb.1), ih hb.2]

/-! ## The reader over values -/

/-- A word delivers its meaning. -/
theorem run_word {word : Bytes} (hw : word ≠ []) (meaning : Json) (stack : List Frame)
    (rest : Bytes) :
    run ⟨.word word meaning, stack⟩ (word ++ rest) = run (deliver meaning stack) rest := by
  induction word with
  | nil => exact absurd rfl hw
  | cons b word ih =>
    -- The last letter delivers the value.
    cases word with
    | nil => exact run_cons (by simp [step]) rest
    | cons c word =>
      have hstep : step ⟨.word (b :: c :: word) meaning, stack⟩ b =
          some ⟨.word (c :: word) meaning, stack⟩ := by
        simp [step]
      rw [List.cons_append, run_cons hstep]
      exact ih (List.cons_ne_nil _ _)

/-- Only numbers start with a byte that starts numbers. -/
theorem step_value_number {b : UInt8} {phase : NumberPhase}
    (h : NumberPhase.first? b = some phase) (stack : List Frame) :
    step ⟨.value, stack⟩ b = some ⟨.number phase [b], stack⟩ := by
  -- A first byte of a number starts none of the other values.
  have hother : ∀ b, (NumberPhase.first? b).isSome = true → (isBlank b || b == quoteMark ||
      b == arrayOpen || b == objectOpen || b == 0x6e || b == 0x74 || b == 0x66) = false :=
    forall_byte (by decide +kernel)
  have hb := hother b (by rw [h]; rfl)
  simp only [Bool.or_eq_false_iff] at hb
  obtain ⟨⟨⟨⟨⟨⟨hblank, hquote⟩, harray⟩, hobject⟩, hn⟩, ht⟩, hf⟩ := hb
  simp only [step, startValue, hblank, hquote, harray, hobject, hn, ht, hf, Bool.false_eq_true,
    ↓reduceIte]
  rw [NumberPhase.first?] at h
  split at h
  · obtain rfl := Option.some.inj h
    simp_all
  · simp_all

/-- A number delivers itself. -/
theorem run_number_value {literal rest : Bytes} (hl : isNumber literal = true)
    (hr : endsNumber rest = true) (stack : List Frame) :
    run ⟨.value, stack⟩ (literal ++ rest) = run (deliver (.number literal) stack) rest := by
  cases literal with
  | nil => exact nomatch hl
  | cons b digits =>
    simp only [isNumber, Option.any_eq_true] at hl
    obtain ⟨last, hlast, haccepts⟩ := hl
    cases hfirst : NumberPhase.first? b with
    -- A number begins with a sign or a digit.
    | none => rw [hfirst] at hlast; exact nomatch hlast
    | some phase =>
      rw [hfirst, Option.bind_some] at hlast
      have hstep : step ⟨.value, stack⟩ b = some ⟨.number phase [b], stack⟩ :=
        step_value_number hfirst stack
      rw [List.cons_append, run_cons hstep, run_number hlast haccepts _ _ hr]
      rfl

/-- A state that waits for a value skips blanks. -/
theorem step_value_blank {b : UInt8} (hb : isBlank b = true) (stack : List Frame) :
    step ⟨.value, stack⟩ b = some ⟨.value, stack⟩ := by
  simp only [step, hb, ↓reduceIte]

/-- Behind an opening bracket, a byte that neither is blank nor closes starts a value. -/
theorem step_firstElement {b : UInt8} (hb : isBlank b = false) (hc : b ≠ arrayClose)
    (stack : List Frame) : step ⟨.firstElement, stack⟩ b = step ⟨.value, stack⟩ b := by
  simp only [step, hb, beq_eq_false_iff_ne.2 hc, Bool.false_eq_true, ↓reduceIte]

/-- The first element of an array is read as a value anywhere else. -/
theorem run_firstElement {v : Json} {bytes rest : Bytes} (h : Spells v bytes rest)
    (stack : List Frame) : run ⟨.firstElement, stack⟩ bytes = run ⟨.value, stack⟩ bytes := by
  -- Where the two states differ is the closing bracket, and no spelling of a value starts with one.
  match h with
  | .null | .bool (b := true) | .bool (b := false) | .string _ | .emptyArray _ _ | .array _ _
  | .emptyObject _ _ | .object _ _ => rfl
  | @Spells.number [] _ hl _ => exact nomatch hl
  | @Spells.number (b :: digits) _ hl _ =>
    have hfirst : ∀ b, (NumberPhase.first? b).isSome = true →
        isBlank b = false ∧ b ≠ arrayClose := forall_byte (by decide +kernel)
    have hb : (NumberPhase.first? b).isSome = true := by
      cases hf : NumberPhase.first? b with
      | none => simp [isNumber, hf] at hl
      | some phase => rfl
    obtain ⟨hblank, hclose⟩ := hfirst b hb
    rw [List.cons_append, run, run, step_firstElement hblank hclose]
  | .blank (b := b) hb hv =>
    have hstep : step ⟨.firstElement, stack⟩ b = some ⟨.firstElement, stack⟩ := by
      simp only [step, hb, ↓reduceIte]
    rw [run_cons hstep, run_cons (step_value_blank hb stack), run_firstElement hv stack]

/-- The first field of an object is read as a field behind a comma. -/
theorem run_firstName {f : Bytes × Json} {bytes rest : Bytes} (h : SpellsField f bytes rest)
    (stack : List Frame) : run ⟨.firstName, stack⟩ bytes = run ⟨.name, stack⟩ bytes := by
  match h with
  | .name _ _ _ _ => rfl
  | .blank (b := b) hb hf =>
    have hfirst : step ⟨.firstName, stack⟩ b = some ⟨.firstName, stack⟩ := by
      simp only [step, hb, ↓reduceIte]
    have hname : step ⟨.name, stack⟩ b = some ⟨.name, stack⟩ := by
      simp only [step, hb, ↓reduceIte]
    rw [run_cons hfirst, run_cons hname, run_firstName hf stack]

mutual

/-- A spelling of a value delivers this value. -/
theorem run_spells {v : Json} {bytes rest : Bytes} (h : Spells v bytes rest)
    (stack : List Frame) : run ⟨.value, stack⟩ bytes = run (deliver v stack) rest := by
  match h with
  | .null => exact (run_cons (by rfl) _).trans (run_word (by decide) .null stack rest)
  | .bool (b := true) =>
    exact (run_cons (by rfl) _).trans (run_word (by decide) (.bool true) stack rest)
  | .bool (b := false) =>
    exact (run_cons (by rfl) _).trans (run_word (by decide) (.bool false) stack rest)
  | .number hl hr => exact run_number_value hl hr stack
  | .string hb => exact (run_cons (by rfl) _).trans (run_string hb [] stack rest)
  | .emptyArray _ hb =>
    refine (run_cons (by rfl) _).trans ((run_blanks ?_ hb _).trans (run_cons (by rfl) _))
    intro b hblank
    simp only [step, hblank, ↓reduceIte]
  | .array hv hvs =>
    -- The bracket opens a frame, the first element joins it, and the others complete it.
    calc run ⟨.value, stack⟩ (arrayOpen :: _)
        = run ⟨.firstElement, .array [] :: stack⟩ _ := run_cons (by rfl) _
      _ = run ⟨.value, .array [] :: stack⟩ _ := run_firstElement hv _
      _ = run ⟨.after, .array [_] :: stack⟩ _ := run_spells hv _
      _ = run (deliver _ stack) rest := run_elements hvs _ stack
  | .emptyObject _ hb =>
    refine (run_cons (by rfl) _).trans ((run_blanks ?_ hb _).trans (run_cons (by rfl) _))
    intro b hblank
    simp only [step, hblank, ↓reduceIte]
  | .object hf hfs =>
    calc run ⟨.value, stack⟩ (objectOpen :: _)
        = run ⟨.firstName, .object [] :: stack⟩ _ := run_cons (by rfl) _
      _ = run ⟨.name, .object [] :: stack⟩ _ := run_firstName hf _
      _ = run ⟨.after, .object [_] :: stack⟩ _ := run_field hf [] stack
      _ = run (deliver _ stack) rest := run_fields hfs _ stack
  | .blank hb hv => exact (run_cons (step_value_blank hb stack) _).trans (run_spells hv stack)

/-- The elements behind others complete the array. -/
theorem run_elements {vs : List Json} {bytes rest : Bytes} (h : SpellsElements vs bytes rest)
    (done : List Json) (stack : List Frame) :
    run ⟨.after, .array done :: stack⟩ bytes =
      run (deliver (.array (done.reverse ++ vs)) stack) rest := by
  -- `done` holds the elements so far, the last one first.
  match h with
  | .close =>
    rw [List.append_nil]
    exact run_cons (by rfl) _
  | .next hv hvs =>
    rw [run_cons (by rfl : step _ _ = some ⟨.value, .array done :: stack⟩), run_spells hv, deliver,
      run_elements hvs, List.reverse_cons, List.append_assoc, List.singleton_append]
  | .blank hb hvs =>
    rw [run_cons (by simp only [step, stepAfter, hb, ↓reduceIte]; rfl), run_elements hvs]

/-- A field joins the object that is open. -/
theorem run_field {f : Bytes × Json} {bytes rest : Bytes} (h : SpellsField f bytes rest)
    (done : List (Bytes × Json)) (stack : List Frame) :
    run ⟨.name, .object done :: stack⟩ bytes = run ⟨.after, .object (f :: done) :: stack⟩ rest := by
  match h with
  | .name (k := k) _ hk hb hv =>
    rw [writeString, run_cons (by rfl), run_string hk, endString]
    simp only [↓reduceIte, List.reverse_nil, List.nil_append, Option.bind_some]
    -- Behind the name come blanks, the colon and the value.
    rw [run_blanks _ hb, run_cons (by rfl : step _ _ = some ⟨.value, .field done k :: stack⟩),
      run_spells hv, deliver]
    intro b hblank
    simp only [step, hblank, ↓reduceIte]
  | .blank hb hf =>
    rw [run_cons (by simp only [step, hb, ↓reduceIte]; rfl), run_field hf]

/-- The fields behind others complete the object. -/
theorem run_fields {fs : List (Bytes × Json)} {bytes rest : Bytes} (h : SpellsFields fs bytes rest)
    (done : List (Bytes × Json)) (stack : List Frame) :
    run ⟨.after, .object done :: stack⟩ bytes =
      run (deliver (.object (done.reverse ++ fs)) stack) rest := by
  match h with
  | .close =>
    rw [List.append_nil]
    exact run_cons (by rfl) _
  | .next hf hfs =>
    -- A comma leads to the next field.
    rw [run_cons (by rfl : step _ _ = some ⟨.name, .object done :: stack⟩), run_field hf,
      run_fields hfs, List.reverse_cons, List.append_assoc, List.singleton_append]
  | .blank hb hfs =>
    rw [run_cons (by simp only [step, stepAfter, hb, ↓reduceIte]; rfl), run_fields hfs]

end

/-- A spelling of a value, followed by blanks, reads as the value. -/
theorem parse?_of_spells {v : Json} {bytes blanks : Bytes} (h : Spells v bytes blanks)
    (hb : areBlank blanks = true) : parse? bytes = some v := by
  -- Behind the outermost value only blanks are left.
  have hdone : ∀ b, isBlank b = true → step ⟨.done v, []⟩ b = some ⟨.done v, []⟩ := by
    intro b hblank
    simp only [step, hblank, ↓reduceIte]
  have hend := run_blanks hdone hb []
  rw [List.append_nil] at hend
  rw [parse?, State.initial, run_spells h, deliver, hend]
  rfl

end JavaOutline.Json

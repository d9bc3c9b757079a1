import JavaOutline.Proofs.Json.Utf8
import Mathlib.Data.List.Induction

/-!
# Whole numbers as literals

A whole number has one literal of digits only: its decimal digits.  The grammar allows no zero in
front of other digits, so two literals of digits never have the same value.

## Key results

- `natural?_decimal`: the decimal digits of a number read as this number
- `natural?_eq_some_iff`: no other literal does
- `isNumber_decimal`: they are a literal
-/

namespace JavaOutline.Json

/-! ## From numbers to digits -/

/-- The digit of a number below ten. -/
theorem decimal_of_lt {n : Nat} (h : n < 10) :
    ∃ d, decimal n = [d] ∧ isDigit d = true ∧ digitValue d = n := by
  have hdigit : ∀ n < 10, decimal n = [0x30 + .ofNat n] ∧ isDigit (0x30 + .ofNat n) = true ∧
      digitValue (0x30 + .ofNat n) = n := by
    decide
  exact ⟨_, hdigit n h⟩

/-- The last digit stands behind the digits of the tens. -/
theorem decimal_of_ge {n : Nat} (h : 10 ≤ n) :
    decimal n = decimal (n / 10) ++ decimal (n % 10) := by
  rw [decimal, Nat.repr_eq_repr_append_repr h, utf8_eq_flatMap, String.toList_append,
    List.flatMap_append, ← utf8_eq_flatMap, ← utf8_eq_flatMap]
  rfl

/-- One more digit behind others. -/
theorem digitsValue_concat (digits : Bytes) (d : UInt8) :
    digitsValue (digits ++ [d]) = 10 * digitsValue digits + digitValue d := by
  rw [digitsValue, List.foldl_append]
  rfl

/-- A literal of digits reads as their value. -/
theorem natural?_of_all {digits : Bytes} (h : digits.all isDigit = true) :
    natural? digits = some (digitsValue digits) := by
  rw [natural?, if_pos h]

/-- The decimal digits of a number are digits with this number as value. -/
theorem digits_decimal (n : Nat) :
    (decimal n).all isDigit = true ∧ digitsValue (decimal n) = n := by
  induction n using Nat.strongRecOn with
  | ind n ih =>
    rcases Nat.lt_or_ge n 10 with hlt | hge
    -- A single digit is written as itself.
    · obtain ⟨d, hd, hdigit, hvalue⟩ := decimal_of_lt hlt
      rw [hd]
      exact ⟨by simpa using hdigit, by simpa [digitsValue] using hvalue⟩
    -- The last digit is the remainder, and the others write the quotient.
    · obtain ⟨hdigits, hvalue⟩ := ih (n / 10) (by omega)
      obtain ⟨d, hd, hdigit, hlast⟩ := decimal_of_lt (Nat.mod_lt n (by decide : 0 < 10))
      rw [decimal_of_ge hge, hd, digitsValue_concat, hvalue, hlast]
      exact ⟨by simp [hdigits, hdigit], by omega⟩

/-- The decimal digits of a number read as this number. -/
theorem natural?_decimal (n : Nat) : natural? (decimal n) = some n := by
  obtain ⟨hdigits, hvalue⟩ := digits_decimal n
  rw [natural?_of_all hdigits, hvalue]

/-- The decimal digits of a number do not start with zero, unless it is zero. -/
theorem decimal_eq_cons {n : Nat} (h : 0 < n) :
    ∃ d rest, decimal n = d :: rest ∧ d ≠ 0x30 := by
  induction n using Nat.strongRecOn with
  | ind n ih =>
    rcases Nat.lt_or_ge n 10 with hlt | hge
    · obtain ⟨d, hd, -, hvalue⟩ := decimal_of_lt hlt
      refine ⟨d, [], hd, ?_⟩
      rintro rfl
      exact Nat.ne_of_gt h hvalue.symm
    · obtain ⟨d, rest, hd, hne⟩ := ih (n / 10) (by omega) (by omega)
      exact ⟨d, rest ++ decimal (n % 10), by rw [decimal_of_ge hge, hd, List.cons_append], hne⟩

/-- A number goes on with any digits behind its first one, if that is not zero. -/
theorem through?_integer {digits : Bytes} (h : digits.all isDigit = true) :
    NumberPhase.integer.through? digits = some .integer := by
  induction digits with
  | nil => rfl
  | cons d digits ih =>
    rw [List.all_cons, Bool.and_eq_true] at h
    have hnext : NumberPhase.integer.next? d = some .integer := if_pos h.1
    rw [NumberPhase.through?, hnext, Option.bind_some, ih h.2]

/-- The decimal digits of a number are a literal. -/
theorem isNumber_decimal (n : Nat) : isNumber (decimal n) = true := by
  rcases Nat.eq_zero_or_pos n with rfl | hpos
  · decide
  · obtain ⟨d, rest, hd, hne⟩ := decimal_eq_cons hpos
    obtain ⟨hdigits, -⟩ := digits_decimal n
    rw [hd, List.all_cons, Bool.and_eq_true] at hdigits
    have hfirst : ∀ d, isDigit d = true → d ≠ 0x30 → NumberPhase.first? d = some .integer :=
      forall_byte (by decide +kernel)
    rw [hd, isNumber, hfirst d hdigits.1 hne, Option.bind_some, through?_integer hdigits.2]
    rfl

/-! ## From digits to numbers -/

/-- Digits that do not start with a needless zero are the decimal digits of their value. -/
theorem decimal_digitsValue {digits : Bytes} (h : digits.all isDigit = true) (hne : digits ≠ [])
    (hzero : digits.head? = some 0x30 → digits = [0x30]) :
    decimal (digitsValue digits) = digits := by
  -- The last digit of a number is found first, so the induction is on the digits from behind.
  induction digits using List.reverseRecOn with
  | nil => exact absurd rfl hne
  | append_singleton front d ih =>
    rw [List.all_append, Bool.and_eq_true, List.all_cons, Bool.and_eq_true] at h
    obtain ⟨hfront, hd, -⟩ := h
    have hlast : ∀ d, isDigit d = true → decimal (digitValue d) = [d] ∧ digitValue d < 10 :=
      forall_byte (by decide +kernel)
    obtain ⟨hdecimal, hlt⟩ := hlast d hd
    rw [digitsValue_concat]
    cases front with
    | nil => simpa [digitsValue] using hdecimal
    | cons c cs =>
      have hhead : c ≠ 0x30 := by
        rintro rfl
        simpa using congrArg List.length (hzero rfl)
      have hrec := ih hfront (List.cons_ne_nil c cs) fun hc => absurd (Option.some.inj hc) hhead
      have hpos : digitsValue (c :: cs) ≠ 0 := by
        intro hvalue
        rw [hvalue, show decimal 0 = [0x30] from by decide] at hrec
        exact hhead (List.cons.inj hrec).1.symm
      have htens : (10 * digitsValue (c :: cs) + digitValue d) / 10 = digitsValue (c :: cs) := by
        omega
      have hones : (10 * digitsValue (c :: cs) + digitValue d) % 10 = digitValue d := by omega
      rw [decimal_of_ge (by omega), htens, hones, hrec, hdecimal]

/-- A number literal of digits that starts with zero is zero. -/
theorem eq_zero_of_isNumber {literal : Bytes} (h : isNumber literal = true)
    (hdigits : literal.all isDigit = true) (hzero : literal.head? = some 0x30) :
    literal = [0x30] := by
  -- A number goes on behind a leading zero only with a point or an exponent.
  have hnext : ∀ c, isDigit c = true → NumberPhase.zero.next? c = none :=
    forall_byte (by decide +kernel)
  match literal, hzero with
  | [_], rfl => rfl
  | _ :: c :: rest, rfl =>
    simp only [List.all_cons, Bool.and_eq_true] at hdigits
    have hfirst : NumberPhase.first? 0x30 = some .zero := rfl
    rw [isNumber, hfirst, Option.bind_some, NumberPhase.through?, hnext c hdigits.2.1] at h
    cases h

/-- The only number literal that reads as a whole number is its decimal digits. -/
theorem natural?_eq_some_iff {literal : Bytes} (h : isNumber literal = true) {n : Nat} :
    natural? literal = some n ↔ literal = decimal n := by
  constructor
  · intro hn
    unfold natural? at hn
    split at hn
    · rename_i hdigits
      obtain rfl := Option.some.inj hn
      -- A number of digits only has no leading zero, so it is the one way to write its value.
      have hne : literal ≠ [] := by
        rintro rfl
        cases h
      exact (decimal_digitsValue hdigits hne (eq_zero_of_isNumber h hdigits)).symm
    · cases hn
  · rintro rfl
    exact natural?_decimal n

end JavaOutline.Json

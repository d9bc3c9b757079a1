import JavaOutline.Number
import JavaOutline.Toml.Basic
import JavaOutline.Toml.Quoted

/-! # Values without quotes in TOML

A number, a truth value, a date or a time is a word: a run of letters, digits and `+ - _ : .`.
`Value.ofWord?` reads a word as a whole, so that nothing may be left of it.
-/

namespace JavaOutline.Toml

/-! ## Digits -/

/-- A decimal digit. -/
def isDigit (c : Char) : Bool :=
  '0' ≤ c && c ≤ '9'

/-- Whether characters are digits, with single underscores between them at most. -/
def isGrouped (base : Nat) : List Char → Bool
  | [] => false
  | [c] => (digitValue? base c).isSome
  | c :: '_' :: rest => (digitValue? base c).isSome && isGrouped base rest
  | c :: rest => (digitValue? base c).isSome && isGrouped base rest

/-- Whether characters are grouped digits of a decimal integer, which starts with zero only if it
    is zero. -/
def isDecimal (s : List Char) : Bool :=
  isGrouped 10 s && (s.length == 1 || s.head? != some '0')

/-- The number of grouped digits. -/
def groupedValue (base : Nat) (s : List Char) : Nat :=
  (number? base (s.filter (· != '_'))).getD 0

/-- Whether a sign makes negative, and what the sign stands before. -/
def unsigned : List Char → Bool × List Char
  | '+' :: s => (false, s)
  | '-' :: s => (true, s)
  | s => (false, s)

/-! ## Integers -/

/-- An integer of 64 bits with a sign. -/
def inRange (n : Int) : Bool :=
  -(Number.signedBound : Int) ≤ n && n < Number.signedBound

/-- The integer that a word spells.  Only decimal integers have a sign. -/
def integer? (word : List Char) : Option Int :=
  let based (base : Nat) (digits : List Char) : Option Int :=
    if isGrouped base digits then some (groupedValue base digits) else none
  let value? :=
    match word with
    | '0' :: 'x' :: digits => based 16 digits
    | '0' :: 'o' :: digits => based 8 digits
    | '0' :: 'b' :: digits => based 2 digits
    | _ =>
      let (negative, digits) := unsigned word
      if isDecimal digits then
        some (if negative then -(groupedValue 10 digits : Int) else groupedValue 10 digits)
      else none
  value?.filter inRange

/-! ## Numbers with a fraction or an exponent -/

/-- A decimal number cut into parts. -/
structure Decimal where
  negative : Bool
  integer : List Char
  fraction : Option (List Char)
  /-- The exponent with its sign. -/
  exponent : Option (List Char)

namespace Decimal

/-- Cuts a word at its point and at its exponent mark. -/
def ofWord (word : List Char) : Decimal :=
  let (negative, digits) := unsigned word
  let integer := digits.takeWhile fun c => isDigit c || c == '_'
  let behind := digits.drop integer.length
  let fraction :=
    match behind with
    | '.' :: s => some (s.takeWhile fun c => isDigit c || c == '_')
    | _ => none
  let behind := behind.drop ((fraction.map (·.length + 1)).getD 0)
  { negative, integer, fraction
    exponent := if behind.isEmpty then none else some behind }

/-- Whether the part behind the digits is an exponent. -/
def isExponent : List Char → Bool
  | c :: s => (c == 'e' || c == 'E') && isGrouped 10 (unsigned s).2
  | [] => false

/-- Whether the parts make a number with a fraction, an exponent or both. -/
def isFloat (d : Decimal) : Bool :=
  isDecimal d.integer && d.fraction.all (isGrouped 10) && d.exponent.all isExponent &&
    (d.fraction.isSome || d.exponent.isSome)

/-- Whether the value without its sign rounds to infinity.  The number of digits before the point
    decides most cases; near the bound the value is compared with it. -/
def overflows (d : Decimal) : Bool :=
  let fraction := (d.fraction.getD []).filter (· != '_')
  let significand := groupedValue 10 (d.integer ++ fraction)
  let (negative, exponent) := unsigned (d.exponent.getD []).tail
  let size : Int := groupedValue 10 exponent
  let power : Int := (if negative then -size else size) - fraction.length
  let places : Int := (Nat.toDigits 10 significand).length + power
  if significand == 0 then false
  else if places < 300 then false
  else if 310 < places then true
  else if power < 0 then Number.overflowBound * Nat.pow 10 power.natAbs ≤ significand
  else Number.overflowBound ≤ significand * Nat.pow 10 power.natAbs

end Decimal

/-- Whether a word is a number with a fraction or an exponent, an infinity or no number.  One that
    rounds to positive infinity is refused. -/
def isFloat (word : List Char) : Bool :=
  let name := String.ofList (unsigned word).2
  if name == "inf" || name == "nan" then true
  else
    let d := Decimal.ofWord word
    d.isFloat && (d.negative || !d.overflows)

/-! ## Dates and times -/

/-- The number of two digits, within bounds. -/
def twoDigits? (low high : Nat) (a b : Char) : Option Nat := do
  let n ← number? 10 [a, b]
  if low ≤ n && n ≤ high then some n else none

/-- The number of days in a month. -/
def daysIn (year month : Nat) : Nat :=
  if month == 2 then
    if year % 4 == 0 && (year % 100 != 0 || year % 400 == 0) then 29 else 28
  else if month == 4 || month == 6 || month == 9 || month == 11 then 30
  else 31

/-- What follows a date. -/
def behindDate? : List Char → Option (List Char)
  | y₁ :: y₂ :: y₃ :: y₄ :: '-' :: m₁ :: m₂ :: '-' :: d₁ :: d₂ :: rest => do
    let year ← number? 10 [y₁, y₂, y₃, y₄]
    let month ← twoDigits? 1 12 m₁ m₂
    let _ ← twoDigits? 1 (daysIn year month) d₁ d₂
    return rest
  | _ => none

/-- What follows a time of day.  A second may be a leap second. -/
def behindTime? : List Char → Option (List Char)
  | h₁ :: h₂ :: ':' :: m₁ :: m₂ :: ':' :: s₁ :: s₂ :: rest => do
    let _ ← twoDigits? 0 23 h₁ h₂
    let _ ← twoDigits? 0 59 m₁ m₂
    let _ ← twoDigits? 0 60 s₁ s₂
    match rest with
    | '.' :: d :: digits => return if isDigit d then digits.dropWhile isDigit else rest
    | _ => return rest
  | _ => none

/-- Whether characters are an offset from universal time. -/
def isOffset : List Char → Bool
  | [z] => z == 'Z' || z == 'z'
  | [sign, h₁, h₂, ':', m₁, m₂] =>
    (sign == '+' || sign == '-') && (twoDigits? 0 23 h₁ h₂).isSome &&
      (twoDigits? 0 59 m₁ m₂).isSome
  | _ => false

/-- Whether characters are a time of day with or without an offset. -/
def isTime (s : List Char) : Bool :=
  (behindTime? s).any fun rest => rest.isEmpty || isOffset rest

/-- Whether a word is a date. -/
def isDate (word : List Char) : Bool :=
  behindDate? word == some []

/-- Whether a word is a date with a time, a date or a time. -/
def isDateTime (word : List Char) : Bool :=
  match behindDate? word with
  | some [] => true
  | some (t :: time) => (t == 'T' || t == 't') && isTime time
  | none => behindTime? word == some []

/-! ## Words -/

/-- A character of a word. -/
def isWordChar (c : Char) : Bool :=
  isDigit c || ('a' ≤ c && c ≤ 'z') || ('A' ≤ c && c ≤ 'Z') ||
    c == '+' || c == '-' || c == '_' || c == ':' || c == '.'

/-- The value that a word stands for. -/
def Value.ofWord? (word : List Char) : Option Value :=
  let literal := String.ofList word
  if literal == "true" then some (.boolean true)
  else if literal == "false" then some (.boolean false)
  else if isDateTime word then some (.dateTime literal)
  else if isFloat word then some (.float literal)
  else .integer <$> integer? word

/-- The word at the front and what follows it.  A date takes a space and a time behind it along. -/
def splitWord (s : List Char) : List Char × List Char :=
  let word := s.takeWhile isWordChar
  let rest := s.dropWhile isWordChar
  match rest with
  | ' ' :: more =>
    let time := more.takeWhile isWordChar
    if isDate word && !time.isEmpty then
      (word ++ 'T' :: time, more.dropWhile isWordChar)
    else (word, rest)
  | _ => (word, rest)

theorem dropWhile_length_le {α : Type} (p : α → Bool) (s : List α) :
    (s.dropWhile p).length ≤ s.length :=
  (List.dropWhile_sublist p).length_le

/-- A word that is not empty leaves less. -/
theorem dropWhile_length_lt {α : Type} {p : α → Bool} {c : α} {s : List α} (h : p c = true) :
    ((c :: s).dropWhile p).length < (c :: s).length := by
  rw [List.dropWhile_cons_of_pos h]
  exact Nat.lt_succ_of_le (dropWhile_length_le p s)

theorem splitWord_length_lt {c : Char} {s : List Char} (h : isWordChar c = true) :
    (splitWord (c :: s)).2.length < (c :: s).length := by
  have first := dropWhile_length_lt (s := s) h
  simp only [splitWord]
  split
  · rename_i more e
    have second := dropWhile_length_le isWordChar more
    split
    · simp only [e, List.length_cons] at *
      omega
    · exact first
  · exact first

/-- Reads a value without quotes. -/
def word? : Reader Value
  | [] => none
  | c :: s =>
    if h : isWordChar c then
      match Value.ofWord? (splitWord (c :: s)).1 with
      | some v => some (v, ⟨(splitWord (c :: s)).2, splitWord_length_lt h⟩)
      | none => none
    else none

end JavaOutline.Toml

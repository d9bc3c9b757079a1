import JavaOutline.Json.Parse
import JavaOutline.Number

/-! # Which numbers are readable

A number literal is read as a binary floating-point value of 53 significant bits, and one that is
too large for that is refused.  `isFinite` decides this in integers: the literal becomes a
significand below `2 ^ 64` and a power of ten, both are rounded to 53 bits, and their product is
compared with the least value that rounds to infinity.

Digits that no longer fit the significand are dropped: an integer digit raises the power of ten
instead, a fraction digit does not count.
-/

namespace JavaOutline.Json

/-! ## Rounding -/

/-- `n` rounded to 53 significant bits, ties to even. -/
def round53 (n : Nat) : Nat :=
  let excess := n.log2 - 52
  let unit := Nat.pow 2 excess
  let q := n / unit
  let r := n % unit
  let up := unit < 2 * r || (2 * r == unit && q % 2 == 1)
  (if up then q + 1 else q) * unit

/-- The greatest power of ten that is itself finite. -/
def maxPower : Nat := 308

/-- Whether `significand * 10 ^ power` is finite. -/
def scaleIsFinite (significand : Nat) (power : Int) : Bool :=
  if power < 0 then true
  else if significand == 0 then true
  else if maxPower < power.toNat then false
  else round53 significand * round53 (Nat.pow 10 power.toNat) < Number.overflowBound

/-! ## Literals -/

/-- One more digit in the significand, unless it no longer fits 64 bits. -/
def extend? (significand digit : Nat) : Option Nat :=
  if significand * 10 + digit < Number.wordBound then some (significand * 10 + digit) else none

/-- The value of a digit. -/
def digitValue (b : UInt8) : Nat :=
  b.toNat - 0x30

/-- The significand of leading digits and the number of digits that did not fit.  Once a digit
    does not fit, no later one is taken. -/
def takeDigits : Nat → Bytes → Nat × Nat
  | significand, [] => (significand, 0)
  | significand, d :: rest =>
    match extend? significand (digitValue d) with
    | some s => takeDigits s rest
    | none => (significand, rest.length + 1)

/-- A literal cut into its integer digits, fraction digits and exponent. -/
structure NumberParts where
  integer : Bytes
  fraction : Bytes
  /-- Sign and digits of the exponent. -/
  exponent : Option (Bool × Bytes)

/-- Cuts a literal that follows the number grammar. -/
def numberParts (literal : Bytes) : NumberParts :=
  let unsigned := literal.dropWhile (· == 0x2d)
  let behindInteger := unsigned.dropWhile isDigit
  let fraction := if behindInteger.head? == some 0x2e then behindInteger.tail else []
  let behindFraction := if fraction.isEmpty then behindInteger else fraction.dropWhile isDigit
  let exponent := behindFraction.tail
  { integer := unsigned.takeWhile isDigit
    fraction := fraction.takeWhile isDigit
    exponent :=
      if behindFraction.isEmpty then none
      else some (exponent.head? == some 0x2d, exponent.dropWhile fun b => !isDigit b) }

/-- The value of digits. -/
def digitsValue (digits : Bytes) : Nat :=
  digits.foldl (fun n d => 10 * n + digitValue d) 0

/-- Whether a literal that follows the number grammar stands for a finite value.  An exponent
    beyond 31 bits makes any significand but zero too large or else vanishing. -/
def isFinite (literal : Bytes) : Bool :=
  let parts := numberParts literal
  let (whole, dropped) := takeDigits 0 parts.integer
  let (significand, lost) := takeDigits whole parts.fraction
  let power : Int := (dropped : Int) - ((parts.fraction.length - lost : Nat) : Int)
  match parts.exponent with
  | none => scaleIsFinite significand power
  | some (negative, digits) =>
    let e := digitsValue digits
    if 0x80000000 ≤ e then significand == 0 || negative
    else scaleIsFinite significand (if negative then power - e else power + e)

/-- The value of a literal of digits only. -/
def natural? (literal : Bytes) : Option Nat :=
  if literal.all isDigit then some (digitsValue literal) else none

end JavaOutline.Json

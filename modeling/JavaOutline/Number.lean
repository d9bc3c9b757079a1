/-! # Bounds of machine numbers

Numbers are read exactly; a bound decides which of them a machine word or a floating-point value
could hold.
-/

namespace JavaOutline.Number

/-- The least natural number that does not fit 64 bits. -/
def wordBound : Nat := 0x10000000000000000

/-- The least natural number that does not fit 64 bits with a sign. -/
def signedBound : Nat := 0x8000000000000000

/-- The least value that rounds to infinity at 53 significant bits: half a unit above the greatest
    finite value. -/
def overflowBound : Nat :=
  Nat.pow 2 1024 - Nat.pow 2 970

end JavaOutline.Number

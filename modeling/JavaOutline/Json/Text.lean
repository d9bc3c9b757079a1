import JavaOutline.Json.Basic

/-! # Spelling of texts in JSON

`Json.escape` spells a text the canonical way: the two-character escapes for the quote, the
backslash and five control characters, `\u00xx` for the other control characters, and every other
byte as it is.  `Json.unescape?` reads any spelling: the two-character escapes, `\uxxxx`, and pairs
of `\uxxxx` that form one character beyond the basic plane.  Half of such a pair alone is no text.
-/

namespace JavaOutline.Json

/-! ## Writing -/

/-- The lower-case hexadecimal digit of a value below sixteen. -/
def hexDigit (n : UInt8) : UInt8 :=
  if n < 10 then 0x30 + n else 0x57 + n

/-- The canonical spelling of one byte of a text. -/
def escapeByte (b : UInt8) : Bytes :=
  if b == quoteMark || b == escapeMark then [escapeMark, b]
  else if b == 0x08 then [escapeMark, 0x62]
  else if b == 0x09 then [escapeMark, 0x74]
  else if b == 0x0a then [escapeMark, 0x6e]
  else if b == 0x0c then [escapeMark, 0x66]
  else if b == 0x0d then [escapeMark, 0x72]
  else if b < 0x20 then [escapeMark, 0x75, 0x30, 0x30, hexDigit (b / 16), hexDigit (b % 16)]
  else [b]

/-- The canonical spelling of a text. -/
def escape (s : String) : Bytes :=
  (utf8 s).flatMap escapeByte

/-- The string that holds a text. -/
def text (s : String) : Json :=
  .string (escape s)

/-! ## Reading -/

/-- The value of a hexadecimal digit of either case. -/
def hexValue? (b : UInt8) : Option Nat :=
  if 0x30 ≤ b && b ≤ 0x39 then some (b.toNat - 0x30)
  else if 0x41 ≤ b && b ≤ 0x46 then some (b.toNat - 0x37)
  else if 0x61 ≤ b && b ≤ 0x66 then some (b.toNat - 0x57)
  else none

/-- The byte that a two-character escape stands for. -/
def shortEscape? (b : UInt8) : Option UInt8 :=
  if b == quoteMark || b == escapeMark || b == 0x2f then some b
  else if b == 0x62 then some 0x08
  else if b == 0x66 then some 0x0c
  else if b == 0x6e then some 0x0a
  else if b == 0x72 then some 0x0d
  else if b == 0x74 then some 0x09
  else none

/-- One unit of a spelled text: a byte, or the code unit of a `\uxxxx` escape. -/
inductive TextUnit where
  | byte (b : UInt8)
  | code (n : Nat)

/-- Splits a spelled text into its units. -/
def units? : Bytes → Option (List TextUnit)
  | [] => some []
  | escapeMark :: 0x75 :: a :: b :: c :: d :: rest => do
    let n := 4096 * (← hexValue? a) + 256 * (← hexValue? b) + 16 * (← hexValue? c) + (← hexValue? d)
    return .code n :: (← units? rest)
  | escapeMark :: e :: rest => do
    return .byte (← shortEscape? e) :: (← units? rest)
  | b :: rest => do
    return .byte b :: (← units? rest)

/-- Whether a code unit opens a pair. -/
def isHighHalf (n : Nat) : Bool := 0xd800 ≤ n && n ≤ 0xdbff

/-- Whether a code unit closes a pair. -/
def isLowHalf (n : Nat) : Bool := 0xdc00 ≤ n && n ≤ 0xdfff

/-- The UTF-8 bytes of a code point. -/
def encodePoint (n : Nat) : Bytes :=
  String.utf8EncodeChar (Char.ofNat n)

/-- The bytes of a text from its units; `high?` is the first half of a pair whose second half
    must follow. -/
def joinUnits? : Option Nat → List TextUnit → Option Bytes
  | none, [] => some []
  | none, .byte b :: rest => return b :: (← joinUnits? none rest)
  | none, .code n :: rest =>
    if isHighHalf n then joinUnits? (some n) rest
    else if isLowHalf n then none
    else return encodePoint n ++ (← joinUnits? none rest)
  | some high, .code n :: rest =>
    if isLowHalf n then
      return encodePoint (0x10000 + 1024 * (high - 0xd800) + (n - 0xdc00)) ++
        (← joinUnits? none rest)
    else none
  | some _, _ => none

/-- The text that a spelling stands for. -/
def unescape? (body : Bytes) : Option String := do
  ofUtf8? (← joinUnits? none (← units? body))

/-- The text of a string value. -/
def text? : Json → Option String
  | .string body => unescape? body
  | _ => none

end JavaOutline.Json

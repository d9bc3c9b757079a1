import JavaOutline.Text.CaseTable
import JavaOutline.Text.HiddenTable

/-! # Quoted texts

A quoted text stands on one line and shows every character: quote and backslash are escaped, four
control characters have short escapes, and any other character that would not show is written as
its code point in braces.
-/

namespace JavaOutline.Text

/-- The lower-case hexadecimal digits of a number. -/
def hexDigits (n : Nat) : String :=
  String.ofList (Nat.toDigits 16 n)

/-- The spelling of a character inside quotes. -/
def quotedChar (c : Char) : String :=
  match c with
  | '"' => "\\\""
  | '\\' => "\\\\"
  | '\n' => "\\n"
  | '\r' => "\\r"
  | '\t' => "\\t"
  | '\x00' => "\\0"
  | c =>
    if inRanges hiddenRanges c.toNat then "\\u\x7b" ++ hexDigits c.toNat ++ "\x7d"
    else String.singleton c

/-- A text in quotes. -/
def quoted (s : String) : String :=
  "\"" ++ String.join (s.toList.map quotedChar) ++ "\""

end JavaOutline.Text

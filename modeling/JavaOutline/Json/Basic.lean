import JavaOutline.Text.Utf8

/-! # JSON documents as written

A `Json` value is a document tree whose strings and numbers are kept the way they are spelled:
a string is the bytes between its quotes, escapes included, and a number is its literal.  Nothing
is lost between bytes and tree but insignificant blanks, so a part of a document that nobody reads
is never decoded and never refused.

* `Json.write v rest` puts the compact form of `v` in front of `rest`.
* `Json.writePretty` does the same with one item a line and two spaces a level.
-/

namespace JavaOutline

/-- A JSON value with strings and numbers as spelled. -/
inductive Json where
  | null
  | bool (value : Bool)
  /-- The literal. -/
  | number (literal : Bytes)
  /-- What stands between the quotes. -/
  | string (body : Bytes)
  | array (elements : List Json)
  /-- Fields in document order, each with what stands between the quotes of its name. -/
  | object (fields : List (Bytes × Json))
deriving Inhabited, BEq

namespace Json

/-! ## Marks -/

@[match_pattern] abbrev quoteMark : UInt8 := 0x22
@[match_pattern] abbrev commaMark : UInt8 := 0x2c
@[match_pattern] abbrev colonMark : UInt8 := 0x3a
@[match_pattern] abbrev arrayOpen : UInt8 := 0x5b
@[match_pattern] abbrev arrayClose : UInt8 := 0x5d
@[match_pattern] abbrev objectOpen : UInt8 := 0x7b
@[match_pattern] abbrev objectClose : UInt8 := 0x7d
@[match_pattern] abbrev escapeMark : UInt8 := 0x5c
@[match_pattern] abbrev newline : UInt8 := 0x0a
@[match_pattern] abbrev space : UInt8 := 0x20

/-- Blanks that may stand around any token: space, tab, line feed, carriage return. -/
def isBlank (b : UInt8) : Bool :=
  b == space || b == newline || b == 0x0d || b == 0x09

/-- The words `null`, `true` and `false`. -/
def nullWord : Bytes := [0x6e, 0x75, 0x6c, 0x6c]

@[inherit_doc nullWord]
def trueWord : Bytes := [0x74, 0x72, 0x75, 0x65]

@[inherit_doc nullWord]
def falseWord : Bytes := [0x66, 0x61, 0x6c, 0x73, 0x65]

/-- The word for a truth value. -/
def boolWord (b : Bool) : Bytes :=
  if b then trueWord else falseWord

/-- A string token in front of `rest`. -/
def writeString (body rest : Bytes) : Bytes :=
  quoteMark :: (body ++ quoteMark :: rest)

/-! ## Compact form -/

mutual

/-- The compact form of a value, in front of `rest`. -/
def write : Json → Bytes → Bytes
  | null, rest => nullWord ++ rest
  | bool b, rest => boolWord b ++ rest
  | number literal, rest => literal ++ rest
  | string body, rest => writeString body rest
  | array [], rest => arrayOpen :: arrayClose :: rest
  | array (v :: vs), rest => arrayOpen :: write v (writeElements vs (arrayClose :: rest))
  | object [], rest => objectOpen :: objectClose :: rest
  | object ((k, v) :: fs), rest =>
    objectOpen :: writeString k (colonMark :: write v (writeFields fs (objectClose :: rest)))

/-- The elements after the first one, each behind a comma. -/
def writeElements : List Json → Bytes → Bytes
  | [], rest => rest
  | v :: vs, rest => commaMark :: write v (writeElements vs rest)

/-- The fields after the first one, each behind a comma. -/
def writeFields : List (Bytes × Json) → Bytes → Bytes
  | [], rest => rest
  | (k, v) :: fs, rest =>
    commaMark :: writeString k (colonMark :: write v (writeFields fs rest))

end

/-- The compact form of a document. -/
def compact (v : Json) : Bytes :=
  v.write []

/-! ## Indented form -/

/-- A new line at nesting `level`, in front of `rest`. -/
def writeLine (level : Nat) (rest : Bytes) : Bytes :=
  newline :: (List.replicate (2 * level) space ++ rest)

mutual

/-- The indented form of a value that stands at nesting `level`, in front of `rest`. -/
def writePretty (level : Nat) : Json → Bytes → Bytes
  | null, rest => nullWord ++ rest
  | bool b, rest => boolWord b ++ rest
  | number literal, rest => literal ++ rest
  | string body, rest => writeString body rest
  | array [], rest => arrayOpen :: arrayClose :: rest
  | array (v :: vs), rest =>
    arrayOpen :: writeLine (level + 1) (writePretty (level + 1) v
      (writePrettyElements level vs (writeLine level (arrayClose :: rest))))
  | object [], rest => objectOpen :: objectClose :: rest
  | object ((k, v) :: fs), rest =>
    objectOpen :: writeLine (level + 1) (writeString k (colonMark :: space ::
      writePretty (level + 1) v
        (writePrettyFields level fs (writeLine level (objectClose :: rest)))))

/-- The elements after the first one, each on a line of its own. -/
def writePrettyElements (level : Nat) : List Json → Bytes → Bytes
  | [], rest => rest
  | v :: vs, rest =>
    commaMark :: writeLine (level + 1) (writePretty (level + 1) v
      (writePrettyElements level vs rest))

/-- The fields after the first one, each on a line of its own. -/
def writePrettyFields (level : Nat) : List (Bytes × Json) → Bytes → Bytes
  | [], rest => rest
  | (k, v) :: fs, rest =>
    commaMark :: writeLine (level + 1) (writeString k (colonMark :: space ::
      writePretty (level + 1) v (writePrettyFields level fs rest)))

end

/-- The indented form of a document, without a final line break. -/
def pretty (v : Json) : Bytes :=
  v.writePretty 0 []

end Json

end JavaOutline

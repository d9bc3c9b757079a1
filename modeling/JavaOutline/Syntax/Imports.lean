import JavaOutline.Syntax.Node

/-! # Sources of imports only

A source that holds nothing but import declarations needs no full parser.  `importTree?` gives its
syntax tree, and nothing for any other source.
-/

namespace JavaOutline.Syntax

/-- Whether a byte is a blank between Java tokens. -/
def isJavaBlank (b : UInt8) : Bool :=
  b == 0x20 || b == 0x09 || b == 0x0a || b == 0x0c || b == 0x0d

/-- Whether a byte can be part of a Java name. -/
def isNameByte (b : UInt8) : Bool :=
  (0x30 ≤ b && b ≤ 0x39) || (0x41 ≤ b && b ≤ 0x5a) || (0x61 ≤ b && b ≤ 0x7a) || b == 0x5f ||
    b == 0x24 || 0x80 ≤ b

/-- A token of an import declaration. -/
inductive ImportToken where
  /-- A name or keyword with its first byte and the byte behind it. -/
  | word (text : Bytes) (start stop : Nat)
  | dot
  | star
  | semicolon (stop : Nat)

/-- The token of a single mark. -/
def markToken? (b : UInt8) (place : Nat) : Option ImportToken :=
  if b == 0x2e then some .dot
  else if b == 0x2a then some .star
  else if b == 0x3b then some (.semicolon (place + 1))
  else none

/-- The tokens in front of those behind a byte: the byte at `place` joins the word that follows it
    directly, or starts a token of its own. -/
def prependByte (b : UInt8) (place : Nat) (tokens : List ImportToken) :
    Option (List ImportToken) :=
  if isJavaBlank b then some tokens
  else if isNameByte b then
    match tokens with
    | .word text start stop :: rest =>
      if start = place + 1 then some (.word (b :: text) place stop :: rest)
      else some (.word [b] place (place + 1) :: tokens)
    | _ => some (.word [b] place (place + 1) :: tokens)
  else (markToken? b place).map (· :: tokens)

/-- The tokens of bytes that start at `place`. -/
def importTokens? (place : Nat) : Bytes → Option (List ImportToken)
  | [] => some []
  | b :: rest => (importTokens? (place + 1) rest).bind (prependByte b place)

/-- The node of a dotted name. -/
def nameNode (parts start stop : Nat) : Node :=
  { kind := if parts ≤ 1 then "identifier" else "scoped_identifier"
    start := start, stop := stop, isNamed := true }

/-- What is being read of an import declaration. -/
inductive ImportState where
  /-- Between declarations. -/
  | outside
  /-- Behind `import` at a place, perhaps with `static`. -/
  | opened (start : Nat)
  /-- Behind a name of some parts. -/
  | named (start parts nameStart nameStop : Nat)
  /-- Behind a dot. -/
  | dotted (start parts nameStart nameStop : Nat)
  /-- Behind a star. -/
  | starred (start parts nameStart nameStop : Nat)

/-- The nodes of the declarations that tokens spell. -/
def importNodes? : ImportState → List ImportToken → Option (List Node)
  | .outside, [] => some []
  | .outside, .word text start _ :: rest =>
    if text == utf8 "import" then importNodes? (.opened start) rest else none
  | .opened start, .word text wordStart wordStop :: rest =>
    if text == utf8 "static" then importNodes? (.opened start) rest
    else importNodes? (.named start 1 wordStart wordStop) rest
  | .named start parts nameStart nameStop, .dot :: rest =>
    importNodes? (.dotted start parts nameStart nameStop) rest
  | .dotted start parts nameStart _, .word _ _ wordStop :: rest =>
    importNodes? (.named start (parts + 1) nameStart wordStop) rest
  | .dotted start parts nameStart nameStop, .star :: rest =>
    importNodes? (.starred start parts nameStart nameStop) rest
  | .named start parts nameStart nameStop, .semicolon stop :: rest
  | .starred start parts nameStart nameStop, .semicolon stop :: rest => do
    let node : Node :=
      { kind := "import_declaration", start := start, stop := stop, isNamed := true
        children := [nameNode parts nameStart nameStop] }
    return node :: (← importNodes? .outside rest)
  | _, _ => none

/-- The syntax tree of a source of imports only. -/
def importTree? (source : Bytes) : Option Node := do
  let children ← importNodes? .outside (← importTokens? 0 source)
  return { kind := "program", stop := source.length, isNamed := true, children := children }

end JavaOutline.Syntax

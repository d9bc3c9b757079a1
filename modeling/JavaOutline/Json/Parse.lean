import JavaOutline.Json.Text

/-! # Reading JSON

The reader is a pushdown automaton.  `step` takes one byte from a state to the next, the stack
holds the arrays and objects that are still open, and `finish` says whether the bytes so far are a
whole document.  A document is read by folding `step` over its bytes, so reading always ends and
nesting is limited by nothing.

* `parse? bytes` is the document that `bytes` spell, if they spell exactly one.
-/

namespace JavaOutline.Json

/-! ## Numbers -/

/-- How much of a number has been read. -/
inductive NumberPhase where
  | sign
  | zero
  | integer
  | point
  | fraction
  | exponent
  | exponentSign
  | exponentDigits
deriving DecidableEq

/-- Whether a byte is a decimal digit. -/
def isDigit (b : UInt8) : Bool :=
  0x30 ≤ b && b ≤ 0x39

namespace NumberPhase

/-- Whether a number may end here. -/
def accepts : NumberPhase → Bool
  | zero | integer | fraction | exponentDigits => true
  | sign | point | exponent | exponentSign => false

/-- The phase after an integer digit at the start of a number. -/
def start? (b : UInt8) : Option NumberPhase :=
  if b == 0x30 then some zero else if isDigit b then some integer else none

/-- The phase after one more byte, if the number goes on with it. -/
def next? : NumberPhase → UInt8 → Option NumberPhase
  | sign, b => start? b
  | zero, b =>
    if b == 0x2e then some point
    else if b == 0x65 || b == 0x45 then some exponent
    else none
  | integer, b =>
    if isDigit b then some integer
    else if b == 0x2e then some point
    else if b == 0x65 || b == 0x45 then some exponent
    else none
  | point, b => if isDigit b then some fraction else none
  | fraction, b =>
    if isDigit b then some fraction
    else if b == 0x65 || b == 0x45 then some exponent
    else none
  | exponent, b =>
    if b == 0x2b || b == 0x2d then some exponentSign
    else if isDigit b then some exponentDigits
    else none
  | exponentSign, b => if isDigit b then some exponentDigits else none
  | exponentDigits, b => if isDigit b then some exponentDigits else none

end NumberPhase

/-! ## Strings -/

/-- Where in a string the reader is. -/
inductive StringPhase where
  | plain
  /-- Behind a backslash. -/
  | escaped
  /-- In a `\uxxxx` escape with this many digits to come. -/
  | hex (left : Nat)
deriving DecidableEq

/-- The phase after one more byte of a string that is not its closing quote. -/
def StringPhase.next? : StringPhase → UInt8 → Option StringPhase
  | plain, b =>
    if b == escapeMark then some escaped else if b < 0x20 then none else some plain
  | escaped, b =>
    if b == 0x75 then some (hex 4) else (shortEscape? b).map fun _ => plain
  | hex left, b =>
    (hexValue? b).map fun _ => if left ≤ 1 then plain else hex (left - 1)

/-! ## The automaton -/

/-- An array or object that is still open, newest part first. -/
inductive Frame where
  | array (elements : List Json)
  | object (fields : List (Bytes × Json))
  /-- An object with the name of the field whose value is being read. -/
  | field (fields : List (Bytes × Json)) (name : Bytes)

/-- What the reader waits for. -/
inductive Mode where
  /-- A value must start. -/
  | value
  /-- Behind `[`: a value or the end. -/
  | firstElement
  /-- Behind `{`: a field name or the end. -/
  | firstName
  /-- Behind a comma in an object. -/
  | name
  /-- Behind a field name. -/
  | colon
  /-- Behind a value inside an array or object. -/
  | after
  /-- In a string, with what has been read of it, last byte first. -/
  | string (isName : Bool) (phase : StringPhase) (read : Bytes)
  /-- In a number, with what has been read of it, last byte first. -/
  | number (phase : NumberPhase) (read : Bytes)
  /-- In a word, with the bytes still to come. -/
  | word (left : Bytes) (meaning : Json)
  /-- The document is complete. -/
  | done (document : Json)

/-- A state of the reader. -/
structure State where
  mode : Mode
  stack : List Frame

/-- The state before the first byte. -/
def State.initial : State :=
  ⟨.value, []⟩

/-- The state after a complete value. -/
def deliver (v : Json) : List Frame → State
  | [] => ⟨.done v, []⟩
  | .array elements :: stack => ⟨.after, .array (v :: elements) :: stack⟩
  | .field fields name :: stack => ⟨.after, .object ((name, v) :: fields) :: stack⟩
  | .object fields :: stack => ⟨.after, .object fields :: stack⟩

/-- The state after the first byte of a value. -/
def startValue (stack : List Frame) (b : UInt8) : Option State :=
  if b == quoteMark then some ⟨.string false .plain [], stack⟩
  else if b == arrayOpen then some ⟨.firstElement, .array [] :: stack⟩
  else if b == objectOpen then some ⟨.firstName, .object [] :: stack⟩
  else if b == 0x6e then some ⟨.word (nullWord.drop 1) .null, stack⟩
  else if b == 0x74 then some ⟨.word (trueWord.drop 1) (.bool true), stack⟩
  else if b == 0x66 then some ⟨.word (falseWord.drop 1) (.bool false), stack⟩
  else if b == 0x2d then some ⟨.number .sign [b], stack⟩
  else (NumberPhase.start? b).map fun phase => ⟨.number phase [b], stack⟩

/-- The state after a byte that ends an array or object or goes on with the next part. -/
def stepAfter : List Frame → UInt8 → Option State
  | .array elements :: stack, b =>
    if isBlank b then some ⟨.after, .array elements :: stack⟩
    else if b == commaMark then some ⟨.value, .array elements :: stack⟩
    else if b == arrayClose then some (deliver (.array elements.reverse) stack)
    else none
  | .object fields :: stack, b =>
    if isBlank b then some ⟨.after, .object fields :: stack⟩
    else if b == commaMark then some ⟨.name, .object fields :: stack⟩
    else if b == objectClose then some (deliver (.object fields.reverse) stack)
    else none
  | _, _ => none

/-- The state after the closing quote of a string. -/
def endString (isName : Bool) (body : Bytes) (stack : List Frame) : Option State :=
  if isName then
    match stack with
    | .object fields :: stack => some ⟨.colon, .field fields body :: stack⟩
    | _ => none
  else some (deliver (.string body) stack)

/-- The state after a byte that comes behind a complete value: `s` is the state that the value
    leads to. -/
def stepBehind (s : State) (b : UInt8) : Option State :=
  match s.mode with
  | .done v => if isBlank b then some ⟨.done v, []⟩ else none
  | _ => stepAfter s.stack b

/-- The state after one more byte, or nothing if no document goes on with it. -/
def step (s : State) (b : UInt8) : Option State :=
  match s.mode with
  | .value => if isBlank b then some s else startValue s.stack b
  | .firstElement =>
    if isBlank b then some s
    else if b == arrayClose then stepAfter s.stack b
    else startValue s.stack b
  | .firstName =>
    if isBlank b then some s
    else if b == objectClose then stepAfter s.stack b
    else if b == quoteMark then some ⟨.string true .plain [], s.stack⟩
    else none
  | .name =>
    if isBlank b then some s
    else if b == quoteMark then some ⟨.string true .plain [], s.stack⟩
    else none
  | .colon =>
    if isBlank b then some s
    else if b == colonMark then some ⟨.value, s.stack⟩
    else none
  | .after => stepAfter s.stack b
  | .string isName phase read =>
    if phase == .plain && b == quoteMark then endString isName read.reverse s.stack
    else (phase.next? b).map fun phase => ⟨.string isName phase (b :: read), s.stack⟩
  | .number phase read =>
    match phase.next? b with
    | some phase => some ⟨.number phase (b :: read), s.stack⟩
    | none =>
      if phase.accepts then stepBehind (deliver (.number read.reverse) s.stack) b else none
  | .word left meaning =>
    match left with
    | [] => none
    | [c] => if b == c then some (deliver meaning s.stack) else none
    | c :: left => if b == c then some ⟨.word left meaning, s.stack⟩ else none
  | .done _ => if isBlank b then some s else none

/-- The document that has been read, if the bytes may end here. -/
def finish (s : State) : Option Json :=
  match s.mode, s.stack with
  | .done v, _ => some v
  | .number phase read, [] => if phase.accepts then some (.number read.reverse) else none
  | _, _ => none

/-- The document that `bytes` complete from a state. -/
def run : State → Bytes → Option Json
  | s, [] => finish s
  | s, b :: rest =>
    match step s b with
    | some s => run s rest
    | none => none

/-- The document that `bytes` spell, if they spell exactly one. -/
def parse? (bytes : Bytes) : Option Json :=
  run .initial bytes

end JavaOutline.Json

import JavaOutline.Text.Quoted

/-! # Log events

An event has a level, a message and named fields.  `Event.line` is its form on a log.
-/

namespace JavaOutline

/-- How much an event matters. -/
inductive Level where
  | trace
  | debug
  | info
  | warn
deriving DecidableEq

namespace Level

/-- The name of a level. -/
def name : Level → String
  | trace => "TRACE"
  | debug => "DEBUG"
  | info => "INFO"
  | warn => "WARN"

/-- The rank of a level: what matters more ranks higher. -/
def rank : Level → Nat
  | trace => 0
  | debug => 1
  | info => 2
  | warn => 3

end Level

/-- The value of a field. -/
inductive FieldValue where
  /-- Written as it is. -/
  | plain (text : String)
  /-- Written in quotes. -/
  | quoted (text : String)

namespace FieldValue

/-- The value as such. -/
def text : FieldValue → String
  | plain t | quoted t => t

/-- The value on a log line. -/
def shown : FieldValue → String
  | plain t => t
  | quoted t => Text.quoted t

/-- A number. -/
def number (n : Nat) : FieldValue :=
  plain n.repr

end FieldValue

/-- Something that was logged. -/
structure Event where
  level : Level
  message : String
  fields : List (String × FieldValue) := []

/-- The first line of a text, without the line feed, or carriage return and line feed, that ends
    it.  A text that stands on a line of its own needs no line feed. -/
def Text.firstLine (text : String) : String :=
  let line := text.toList.takeWhile (· != '\n')
  String.ofList (if line.getLast? == some '\r' then line.dropLast else line)

/-- The form of an event on a log; text that spans lines is cut at the end of the first. -/
def Event.line (e : Event) : String :=
  let shown := String.join (e.fields.map fun (name, value) => " " ++ name ++ "=" ++ value.shown)
  Text.firstLine (e.level.name ++ " " ++ e.message ++ shown)

end JavaOutline

import JavaOutline.Toml.Literal

/-! # TOML documents

A document is read line by line into statements, and the statements make its table.  Values may
nest `nestingLimit` deep, and a key may have as many names.

`Table.parse?` is the whole: the table of a document, if the document is well-formed and no line
contradicts an earlier one.
-/

namespace JavaOutline.Toml

/-- How deep arrays and tables in braces may nest, and how many names a key may have. -/
def nestingLimit : Nat := 79

/-! ## Blanks, comments and line ends -/

/-- The characters without the blanks in front. -/
def skipBlanks (s : List Char) : { rest : List Char // rest.length ≤ s.length } :=
  ⟨s.dropWhile isBlank, dropWhile_length_le isBlank s⟩

/-- The characters without a comment in front. -/
def skipComment : (s : List Char) → { rest : List Char // rest.length ≤ s.length }
  | '#' :: s => ⟨s.dropWhile isPlain, Nat.le_succ_of_le (dropWhile_length_le isPlain s)⟩
  | s => ⟨s, Nat.le_refl _⟩

/-- What follows a line end. -/
def newline? : (s : List Char) → Option (Rest s)
  | '\n' :: s => some ⟨s, Nat.lt_succ_self _⟩
  | '\r' :: '\n' :: s => some ⟨s, Nat.lt_succ_of_lt (Nat.lt_succ_self _)⟩
  | _ => none

/-- The characters without the blanks, comments and line ends in front. -/
def skipLines (s : List Char) : { rest : List Char // rest.length ≤ s.length } :=
  let blanks := skipBlanks s
  let comment := skipComment blanks.1
  match newline? comment.1 with
  | none => blanks
  | some ⟨rest, h⟩ =>
    have shorter : rest.length < s.length :=
      Nat.lt_of_lt_of_le h (Nat.le_trans comment.2 blanks.2)
    let ⟨r, h⟩ := skipLines rest
    ⟨r, by omega⟩
termination_by s.length

/-- What follows the rest of a line that says nothing more: at most blanks and a comment. -/
def endOfLine? (s : List Char) : Option { rest : List Char // rest.length ≤ s.length - 1 } :=
  let blanks := skipBlanks s
  let comment := skipComment blanks.1
  if comment.1.isEmpty then some ⟨[], Nat.zero_le _⟩
  else
    (newline? comment.1).map fun ⟨rest, h⟩ =>
      ⟨rest, by have := blanks.2; have := comment.2; omega⟩

/-- Reads one expected character. -/
def mark? (c : Char) : (s : List Char) → Option (Rest s)
  | a :: s => if a == c then some ⟨s, Nat.lt_succ_self _⟩ else none
  | [] => none

/-! ## Keys -/

/-- A character of a name without quotes. -/
def isNameChar (c : Char) : Bool :=
  isDigit c || ('a' ≤ c && c ≤ 'z') || ('A' ≤ c && c ≤ 'Z') || c == '-' || c == '_'

/-- Reads one name of a key. -/
def name? : Reader String
  | [] => none
  | c :: s =>
    if h : isNameChar c then
      some (String.ofList ((c :: s).takeWhile isNameChar),
        ⟨(c :: s).dropWhile isNameChar, dropWhile_length_lt h⟩)
    else lineText? (c :: s)

/-- Reads names with points between them. -/
def names? (s : List Char) : Option (List String × Rest s) := do
  let ⟨r₀, h₀⟩ := skipBlanks s
  let (name, ⟨r₁, h₁⟩) ← name? r₀
  let ⟨r₂, h₂⟩ := skipBlanks r₁
  match mark? '.' r₂ with
  | none => return ([name], ⟨r₂, by omega⟩)
  | some ⟨r₃, h₃⟩ =>
    let (names, ⟨r₄, h₄⟩) ← names? r₃
    return (name :: names, ⟨r₄, by omega⟩)
termination_by s.length

/-- Reads a key. -/
def key? : Reader (List String) := fun s => do
  let (names, rest) ← names? s
  if names.length ≤ nestingLimit then some (names, rest) else none

/-! ## Values -/

section

variable (read : Reader Value)

/-- Reads a key, the sign `=` and a value. -/
def pair? : Reader (List String × Value) := fun s => do
  let (key, ⟨r₁, h₁⟩) ← key? s
  let ⟨r₂, h₂⟩ ← mark? '=' r₁
  let ⟨r₃, h₃⟩ := skipBlanks r₂
  let (v, ⟨r₄, h₄⟩) ← read r₃
  return ((key, v), ⟨r₄, by omega⟩)

/-- Reads the items of an array and the bracket that closes it.  A comma may follow the last. -/
def items? (s : List Char) : Option (List Value × Rest s) :=
  let ⟨r₀, h₀⟩ := skipLines s
  match mark? ']' r₀ with
  | some ⟨rest, h⟩ => some ([], ⟨rest, by omega⟩)
  | none => do
    let (v, ⟨r₁, h₁⟩) ← read r₀
    let ⟨r₂, h₂⟩ := skipLines r₁
    match mark? ',' r₂ with
    | some ⟨r₃, h₃⟩ =>
      let (vs, ⟨r₄, h₄⟩) ← items? r₃
      return (v :: vs, ⟨r₄, by omega⟩)
    | none =>
      let ⟨r₃, h₃⟩ ← mark? ']' r₂
      return ([v], ⟨r₃, by omega⟩)
termination_by s.length

/-- Reads one or more pairs and the brace that closes them.  No comma may follow the last. -/
def morePairs? (s : List Char) : Option (List (List String × Value) × Rest s) := do
  let (p, ⟨r₁, h₁⟩) ← pair? read s
  let ⟨r₂, h₂⟩ := skipBlanks r₁
  match mark? ',' r₂ with
  | some ⟨r₃, h₃⟩ =>
    let (ps, ⟨r₄, h₄⟩) ← morePairs? r₃
    return (p :: ps, ⟨r₄, by omega⟩)
  | none =>
    let ⟨r₃, h₃⟩ ← mark? '\x7d' r₂
    return ([p], ⟨r₃, by omega⟩)
termination_by s.length

/-- Reads the pairs of a table in braces and the brace that closes it. -/
def pairs? : Reader (List (List String × Value)) := fun s =>
  let ⟨r₀, h₀⟩ := skipBlanks s
  match mark? '\x7d' r₀ with
  | some ⟨rest, h⟩ => some ([], ⟨rest, by omega⟩)
  | none => morePairs? read s

end

/-- Reads a value in which arrays and tables nest at most `depth` deep. -/
def value? : (depth : Nat) → Reader Value
  | depth, '[' :: s =>
    match depth with
    | 0 => none
    | depth + 1 => do
      let (items, ⟨rest, h⟩) ← items? (value? depth) s
      return (.array items, ⟨rest, Nat.lt_succ_of_lt h⟩)
  | depth, '\x7b' :: s =>
    match depth with
    | 0 => none
    | depth + 1 => do
      let (pairs, ⟨rest, h⟩) ← pairs? (value? depth) s
      return (.table .braces (← Table.ofPairs? pairs), ⟨rest, Nat.lt_succ_of_lt h⟩)
  | _, s =>
    match text? s with
    | some (text, rest) => some (.string text, rest)
    | none => word? s

/-! ## Lines -/

/-- Reads the key of a header, behind its first bracket. -/
def header? : Reader Statement := fun s => do
  match mark? '[' s with
  | some ⟨r₀, h₀⟩ =>
    let (key, ⟨r₁, h₁⟩) ← key? r₀
    let ⟨r₂, h₂⟩ ← mark? ']' r₁
    let ⟨r₃, h₃⟩ ← mark? ']' r₂
    return (.element key, ⟨r₃, by omega⟩)
  | none =>
    let (key, ⟨r₁, h₁⟩) ← key? s
    let ⟨r₂, h₂⟩ ← mark? ']' r₁
    return (.header key, ⟨r₂, by omega⟩)

/-- Reads a statement. -/
def statement? : Reader Statement := fun s => do
  let ⟨r₀, h₀⟩ := skipBlanks s
  match mark? '[' r₀ with
  | some ⟨r₁, h₁⟩ =>
    let (statement, ⟨r₂, h₂⟩) ← header? r₁
    return (statement, ⟨r₂, by omega⟩)
  | none =>
    let ((key, v), ⟨r₁, h₁⟩) ← pair? (value? nestingLimit) r₀
    return (.assign key v, ⟨r₁, by omega⟩)

/-- The statements of a document, each on a line of its own. -/
def statements? (s : List Char) : Option (List Statement) :=
  if nonempty : s = [] then some []
  else
    match endOfLine? s with
    | some ⟨rest, h⟩ =>
      have : rest.length < s.length := by
        have := List.length_pos_iff.2 nonempty
        omega
      statements? rest
    | none => do
      let (statement, ⟨r₁, h₁⟩) ← statement? s
      let ⟨r₂, h₂⟩ ← endOfLine? r₁
      return statement :: (← statements? r₂)
termination_by s.length

/-- The characters of a document without a byte order mark. -/
def skipOrderMark : List Char → List Char
  | '\ufeff' :: s => s
  | s => s

/-- The table of a document. -/
def Table.parse? (document : String) : Option Table := do
  Table.ofStatements? (← statements? (skipOrderMark document.toList))

end JavaOutline.Toml

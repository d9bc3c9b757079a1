/-! # TOML values and tables

A document is a table.  Tables come about in four ways, and the way decides what a later line may
add: a table in braces is closed, one with a header of its own takes no dotted keys from outside,
one that a longer header implied may still get its header, and one that dotted keys made takes
more dotted keys but no header.

* `Table.assign` adds a value under a dotted key.
* `Table.below` changes the table that the names of a header lead to.
-/

namespace JavaOutline.Toml

/-- How a table came about. -/
inductive TableOrigin where
  /-- Written in braces, as a value. -/
  | braces
  /-- Opened by a header of its own. -/
  | header
  /-- Passed through by the header of a table inside it. -/
  | implied
  /-- Passed through by a dotted key. -/
  | dotted
deriving DecidableEq

/-- Whether a dotted key may lead through a table, with so many names still to follow.  The table
    that takes the value must itself be one that dotted keys made. -/
def TableOrigin.takesDotted (origin : TableOrigin) (following : Nat) : Bool :=
  origin == .dotted || (origin == .implied && 1 < following)

/-- A value.  Of a number with a fraction or an exponent, and of a date or time, only the literal
    is kept. -/
inductive Value where
  | string (text : String)
  | integer (n : Int)
  | float (literal : String)
  | boolean (b : Bool)
  | dateTime (literal : String)
  | array (items : List Value)
  | table (origin : TableOrigin) (entries : List (String × Value))
  /-- A list of tables, one for each of its headers, the last one first. -/
  | tables (last : List (String × Value)) (earlier : List (List (String × Value)))

/-- The entries of a table, in the order of their first lines. -/
abbrev Table := List (String × Value)

namespace Table

/-- Replaces the value of a name that is taken. -/
def replace (t : Table) (name : String) (v : Value) : Table :=
  t.map fun (n, old) => if n == name then (n, v) else (n, old)

/-- Adds a value under a dotted key.  A name that is taken is refused. -/
def assign (v : Value) : (key : List String) → Table → Option Table
  | [], _ => none
  | [name], t => if (t.lookup name).isSome then none else some (t ++ [(name, v)])
  | name :: next :: rest, t =>
    match t.lookup name with
    | none => return t ++ [(name, .table .dotted (← assign v (next :: rest) []))]
    | some (.table origin inner) =>
      if origin.takesDotted (next :: rest).length then
        return replace t name (.table origin (← assign v (next :: rest) inner))
      else none
    | some (.tables last earlier) =>
      -- The last table of the list has a header, so it takes no value by a dotted key itself.
      if rest.isEmpty then none
      else return replace t name (.tables (← assign v (next :: rest) last) earlier)
    | some _ => none

/-- Changes the table that names lead to.  A name that is free becomes a table; of a list of
    tables the last one is meant. -/
def below (change : Table → Option Table) : (names : List String) → Table → Option Table
  | [], t => change t
  | name :: names, t =>
    match t.lookup name with
    | none => return t ++ [(name, .table .implied (← below change names []))]
    | some (.table origin inner) =>
      if origin == .braces then none
      else return replace t name (.table origin (← below change names inner))
    | some (.tables last earlier) =>
      return replace t name (.tables (← below change names last) earlier)
    | some _ => none

/-- Opens the table of a header, which may have been implied before. -/
def openTable (name : String) (t : Table) : Option Table :=
  match t.lookup name with
  | none => some (t ++ [(name, .table .header [])])
  | some (.table .implied inner) => some (replace t name (.table .header inner))
  | some _ => none

/-- Opens one more table of a list of tables. -/
def openElement (name : String) (t : Table) : Option Table :=
  match t.lookup name with
  | none => some (t ++ [(name, .tables [] [])])
  | some (.tables last earlier) => some (replace t name (.tables [] (last :: earlier)))
  | some _ => none

/-- The table of key and value pairs, as one in braces holds them. -/
def ofPairs? (pairs : List (List String × Value)) : Option Table :=
  pairs.foldlM (fun t (key, v) => assign v key t) []

end Table

/-! ## Documents -/

/-- A line that says something. -/
inductive Statement where
  /-- A header `[a.b]`. -/
  | header (key : List String)
  /-- A header `[[a.b]]`. -/
  | element (key : List String)
  | assign (key : List String) (v : Value)

/-- Takes up one statement; `here` is the key of the header in force. -/
def Statement.apply (here : List String) (t : Table) : Statement → Option (List String × Table)
  | header key => return (key, ← Table.below (Table.openTable (key.getLastD "")) key.dropLast t)
  | element key => return (key, ← Table.below (Table.openElement (key.getLastD "")) key.dropLast t)
  | assign key v => return (here, ← Table.below (Table.assign v key) here t)

/-- The table that statements make. -/
def Table.ofStatements? (statements : List Statement) : Option Table :=
  (·.2) <$> statements.foldlM (fun (here, t) s => s.apply here t) ([], [])

end JavaOutline.Toml

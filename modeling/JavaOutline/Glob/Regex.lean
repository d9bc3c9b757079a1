import JavaOutline.Glob.Basic

/-! # Patterns as regular expressions

Each glob pattern is also a regular expression, anchored at both ends, with a dot that stands for
any character but a line break.  `Glob.regexText` spells it.
-/

namespace JavaOutline

/-- A set of characters. -/
inductive CharSet where
  | only (c : Char)
  | allBut (c : Char)
deriving DecidableEq

namespace CharSet

/-- Whether a character is in the set. -/
def contains : CharSet → Char → Bool
  | only d, c => c == d
  | allBut d, c => c != d

/-- Characters with a meaning of their own in a regular expression. -/
def isMeta (c : Char) : Bool :=
  c ∈ ['.', '(', ')', '+', '|', '^', '$', '\x7b', '\x7d', '\\']

/-- The spelling of a set. -/
def text : CharSet → String
  | only c => if isMeta c then String.ofList ['\\', c] else String.singleton c
  | allBut c => if c == '\n' then "." else String.ofList ['[', '^', c, ']']

end CharSet

/-- A regular expression. -/
inductive Regex where
  | empty
  /-- One character of a set. -/
  | one (set : CharSet)
  /-- Any number of characters of a set. -/
  | many (set : CharSet)
  | both (first second : Regex)
  | optional (inner : Regex)
deriving DecidableEq

namespace Regex

/-- The texts that a regular expression matches as a whole. -/
inductive Matches : Regex → List Char → Prop where
  | empty : Matches .empty []
  | one {set : CharSet} {c : Char} (h : set.contains c) : Matches (.one set) [c]
  | manyNil {set : CharSet} : Matches (.many set) []
  | manyCons {set : CharSet} {c : Char} {s : List Char} (h : set.contains c)
      (hs : Matches (.many set) s) : Matches (.many set) (c :: s)
  | both {a b : Regex} {s t : List Char} (ha : Matches a s) (hb : Matches b t) :
      Matches (.both a b) (s ++ t)
  | skip {a : Regex} : Matches (.optional a) []
  | take {a : Regex} {s : List Char} (h : Matches a s) : Matches (.optional a) s

/-- The spelling of a regular expression. -/
def text : Regex → String
  | empty => ""
  | one set => set.text
  | many set => set.text ++ "*"
  | both a b => a.text ++ b.text
  | optional a => "(?:" ++ a.text ++ ")?"

end Regex

/-- A token as a regular expression. -/
def GlobToken.regex : GlobToken → Regex
  | char c => .one (.only c)
  | anyChar => .one (.allBut '/')
  | run => .many (.allBut '/')
  | deepRun => .many (.allBut '\n')
  | directories => .optional (.both (.many (.allBut '\n')) (.one (.only '/')))

namespace Glob

/-- A pattern as a regular expression. -/
def regex (g : Glob) : Regex :=
  g.tokens.foldr (fun t r => .both t.regex r) .empty

/-- The spelling of the anchored regular expression. -/
def regexText (g : Glob) : String :=
  "^" ++ g.regex.text ++ "$"

end Glob

end JavaOutline

/-! # Glob patterns

A pattern is read once, from left to right, into tokens: `**/` for any directories or none, `**`
for any text on one line, `*` for any text within a path segment, `?` for one character within a
segment, and every other character for itself.  There are no character classes: a pattern with a
square bracket is refused.

* `Glob.parse?` reads a pattern; `Glob.parseExclude?` also lets a trailing slash stand for all that
  is below a directory.
* `Glob.Matches` is what a pattern means; `Glob.isMatch` decides it.
-/

namespace JavaOutline

/-- One token of a pattern. -/
inductive GlobToken where
  /-- The character itself. -/
  | char (c : Char)
  /-- `?`: one character other than a slash. -/
  | anyChar
  /-- `*`: any characters other than slashes. -/
  | run
  /-- `**`: any characters other than line breaks. -/
  | deepRun
  /-- `**/`: nothing, or any characters other than line breaks and then a slash. -/
  | directories
deriving DecidableEq

/-- A pattern that has been read. -/
structure Glob where
  tokens : List GlobToken
deriving DecidableEq

namespace Glob

/-! ## Reading -/

/-- The tokens of a pattern, the longest possible one at each place. -/
def tokenize : List Char → List GlobToken
  | [] => []
  | '*' :: '*' :: '/' :: rest => .directories :: tokenize rest
  | '*' :: '*' :: rest => .deepRun :: tokenize rest
  | '*' :: rest => .run :: tokenize rest
  | '?' :: rest => .anyChar :: tokenize rest
  | c :: rest => .char c :: tokenize rest

/-- Whether a character would open or close a character class. -/
def isBracket (c : Char) : Bool :=
  c == '[' || c == ']'

/-- Reads a pattern. -/
def parse? (pattern : String) : Option Glob :=
  if pattern.toList.any isBracket then none else some ⟨tokenize pattern.toList⟩

/-- Reads an exclusion pattern: one that ends in a slash covers all that is below. -/
def parseExclude? (pattern : String) : Option Glob :=
  if pattern.toList.getLast? == some '/' then parse? (pattern ++ "**") else parse? pattern

/-- What is reported for a pattern with a square bracket. -/
def bracketMessage : String :=
  "regex parse error:\n    [\n    ^\nerror: unclosed character class"

/-! ## Meaning -/

/-- What a token by itself stands for. -/
def TokenMatches : GlobToken → List Char → Prop
  | .char c, s => s = [c]
  | .anyChar, s => ∃ c, c ≠ '/' ∧ s = [c]
  | .run, s => '/' ∉ s
  | .deepRun, s => '\n' ∉ s
  | .directories, s => s = [] ∨ ∃ d, '\n' ∉ d ∧ s = d ++ ['/']

/-- Whether a text is made of what the tokens stand for, in order. -/
def TokensMatch : List GlobToken → List Char → Prop
  | [], s => s = []
  | t :: ts, s => ∃ u v, s = u ++ v ∧ TokenMatches t u ∧ TokensMatch ts v

/-- What a pattern stands for. -/
def Matches (g : Glob) (path : String) : Prop :=
  TokensMatch g.tokens path.toList

/-! ## Matching

The matcher works from the last token to the first.  For the tokens behind a place in the pattern
it keeps a row with one entry for each suffix of the text, longest first, that says whether those
tokens match that suffix. -/

/-- The row for no tokens: only the empty suffix matches. -/
def emptyRow (s : List Char) : List Bool :=
  s.map (fun _ => false) ++ [true]

/-- The row for one token that `ok` characters pass, in front of the tokens of `row`. -/
def oneRow (ok : Char → Bool) : List Char → List Bool → List Bool
  | c :: s, _ :: row => (ok c && row.headD false) :: oneRow ok s row
  | _, _ => [false]

/-- The row for any run of characters that `ok` passes, in front of the tokens of `row`. -/
def runRow (ok : Char → Bool) : List Char → List Bool → List Bool
  | c :: s, here :: row =>
    let later := runRow ok s row
    (here || (ok c && later.headD false)) :: later
  | _, row => row

/-- The row for one more token in front of the tokens of `row`. -/
def tokenRow (s : List Char) (row : List Bool) : GlobToken → List Bool
  | .char c => oneRow (· == c) s row
  | .anyChar => oneRow (· != '/') s row
  | .run => runRow (· != '/') s row
  | .deepRun => runRow (· != '\n') s row
  | .directories =>
    List.zipWith (· || ·) row (runRow (· != '\n') s (oneRow (· == '/') s row))

/-- The row for a list of tokens.  Where the tokens behind match no suffix, none more does with a
    token in front of them. -/
def suffixRow (s : List Char) : List GlobToken → List Bool
  | [] => emptyRow s
  | t :: ts =>
    let row := suffixRow s ts
    if row.any (·) then tokenRow s row t else row

/-- Whether a pattern matches a path as a whole. -/
def isMatch (g : Glob) (path : String) : Bool :=
  (suffixRow path.toList g.tokens).headD false

/-- The patterns for version control data and build output, which are excluded by default. -/
def defaultExcludes : List Glob :=
  ["**/.git/**", "**/target/**", "**/build/**"].filterMap parseExclude?

end Glob

end JavaOutline

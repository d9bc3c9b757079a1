import JavaOutline.Text.CaseTable

/-! # Letter case

* `Text.lower` is the lower-case form of a text by the full rules: a capital sigma becomes a final
  sigma at the end of a word and a plain one elsewhere, so the form of a text is not always made
  of the forms of its parts.
* `Text.asciiUpper?` is the upper-case form of a text if that form is plain ASCII, which is all
  that a comparison with a keyword needs.
-/

namespace JavaOutline.Text

/-! ## Upper case -/

/-- The upper-case form of a character if it is plain ASCII. -/
def asciiUpperChar? (c : Char) : Option (List Char) :=
  if c.val < 0x80 then some [c.toUpper]
  else match c with
    | 'ß' => some ['S', 'S']
    | 'ı' => some ['I']
    | 'ſ' => some ['S']
    | 'ﬀ' => some ['F', 'F']
    | 'ﬁ' => some ['F', 'I']
    | 'ﬂ' => some ['F', 'L']
    | 'ﬃ' => some ['F', 'F', 'I']
    | 'ﬄ' => some ['F', 'F', 'L']
    | 'ﬅ' => some ['S', 'T']
    | 'ﬆ' => some ['S', 'T']
    | _ => none

/-- The upper-case form of a text if it is plain ASCII. -/
def asciiUpper? (s : String) : Option String :=
  (s.toList.mapM asciiUpperChar?).map fun parts => String.ofList parts.flatten

/-! ## Lower case -/

/-- Whether a character has case. -/
def isCased (c : Char) : Bool :=
  inRanges casedRanges c.toNat

/-- Whether case looks through a character. -/
def isCaseIgnorable (c : Char) : Bool :=
  inRanges caseIgnorableRanges c.toNat

/-- Whether the first character that case does not look through is cased. -/
def opensCased (cs : List Char) : Bool :=
  match cs.dropWhile isCaseIgnorable with
  | c :: _ => isCased c
  | [] => false

/-- Whether a word ends between the characters `before`, nearest first, and `after`. -/
def endsWord (before after : List Char) : Bool :=
  opensCased before && !opensCased after

/-- The lower-case form of a character by itself. -/
def lowerChar (c : Char) : List Char :=
  if c == 'İ' then ['i', '\u0307']
  else match lowerRuns.find? (·.covers c.toNat) with
    | some run => [Char.ofNat (run.target + (c.toNat - run.first))]
    | none => [c]

/-- The lower-case form of the characters that follow `before`, nearest first. -/
def lowerFrom : (before after : List Char) → List Char
  | _, [] => []
  | before, c :: after =>
    (if c == 'Σ' then [if endsWord before after then 'ς' else 'σ'] else lowerChar c) ++
      lowerFrom (c :: before) after

/-- The lower-case form of a text. -/
def lower (s : String) : String :=
  String.ofList (lowerFrom [] s.toList)

/-- Whether `part` occurs in `whole`. -/
def occursIn (part whole : List Char) : Bool :=
  match whole with
  | [] => part.isEmpty
  | c :: rest => part.isPrefixOf (c :: rest) || occursIn part rest

/-- Whether `part` occurs in `whole`. -/
def contains (whole part : String) : Bool :=
  occursIn part.toList whole.toList

end JavaOutline.Text

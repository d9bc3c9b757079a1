/-! # Quoted texts in TOML

A text stands in quotes or in apostrophes, on one line or, with three marks on each side, on
several.  In quotes a backslash escapes; in apostrophes nothing does.  One or two marks inside a
text of several lines are part of it, also right before the three that close it.
-/

namespace JavaOutline.Toml

/-- What a reader leaves: less than it was given. -/
abbrev Rest (s : List Char) := { rest : List Char // rest.length < s.length }

/-- A reader takes a part from the front of the characters, and at least one of them. -/
abbrev Reader (α : Type) := (s : List Char) → Option (α × Rest s)

/-! ## Characters -/

/-- A blank within a line. -/
def isBlank (c : Char) : Bool :=
  c == ' ' || c == '\t'

/-- The characters that stand for themselves in texts and comments: the tab, and all that are not
    control characters. -/
def isPlain (c : Char) : Bool :=
  c == '\t' || (' ' ≤ c && c != '\x7f')

/-- The character of a two-character escape. -/
def shortEscape? : Char → Option Char
  | 'b' => some '\x08'
  | 't' => some '\t'
  | 'n' => some '\n'
  | 'f' => some '\x0c'
  | 'r' => some '\r'
  | '"' => some '"'
  | '\\' => some '\\'
  | _ => none

/-- The value of a digit in bases up to sixteen. -/
def digitValue? (base : Nat) (c : Char) : Option Nat :=
  let value? :=
    if '0' ≤ c && c ≤ '9' then some (c.toNat - '0'.toNat)
    else if 'a' ≤ c && c ≤ 'f' then some (c.toNat - 'a'.toNat + 10)
    else if 'A' ≤ c && c ≤ 'F' then some (c.toNat - 'A'.toNat + 10)
    else none
  value?.filter (· < base)

/-- The number that digits spell. -/
def number? (base : Nat) (digits : List Char) : Option Nat :=
  digits.foldlM (fun n c => (base * n + ·) <$> digitValue? base c) 0

/-- The character whose code point hexadecimal digits spell. -/
def codePoint? (digits : List Char) : Option Char := do
  let n ← number? 16 digits
  if n.isValidChar then some (Char.ofNat n) else none

/-- Whether characters start with the end of a line. -/
def atLineEnd : List Char → Bool
  | '\n' :: _ => true
  | '\r' :: '\n' :: _ => true
  | _ => false

/-! ## Bodies -/

/-- Puts a character in front of a text that was read. -/
def pushFront (c? : Option Char) (r : Option (List Char × List Char)) :
    Option (List Char × List Char) := do
  let c ← c?
  let (text, rest) ← r
  return (c :: text, rest)

/-- What three closing marks end: up to two more marks belong to the text. -/
def closing (mark : Char) : List Char → List Char × List Char
  | a :: b :: rest =>
    if a == mark && b == mark then ([a, b], rest)
    else if a == mark then ([a], b :: rest)
    else ([], a :: b :: rest)
  | [a] => if a == mark then ([a], []) else ([], [a])
  | [] => ([], [])

/-- The text up to the closing quote, and what follows it.  A backslash at the end of a line takes
    away the blanks and line ends that follow; `trimming` says that this is going on. -/
def quotedBody (lines : Bool) : (trimming : Bool) → List Char → Option (List Char × List Char)
  | _, [] => none
  | _, '\\' :: 'u' :: a :: b :: c :: d :: rest =>
    pushFront (codePoint? [a, b, c, d]) (quotedBody lines false rest)
  | _, '\\' :: 'U' :: a :: b :: c :: d :: e :: f :: g :: h :: rest =>
    pushFront (codePoint? [a, b, c, d, e, f, g, h]) (quotedBody lines false rest)
  | _, '\\' :: e :: rest =>
    -- Blanks may stand between the backslash and the end of its line.
    if lines && atLineEnd ((e :: rest).dropWhile isBlank) then quotedBody lines true rest
    else pushFront (shortEscape? e) (quotedBody lines false rest)
  | trimming, '\r' :: '\n' :: rest =>
    if !lines then none
    else if trimming then quotedBody lines true rest
    else pushFront (some '\n') (quotedBody lines false rest)
  | _, '"' :: rest =>
    if !lines then some ([], rest)
    else
      match rest with
      | '"' :: '"' :: rest => some (closing '"' rest)
      -- Fewer than three quotes close nothing.
      | rest => pushFront (some '"') (quotedBody lines false rest)
  | trimming, c :: rest =>
    if trimming && (isBlank c || c == '\n') then quotedBody lines true rest
    else if (isPlain c && c != '\\') || (lines && c == '\n') then
      pushFront (some c) (quotedBody lines false rest)
    else none

/-- The mark around a text that has no escapes. -/
def apostrophe : Char := '\x27'

/-- The text up to the closing apostrophe, and what follows it. -/
def literalBody (lines : Bool) : List Char → Option (List Char × List Char)
  | [] => none
  | '\x27' :: rest =>
    if !lines then some ([], rest)
    else
      match rest with
      | '\x27' :: '\x27' :: rest => some (closing apostrophe rest)
      | rest => pushFront (some apostrophe) (literalBody lines rest)
  | '\r' :: '\n' :: rest => if lines then pushFront (some '\n') (literalBody lines rest) else none
  | c :: rest =>
    if isPlain c || (lines && c == '\n') then pushFront (some c) (literalBody lines rest) else none

/-! ## Reading shortens -/

theorem closing_length_le (mark : Char) (s : List Char) :
    (closing mark s).2.length ≤ s.length := by
  fun_cases closing mark s <;> simp only [List.length_cons, List.length_nil] <;> omega

/-- What is left behind a text with one more character in front was left behind the text. -/
theorem exists_of_pushFront {c? : Option Char} {r : Option (List Char × List Char)}
    {text rest : List Char} (h : pushFront c? r = some (text, rest)) :
    ∃ text', r = some (text', rest) := by
  match c?, r with
  | none, _ | some _, none => simp [pushFront] at h
  | some _, some (text', rest') =>
    simp only [pushFront, bind, Option.bind, pure, Option.some.injEq, Prod.mk.injEq] at h
    exact ⟨text', by rw [h.2]⟩

theorem quotedBody_length_lt {lines trimming : Bool} {s text rest : List Char}
    (h : quotedBody lines trimming s = some (text, rest)) : rest.length < s.length := by
  fun_induction quotedBody lines trimming s generalizing text with
  | case1 | case6 | case14 => simp at h
  | case2 | case3 | case5 | case8 | case11 | case13 =>
    rename_i ih
    obtain ⟨_, h⟩ := exists_of_pushFront h
    have := ih h
    simp only [List.length_cons]
    omega
  | case4 | case7 | case12 =>
    rename_i ih
    have := ih h
    simp only [List.length_cons]
    omega
  | case9 => simp_all
  | case10 _ _ tail =>
    have := closing_length_le '"' tail
    simp only [Option.some.injEq] at h
    simp only [h, List.length_cons] at *
    omega

theorem literalBody_length_lt {lines : Bool} {s text rest : List Char}
    (h : literalBody lines s = some (text, rest)) : rest.length < s.length := by
  fun_induction literalBody lines s generalizing text with
  | case1 | case6 | case8 => simp at h
  | case2 => simp_all
  | case3 _ tail =>
    have := closing_length_le apostrophe tail
    simp only [Option.some.injEq] at h
    simp only [h, List.length_cons] at *
    omega
  | case4 | case5 | case7 =>
    rename_i ih
    obtain ⟨_, h⟩ := exists_of_pushFront h
    have := ih h
    simp only [List.length_cons]
    omega

/-! ## Texts -/

/-- The characters without a line end in front. -/
def dropLineEnd : List Char → List Char
  | '\n' :: rest => rest
  | '\r' :: '\n' :: rest => rest
  | s => s

theorem dropLineEnd_length_le (s : List Char) : (dropLineEnd s).length ≤ s.length := by
  fun_cases dropLineEnd s with
  | case1 => simp
  | case2 =>
    simp only [List.length_cons]
    omega
  | case3 => exact Nat.le_refl _

/-- Reads a text of one line. -/
def lineText? : Reader String
  | '"' :: s =>
    match h : quotedBody false false s with
    | some (text, rest) =>
      some (String.ofList text, ⟨rest, Nat.lt_succ_of_lt (quotedBody_length_lt h)⟩)
    | none => none
  | '\x27' :: s =>
    match h : literalBody false s with
    | some (text, rest) =>
      some (String.ofList text, ⟨rest, Nat.lt_succ_of_lt (literalBody_length_lt h)⟩)
    | none => none
  | _ => none

/-- Reads a text of one line or of several.  A line end right behind the opening marks is no part
    of the text. -/
def text? : Reader String
  | '"' :: '"' :: '"' :: s =>
    match h : quotedBody true false (dropLineEnd s) with
    | some (text, rest) => some (String.ofList text, ⟨rest, by
        have := quotedBody_length_lt h
        have := dropLineEnd_length_le s
        simp only [List.length_cons]
        omega⟩)
    | none => none
  | '\x27' :: '\x27' :: '\x27' :: s =>
    match h : literalBody true (dropLineEnd s) with
    | some (text, rest) => some (String.ofList text, ⟨rest, by
        have := literalBody_length_lt h
        have := dropLineEnd_length_le s
        simp only [List.length_cons]
        omega⟩)
    | none => none
  | s => lineText? s

end JavaOutline.Toml

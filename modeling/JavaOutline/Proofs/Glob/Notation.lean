import JavaOutline.Glob.Regex
import JavaOutline.Proofs.Glob.Matching

/-!
# Patterns and the regular expressions that spell them

`Regex.ofText?` reads the notation of regular expressions, as far as patterns use it: sets of
characters, repetition, groups that may be left out, and an anchor at both ends.  A character with a
meaning of its own stands for itself only behind a backslash.  The reader knows nothing of patterns.

`Glob.Fits` is what a pattern means, read off its characters from left to right.  It knows nothing
of tokens.

## Key results

- `Regex.read?_regexText`: what is spelled for tokens is read token by token
- `fits_iff_tokensMatch`: a pattern means what its tokens mean
- `matches_ofText?_iff_fits`: the regular expression that is spelled for a pattern matches what the
  pattern means
-/

namespace JavaOutline

/-! ## Reading regular expressions -/

namespace Regex

/-- The characters that have a meaning of their own in the notation. -/
def specials : List Char :=
  ['\\', '.', '+', '*', '?', '(', ')', '|', '[', ']', '\x7b', '\x7d', '^', '$']

/-- Whether a character has a meaning of its own. -/
def isSpecial (c : Char) : Bool :=
  c ∈ specials

/-- Expressions one after the other. -/
def sequence (items : List Regex) : Regex :=
  items.foldr .both .empty

/-- A set of characters any number of times.  Nothing else is repeated in patterns. -/
def repeated? : Regex → Option Regex
  | one set => some (many set)
  | _ => none

/-- An expression that may be left out.  Behind a repetition the same mark would mean something
    else. -/
def optional? : Regex → Option Regex
  | many _ | optional _ => none
  | r => some (optional r)

/-- Reads up to the anchor at the end: `items` are the expressions so far in the innermost group,
    last first, and `around` those in front of each open group. -/
def read? : (items : List Regex) → (around : List (List Regex)) → List Char → Option Regex
  | items, [], ['$'] => some (sequence items.reverse)
  | items, around, '\\' :: c :: rest =>
    if isSpecial c then read? (one (.only c) :: items) around rest else none
  | items, around, '.' :: rest => read? (one (.allBut '\n') :: items) around rest
  | items, around, '[' :: '^' :: c :: ']' :: rest =>
    if isSpecial c then none else read? (one (.allBut c) :: items) around rest
  | items, around, '(' :: '?' :: ':' :: rest => read? [] (items :: around) rest
  | items, outer :: around, ')' :: rest => read? (sequence items.reverse :: outer) around rest
  | item :: items, around, '*' :: rest =>
    item.repeated?.bind fun item => read? (item :: items) around rest
  | item :: items, around, '?' :: rest =>
    item.optional?.bind fun item => read? (item :: items) around rest
  | items, around, c :: rest =>
    if isSpecial c then none else read? (one (.only c) :: items) around rest
  | _, _, [] => none

/-- The regular expression that a text spells between anchors, so that it matches whole texts. -/
def ofText? (text : String) : Option Regex :=
  match text.toList with
  | '^' :: rest => read? [] [] rest
  | _ => none

/-! ## What regular expressions match -/

variable {set : CharSet} {a b : Regex} {s : List Char}

theorem matches_empty_iff : Matches .empty s ↔ s = [] := by
  constructor
  · rintro ⟨⟩
    rfl
  · rintro rfl
    exact .empty

theorem matches_one_iff : Matches (.one set) s ↔ ∃ c, set.contains c = true ∧ s = [c] := by
  constructor
  · intro h
    cases h with
    | one hc => exact ⟨_, hc, rfl⟩
  · rintro ⟨c, hc, rfl⟩
    exact .one hc

theorem matches_many_iff : Matches (.many set) s ↔ ∀ c ∈ s, set.contains c = true := by
  induction s with
  | nil => simpa using Matches.manyNil
  | cons c s ih =>
    rw [List.forall_mem_cons, ← ih]
    constructor
    · intro h
      cases h with
      | manyCons hc hs => exact ⟨hc, hs⟩
    · rintro ⟨hc, hs⟩
      exact .manyCons hc hs

theorem matches_both_iff : Matches (.both a b) s ↔ ∃ u v, s = u ++ v ∧ Matches a u ∧ Matches b v := by
  constructor
  · intro h
    cases h with
    | both ha hb => exact ⟨_, _, rfl, ha, hb⟩
  · rintro ⟨u, v, rfl, ha, hb⟩
    exact .both ha hb

theorem matches_optional_iff : Matches (.optional a) s ↔ s = [] ∨ Matches a s := by
  constructor
  · intro h
    cases h with
    | skip => exact .inl rfl
    | take h => exact .inr h
  · rintro (rfl | h)
    · exact .skip
    · exact .take h

end Regex

/-! ## Reading what is spelled for tokens -/

namespace GlobToken

/-- Whether a token can be spelled: a character that repeats others, or opens or closes a set, is
    never a token of its own. -/
def IsSpellable : GlobToken → Prop
  | char c => c ∉ ['*', '?', '[', ']']
  | _ => True

/-- The expression that is read for a token. -/
def item : GlobToken → Regex
  | directories => .optional (Regex.sequence [.many (.allBut '\n'), .one (.only '/')])
  | t => t.regex

/-- What is read for a token matches what the token stands for. -/
theorem matches_item_iff {t : GlobToken} {s : List Char} :
    t.item.Matches s ↔ Glob.TokenMatches t s := by
  cases t with
  | char c => simp [item, regex, Regex.matches_one_iff, CharSet.contains, Glob.TokenMatches]
  | anyChar => simp [item, regex, Regex.matches_one_iff, CharSet.contains, Glob.TokenMatches]
  -- The two runs differ in the character that they exclude.
  | run =>
    rw [item, regex, Regex.matches_many_iff]
    exact Glob.forall_bne_iff_not_mem
    all_goals simp
  | deepRun =>
    rw [item, regex, Regex.matches_many_iff]
    exact Glob.forall_bne_iff_not_mem
    all_goals simp
  | directories =>
    -- The group matches the directories with the slash behind them.
    have hgroup : (Regex.sequence [.many (.allBut '\n'), .one (.only '/')]).Matches s ↔
        ∃ d, '\n' ∉ d ∧ s = d ++ ['/'] := by
      simp only [Regex.sequence, List.foldr_cons, List.foldr_nil, Regex.matches_both_iff,
        Regex.matches_many_iff, Regex.matches_one_iff, Regex.matches_empty_iff, CharSet.contains,
        Glob.forall_bne_iff_not_mem, beq_iff_eq]
      constructor
      · rintro ⟨d, _, rfl, hd, _, _, rfl, ⟨_, rfl, rfl⟩, rfl⟩
        exact ⟨d, hd, rfl⟩
      · rintro ⟨d, hd, rfl⟩
        exact ⟨d, ['/'], rfl, hd, ['/'], [], rfl, ⟨'/', rfl, rfl⟩, rfl⟩
    rw [item, Regex.matches_optional_iff, hgroup, Glob.TokenMatches]

end GlobToken

namespace Regex

/-- A character without a meaning of its own stands for itself. -/
theorem read?_plain {c : Char} (h : isSpecial c = false) (items : List Regex)
    (around : List (List Regex)) (rest : List Char) :
    read? items around (c :: rest) = read? (one (.only c) :: items) around rest := by
  have hother := h
  simp only [isSpecial, specials, List.mem_cons, List.not_mem_nil, or_false,
    decide_eq_false_iff_not, not_or] at hother
  -- All other rules are about a character with a meaning of its own.
  rw [read?, h]
  · rfl
  all_goals simp [hother]

/-- The characters that are spelled behind a backslash have a meaning of their own. -/
theorem isSpecial_of_isMeta :
    ∀ c ∈ ['.', '(', ')', '+', '|', '^', '$', '\x7b', '\x7d', '\\'], isSpecial c = true := by
  simp [isSpecial, specials]

/-- They are all that have one, besides those that are no tokens of their own. -/
theorem isMeta_or_mem_of_mem_specials :
    ∀ c ∈ specials, CharSet.isMeta c = true ∨ c ∈ ['*', '?', '[', ']'] := by
  simp [specials, CharSet.isMeta]

/-- What is spelled for a token is read as its expression. -/
theorem read?_token {t : GlobToken} (h : t.IsSpellable) (items : List Regex)
    (around : List (List Regex)) (rest : List Char) :
    read? items around (t.regex.text.toList ++ rest) = read? (t.item :: items) around rest := by
  cases t with
  | char c =>
    rw [GlobToken.regex, text, CharSet.text]
    by_cases hmeta : CharSet.isMeta c = true
    -- A character with a meaning is written with a backslash, and read as itself.
    · have hspecial : isSpecial c = true := isSpecial_of_isMeta c (of_decide_eq_true hmeta)
      rw [if_pos hmeta, String.toList_ofList]
      simp only [List.cons_append, List.nil_append, read?, hspecial, if_true]
      rfl
    -- Any other one stands for itself, as brackets were refused.
    · have hplain : isSpecial c = false := by
        refine decide_eq_false fun hc => ?_
        exact (isMeta_or_mem_of_mem_specials c hc).elim hmeta h
      rw [if_neg hmeta, String.toList_singleton]
      exact read?_plain hplain items around rest
  -- The other tokens have fixed texts, which are read character by character.
  | anyChar =>
    have htext : GlobToken.anyChar.regex.text.toList = "[^/]".toList := by decide
    rw [htext]
    simp [read?, isSpecial, specials, GlobToken.item, GlobToken.regex]
  | run =>
    have htext : GlobToken.run.regex.text.toList = "[^/]*".toList := by decide
    rw [htext]
    simp [read?, isSpecial, specials, repeated?, GlobToken.item, GlobToken.regex]
  | deepRun =>
    have htext : GlobToken.deepRun.regex.text.toList = ".*".toList := by decide
    rw [htext]
    simp [read?, repeated?, GlobToken.item, GlobToken.regex]
  | directories =>
    have htext : GlobToken.directories.regex.text.toList = "(?:.*/)?".toList := by decide
    rw [htext]
    simp [read?, isSpecial, specials, repeated?, optional?, sequence, GlobToken.item]

/-- What is spelled for tokens is read token by token. -/
theorem read?_regexText {ts : List GlobToken} (h : ∀ t ∈ ts, t.IsSpellable) :
    ofText? (Glob.mk ts).regexText = some (sequence (ts.map GlobToken.item)) := by
  -- By induction on the tokens, behind any expressions that were read before.
  have hread : ∀ items : List Regex,
      read? items [] ((Glob.mk ts).regex.text.toList ++ ['$']) =
        some (sequence (items.reverse ++ ts.map GlobToken.item)) := by
    induction ts with
    | nil =>
      intro items
      rw [List.map_nil, List.append_nil]
      rfl
    | cons t ts ih =>
      rw [List.forall_mem_cons] at h
      intro items
      have htext : (Glob.mk (t :: ts)).regex.text.toList =
          t.regex.text.toList ++ (Glob.mk ts).regex.text.toList := String.toList_append
      rw [htext, List.append_assoc, read?_token h.1, ih h.2, List.reverse_cons, List.append_assoc]
      rfl
  have htext : (Glob.mk ts).regexText.toList = '^' :: ((Glob.mk ts).regex.text.toList ++ ['$']) := by
    rw [Glob.regexText, String.toList_append, String.toList_append]
    rfl
  rw [ofText?, htext]
  exact hread []

end Regex

namespace Glob

/-- Expressions that are read for tokens match, one after the other, what the tokens mean. -/
theorem matches_sequence_iff {ts : List GlobToken} {s : List Char} :
    (Regex.sequence (ts.map GlobToken.item)).Matches s ↔ TokensMatch ts s := by
  induction ts generalizing s with
  | nil => exact Regex.matches_empty_iff
  | cons t ts ih =>
    have hsequence : Regex.sequence ((t :: ts).map GlobToken.item) =
        .both t.item (Regex.sequence (ts.map GlobToken.item)) := rfl
    simp only [hsequence, Regex.matches_both_iff, GlobToken.matches_item_iff, ih, TokensMatch]

/-! ## What a pattern means -/

/-- Whether a text is what a pattern means, the pattern read from left to right with the longest
    token at each place. -/
inductive Fits : (pattern : List Char) → (text : List Char) → Prop
  | nil : Fits [] []
  | noDirectories {p s : List Char} (h : Fits p s) : Fits ('*' :: '*' :: '/' :: p) s
  | directories {p d s : List Char} (hd : '\n' ∉ d) (h : Fits p s) :
    Fits ('*' :: '*' :: '/' :: p) (d ++ '/' :: s)
  | deepRun {p d s : List Char} (hp : p.head? ≠ some '/') (hd : '\n' ∉ d) (h : Fits p s) :
    Fits ('*' :: '*' :: p) (d ++ s)
  | run {p d s : List Char} (hp : p.head? ≠ some '*') (hd : '/' ∉ d) (h : Fits p s) :
    Fits ('*' :: p) (d ++ s)
  | anyChar {p s : List Char} {c : Char} (hc : c ≠ '/') (h : Fits p s) : Fits ('?' :: p) (c :: s)
  | char {p s : List Char} {c : Char} (hrun : c ≠ '*') (hany : c ≠ '?') (h : Fits p s) :
    Fits (c :: p) (c :: s)

/-- A pattern means what its tokens mean. -/
theorem fits_iff_tokensMatch {p s : List Char} : Fits p s ↔ TokensMatch (tokenize p) s := by
  constructor
  · intro h
    -- Each rule adds the token that stands at the front of the pattern.
    induction h with
    | nil => rfl
    | noDirectories _ ih => exact ⟨[], _, rfl, .inl rfl, ih⟩
    | directories hd _ ih => exact ⟨_ ++ ['/'], _, by simp, .inr ⟨_, hd, rfl⟩, ih⟩
    | deepRun hp hd _ ih =>
      rw [tokenize_deepRun hp]
      exact ⟨_, _, rfl, hd, ih⟩
    | run hp hd _ ih =>
      rw [tokenize_run hp]
      exact ⟨_, _, rfl, hd, ih⟩
    | anyChar hc _ ih => exact ⟨[_], _, rfl, ⟨_, hc, rfl⟩, ih⟩
    | char hrun hany _ ih =>
      rw [tokenize_char hrun hany]
      exact ⟨[_], _, rfl, rfl, ih⟩
  · intro h
    -- The first token tells which rule applies.
    fun_induction tokenize p generalizing s with
    | case1 =>
      obtain rfl : s = [] := h
      exact .nil
    | case2 rest ih =>
      obtain ⟨_, v, rfl, rfl | ⟨d, hd, rfl⟩, hv⟩ := h
      · exact .noDirectories (ih hv)
      · rw [List.append_assoc]
        exact .directories hd (ih hv)
    | case3 rest hslash ih =>
      obtain ⟨u, v, rfl, hu, hv⟩ := h
      -- No slash follows, or the token would be one of directories.
      refine .deepRun (fun hhead => ?_) hu (ih hv)
      obtain ⟨rest', rfl⟩ := List.head?_eq_some_iff.1 hhead
      exact hslash rest' rfl
    | case4 rest _ hstar ih =>
      obtain ⟨u, v, rfl, hu, hv⟩ := h
      -- No second star follows, or the run would be deep.
      refine .run (fun hhead => ?_) hu (ih hv)
      obtain ⟨rest', rfl⟩ := List.head?_eq_some_iff.1 hhead
      exact hstar rest' rfl
    | case5 rest ih =>
      obtain ⟨_, v, rfl, ⟨c, hc, rfl⟩, hv⟩ := h
      exact .anyChar hc (ih hv)
    | case6 c rest _ _ hrun hany ih =>
      obtain ⟨_, v, rfl, rfl, hv⟩ := h
      exact .char hrun hany (ih hv)

/-! ## Patterns that are read -/

/-- Characters without square brackets are read as tokens that can be spelled. -/
theorem isSpellable_of_mem_tokenize {p : List Char} (hopen : '[' ∉ p) (hclose : ']' ∉ p) :
    ∀ t ∈ tokenize p, t.IsSpellable := by
  fun_induction tokenize p with
  | case1 => exact nofun
  -- A token with a fixed text can be spelled.
  | case2 | case3 | case4 | case5 =>
    rename_i ih
    simp only [List.mem_cons, not_or] at hopen hclose
    refine List.forall_mem_cons.2 ⟨trivial, ih ?_ ?_⟩ <;> simp_all
  | case6 c rest _ _ hrun hany ih =>
    simp only [List.mem_cons, not_or] at hopen hclose
    refine List.forall_mem_cons.2 ⟨?_, ih hopen.2 hclose.2⟩
    -- What is no star, question mark or bracket stands for itself.
    have hmarks : c ≠ '*' ∧ c ≠ '?' ∧ c ≠ '[' ∧ c ≠ ']' :=
      ⟨hrun, hany, Ne.symm hopen.1, Ne.symm hclose.1⟩
    simp [GlobToken.IsSpellable, hmarks]

/-- A pattern is refused if and only if it has a square bracket. -/
theorem parse?_eq_none_iff {pattern : String} :
    parse? pattern = none ↔ '[' ∈ pattern.toList ∨ ']' ∈ pattern.toList := by
  -- Only a bracket is refused.
  have hbracket : pattern.toList.any isBracket = true ↔
      '[' ∈ pattern.toList ∨ ']' ∈ pattern.toList := by
    simp only [List.any_eq_true, isBracket, Bool.or_eq_true, beq_iff_eq]
    constructor
    · rintro ⟨c, hc, rfl | rfl⟩
      · exact .inl hc
      · exact .inr hc
    · rintro (h | h)
      · exact ⟨_, h, .inl rfl⟩
      · exact ⟨_, h, .inr rfl⟩
  rw [← hbracket, parse?]
  split <;> simp_all

/-- A pattern that is read has no square bracket, and its tokens are those of its characters. -/
theorem eq_of_parse?_eq_some {pattern : String} {g : Glob} (h : parse? pattern = some g) :
    '[' ∉ pattern.toList ∧ ']' ∉ pattern.toList ∧ g = ⟨tokenize pattern.toList⟩ := by
  have hbracket := mt parse?_eq_none_iff.2 (by rw [h]; exact nofun)
  rw [not_or] at hbracket
  refine ⟨hbracket.1, hbracket.2, ?_⟩
  rw [parse?] at h
  split at h
  · cases h
  · exact (Option.some.inj h).symm

/-- A pattern is refused if and only if it has a square bracket.  Of any other pattern a regular
    expression is spelled that can be read, and it matches a path, as the matcher does, if and only
    if the path is what the pattern means. -/
theorem matches_ofText?_iff_fits (pattern : String) :
    (parse? pattern = none ↔ '[' ∈ pattern.toList ∨ ']' ∈ pattern.toList) ∧
    ∀ g, parse? pattern = some g → ∃ r, Regex.ofText? g.regexText = some r ∧
      ∀ path : String, (r.Matches path.toList ↔ Fits pattern.toList path.toList) ∧
        (g.isMatch path = true ↔ Fits pattern.toList path.toList) := by
  refine ⟨parse?_eq_none_iff, fun g hg => ?_⟩
  obtain ⟨hopen, hclose, rfl⟩ := eq_of_parse?_eq_some hg
  refine ⟨_, Regex.read?_regexText (isSpellable_of_mem_tokenize hopen hclose), fun path => ?_⟩
  constructor
  · rw [matches_sequence_iff, fits_iff_tokensMatch]
  · rw [isMatch_iff_matches, Matches, fits_iff_tokensMatch]

/-- Three stars are read as two and one, and a dot only matches itself. -/
theorem matches_ofText?_iff_fits_threeStars :
    parse? "**/a.b***" = some ⟨[.directories, .char 'a', .char '.', .char 'b', .deepRun, .run]⟩ ∧
    ∃ r, Regex.ofText? "^(?:.*/)?a\\.b.*[^/]*$" = some r ∧ r.Matches "x/a.b/c\n".toList ∧
      ¬r.Matches "x/a_b".toList ∧ Fits "**/a.b***".toList "x/a.b/c\n".toList ∧
      ¬Fits "**/a.b***".toList "x/a_b".toList := by
  have hread : parse? "**/a.b***" =
      some ⟨[.directories, .char 'a', .char '.', .char 'b', .deepRun, .run]⟩ := by decide
  obtain ⟨r, hr, hmatches⟩ := (matches_ofText?_iff_fits "**/a.b***").2 _ hread
  have hline := (hmatches "x/a.b/c\n").2.1 (by decide)
  have hdot := mt (hmatches "x/a_b").2.2 (by decide)
  exact ⟨hread, r, hr, (hmatches _).1.2 hline, mt (hmatches _).1.1 hdot, hline, hdot⟩

end Glob

end JavaOutline

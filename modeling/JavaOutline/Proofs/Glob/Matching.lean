import JavaOutline.Glob.Basic

/-!
# How patterns are read and matched

The reader takes the longest token at each place.

The matcher keeps a row of truth values, one for each suffix of the text, and puts one token after
the other in front.  A row is that of a property if it tells of every suffix whether it has the
property; each kind of row takes the property of the suffixes behind a token to the property of
those that start with the token.

## Key results

- `isRow_tokenRow`: one more token in front
- `isRow_suffixRow`: the row of some tokens tells which suffixes the tokens match
- `isMatch_iff_matches`: the matcher decides what a pattern means
-/

namespace JavaOutline.Glob

/-! ## Reading patterns -/

/-- Two stars without a slash are read as a deep run. -/
theorem tokenize_deepRun {p : List Char} (hp : p.head? ≠ some '/') :
    tokenize ('*' :: '*' :: p) = .deepRun :: tokenize p := by
  rw [tokenize]
  rintro rest rfl
  exact hp rfl

/-- A single star is read as a run. -/
theorem tokenize_run {p : List Char} (hp : p.head? ≠ some '*') :
    tokenize ('*' :: p) = .run :: tokenize p := by
  rw [tokenize]
  · rintro rest rfl
    exact hp rfl
  · rintro rest rfl
    exact hp rfl

/-- A character that is no mark is read as itself. -/
theorem tokenize_char {p : List Char} {c : Char} (hrun : c ≠ '*') (hany : c ≠ '?') :
    tokenize (c :: p) = .char c :: tokenize p := by
  rw [tokenize]
  all_goals simp [hrun, hany]

/-- Only a star is read as a token that starts with a run. -/
theorem head?_tokenize_ne_run {s : List Char} (h : s.head? ≠ some '*') :
    (tokenize s).head? ≠ some .run := by
  fun_cases tokenize s <;> simp_all

/-- Only nothing is read as no token. -/
theorem tokenize_eq_nil {s : List Char} (h : tokenize s = []) : s = [] := by
  fun_cases tokenize s <;> simp_all [tokenize]

/-! ## Rows -/

/-- Whether a row tells of each suffix of a text, longest first, if it has a property. -/
inductive IsRow (p : List Char → Prop) : (s : List Char) → (row : List Bool) → Prop
  | nil {b : Bool} (h : b = true ↔ p []) : IsRow p [] [b]
  | cons {c : Char} {s : List Char} {b : Bool} {row : List Bool} (h : b = true ↔ p (c :: s))
    (hrow : IsRow p s row) : IsRow p (c :: s) (b :: row)

namespace IsRow

variable {p q : List Char → Prop} {s : List Char} {row row' : List Bool}

/-- The first entry is about the text itself. -/
theorem headD_iff (h : IsRow p s row) : row.headD false = true ↔ p s := by
  cases h with
  | nil h => exact h
  | cons h _ => exact h

/-- What matters of a property is which suffixes of the text have it. -/
theorem congr (h : IsRow p s row) (hpq : ∀ t, t <:+ s → (p t ↔ q t)) : IsRow q s row := by
  induction h with
  | nil h => exact .nil (h.trans (hpq _ (List.suffix_refl _)))
  | cons h _ ih =>
    exact .cons (h.trans (hpq _ (List.suffix_refl _)))
      (ih fun t ht => hpq t (ht.trans (List.suffix_cons _ _)))

/-- If no entry is true, no suffix has the property. -/
theorem not_of_any_eq_false (h : IsRow p s row) (hrow : row.any (·) = false) {t : List Char}
    (ht : t <:+ s) : ¬p t := by
  -- The row has one entry for each suffix, so the induction is along both.
  induction h with
  | nil h =>
    obtain rfl := List.suffix_nil.1 ht
    rw [List.any_cons, List.any_nil, Bool.or_false] at hrow
    rw [← h, hrow]
    exact Bool.false_ne_true
  | cons h _ ih =>
    rw [List.any_cons, Bool.or_eq_false_iff] at hrow
    rcases List.suffix_cons_iff.1 ht with rfl | ht
    · rw [← h, hrow.1]
      exact Bool.false_ne_true
    · exact ih hrow.2 ht

/-- Two rows joined entry by entry tell of either property. -/
theorem zipWith_or (h : IsRow p s row) (h' : IsRow q s row') :
    IsRow (fun t => p t ∨ q t) s (List.zipWith (· || ·) row row') := by
  -- Rows of one text are equally long, so the shorter one never cuts the other.
  induction h generalizing row' with
  | nil h =>
    cases h' with
    | nil h' => exact .nil (by rw [Bool.or_eq_true, h, h'])
  | cons h _ ih =>
    cases h' with
    | cons h' hrow' => exact .cons (by rw [Bool.or_eq_true, h, h']) (ih hrow')

end IsRow

/-! ## Tokens in front of a row -/

section

variable {p : List Char → Prop} {s : List Char} {row : List Bool}

/-- Behind the last token nothing may be left. -/
theorem isRow_emptyRow (s : List Char) : IsRow (· = []) s (emptyRow s) := by
  induction s with
  | nil => exact .nil (by simp)
  | cons c s ih => exact .cons (by simp) ih

/-- One character in front. -/
theorem isRow_oneRow (ok : Char → Bool) (h : IsRow p s row) :
    IsRow (fun t => ∃ c v, t = c :: v ∧ ok c = true ∧ p v) s (oneRow ok s row) := by
  induction h with
  | nil _ => exact .nil (by simp)
  | cons _ hrow ih =>
    refine .cons ?_ ih
    rw [Bool.and_eq_true, hrow.headD_iff]
    -- The next row tells whether what follows the character matches.
    constructor
    · rintro ⟨hc, hp⟩
      exact ⟨_, _, rfl, hc, hp⟩
    · rintro ⟨d, v, hs, hd, hv⟩
      obtain ⟨rfl, rfl⟩ := List.cons.inj hs
      exact ⟨hd, hv⟩

/-- Any number of characters in front. -/
theorem isRow_runRow (ok : Char → Bool) (h : IsRow p s row) :
    IsRow (fun t => ∃ u v, t = u ++ v ∧ (∀ c ∈ u, ok c = true) ∧ p v) s (runRow ok s row) := by
  induction h with
  | nil h =>
    refine .nil (h.trans ⟨fun hp => ⟨[], [], rfl, List.forall_mem_nil _, hp⟩, ?_⟩)
    rintro ⟨u, v, hs, -, hv⟩
    obtain ⟨rfl, rfl⟩ := List.append_eq_nil_iff.1 hs.symm
    exact hv
  | @cons c s b row h _ ih =>
    refine .cons ?_ ih
    rw [Bool.or_eq_true, Bool.and_eq_true, ih.headD_iff, h]
    -- The run is over before the character, or it takes the character and goes on behind it.
    constructor
    · rintro (hp | ⟨hc, u, v, rfl, hu, hv⟩)
      · exact ⟨[], c :: s, rfl, List.forall_mem_nil _, hp⟩
      · exact ⟨c :: u, v, rfl, List.forall_mem_cons.2 ⟨hc, hu⟩, hv⟩
    · rintro ⟨u, v, hs, hu, hv⟩
      cases u with
      | nil =>
        left
        rwa [show v = c :: s from hs.symm] at hv
      | cons d u =>
        obtain ⟨rfl, rfl⟩ := List.cons.inj hs
        rw [List.forall_mem_cons] at hu
        exact .inr ⟨hu.1, u, v, rfl, hu.2, hv⟩

/-- A text has no character that all its characters are different from. -/
theorem forall_bne_iff_not_mem {d : Char} {u : List Char} :
    (∀ c ∈ u, (c != d) = true) ↔ d ∉ u := by
  simp only [bne_iff_ne]
  exact ⟨fun h hd => h d hd rfl, fun h c hc hcd => h (hcd ▸ hc)⟩

/-- A character in front is a text of one character in front. -/
theorem exists_cons_iff {q : Char → Prop} {w : List Char} :
    (∃ c v, w = c :: v ∧ q c ∧ p v) ↔ ∃ u v, w = u ++ v ∧ (∃ c, q c ∧ u = [c]) ∧ p v := by
  constructor
  · rintro ⟨c, v, rfl, hc, hv⟩
    exact ⟨[c], v, rfl, ⟨c, hc, rfl⟩, hv⟩
  · rintro ⟨_, v, rfl, ⟨c, hc, rfl⟩, hv⟩
    exact ⟨c, v, rfl, hc, hv⟩

/-- One more token in front. -/
theorem isRow_tokenRow (t : GlobToken) (h : IsRow p s row) :
    IsRow (fun w => ∃ u v, w = u ++ v ∧ TokenMatches t u ∧ p v) s (tokenRow s row t) := by
  cases t with
  | char c =>
    refine (isRow_oneRow (· == c) h).congr fun w _ => ?_
    simp [exists_cons_iff, TokenMatches]
  | anyChar =>
    refine (isRow_oneRow (· != '/') h).congr fun w _ => ?_
    simp only [exists_cons_iff, TokenMatches, bne_iff_ne]
  | run =>
    refine (isRow_runRow (· != '/') h).congr fun w _ => ?_
    simp only [forall_bne_iff_not_mem, TokenMatches]
  | deepRun =>
    refine (isRow_runRow (· != '\n') h).congr fun w _ => ?_
    simp only [forall_bne_iff_not_mem, TokenMatches]
  | directories =>
    -- The token is left out, or it is a run and a slash.
    have hdirs := isRow_runRow (· != '\n') (isRow_oneRow (· == '/') h)
    refine (h.zipWith_or hdirs).congr fun w _ => ?_
    simp only [forall_bne_iff_not_mem, beq_iff_eq, TokenMatches]
    constructor
    · rintro (hp | ⟨u, _, rfl, hu, _, v, rfl, rfl, hv⟩)
      · exact ⟨[], w, rfl, .inl rfl, hp⟩
      · exact ⟨u ++ ['/'], v, by simp, .inr ⟨u, hu, rfl⟩, hv⟩
    · rintro ⟨_, v, rfl, rfl | ⟨d, hd, rfl⟩, hv⟩
      · exact .inl hv
      · exact .inr ⟨d, '/' :: v, by simp, hd, '/', v, rfl, rfl, hv⟩

end

/-- The row of some tokens tells which suffixes the tokens match. -/
theorem isRow_suffixRow (s : List Char) (ts : List GlobToken) :
    IsRow (TokensMatch ts) s (suffixRow s ts) := by
  induction ts with
  | nil => exact isRow_emptyRow s
  | cons t ts ih =>
    rw [suffixRow]
    split
    · exact isRow_tokenRow t ih
    · rename_i hrow
      -- Where the other tokens match no suffix, none starts with the token and goes on with them.
      refine ih.congr fun w hw => ?_
      have hnone : ∀ v, v <:+ s → ¬TokensMatch ts v := fun v hv =>
        ih.not_of_any_eq_false (Bool.eq_false_iff.2 hrow) hv
      refine ⟨fun h => absurd h (hnone w hw), ?_⟩
      rintro ⟨u, v, rfl, -, hv⟩
      exact absurd hv (hnone v ((List.suffix_append u v).trans hw))

/-- The matcher decides what a pattern means. -/
theorem isMatch_iff_matches {g : Glob} {path : String} : g.isMatch path = true ↔ g.Matches path :=
  (isRow_suffixRow path.toList g.tokens).headD_iff

end JavaOutline.Glob

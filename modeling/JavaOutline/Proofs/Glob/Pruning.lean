import JavaOutline.Files.Walk
import JavaOutline.Proofs.Glob.Matching

/-!
# Directories that are not entered

A directory is matched with a slash at its end, and one that matches an exclusion pattern is not
entered.  The slash may be matched by `**`, by `**/` or by a slash of the pattern, and what stands
behind it in the pattern then matches nothing.  A pattern never ends there, so it goes on with a
star; a `**` also matches all that lies below the directory.

The exception is a pattern that ends in a slash and a single star: it matches the directory itself
and what lies directly in it, but not what lies deeper.

## Key results

- `TokensMatch.below`: tokens that match a directory match what lies below it
- `isMatch_below`: an exclusion pattern that matches a directory matches what lies below it
-/

namespace JavaOutline.Glob

/-! ## Tokens of exclusion patterns -/

/-- Whether tokens are as they are read from an exclusion pattern: a run is followed by no run, as
    two stars are one token, and the last token is no slash. -/
def IsExclusion : List GlobToken → Prop
  | [] => True
  | t :: ts =>
    (ts = [] → t ≠ .char '/' ∧ t ≠ .directories) ∧ (t = .run → ts.head? ≠ some .run) ∧
      IsExclusion ts

/-- What does not end in a slash still does not without its first character. -/
theorem getLast?_ne_of_cons {c d : Char} {s : List Char} (h : (c :: s).getLast? ≠ some d) :
    s.getLast? ≠ some d := by
  intro hs
  rw [List.getLast?_cons, hs] at h
  exact h rfl

/-- Characters that do not end in a slash are read as the tokens of an exclusion pattern. -/
theorem isExclusion_tokenize {s : List Char} (h : s.getLast? ≠ some '/') :
    IsExclusion (tokenize s) := by
  fun_induction tokenize s with
  | case1 => trivial
  | case2 rest ih =>
    -- Behind the slash of the token something follows.
    refine ⟨fun hnil => ?_, nofun, ih (getLast?_ne_of_cons (getLast?_ne_of_cons
      (getLast?_ne_of_cons h)))⟩
    rw [tokenize_eq_nil hnil] at h
    exact absurd rfl h
  | case3 rest _ ih =>
    exact ⟨fun _ => ⟨nofun, nofun⟩, nofun, ih (getLast?_ne_of_cons (getLast?_ne_of_cons h))⟩
  | case4 rest _ hstar ih =>
    -- A second star would have been read with the first one.
    have hhead : rest.head? ≠ some '*' := by
      intro hhead
      obtain ⟨rest', rfl⟩ := List.head?_eq_some_iff.1 hhead
      exact hstar rest' rfl
    exact ⟨fun _ => ⟨nofun, nofun⟩, fun _ => head?_tokenize_ne_run hhead,
      ih (getLast?_ne_of_cons h)⟩
  | case5 rest ih => exact ⟨fun _ => ⟨nofun, nofun⟩, nofun, ih (getLast?_ne_of_cons h)⟩
  | case6 c rest _ _ _ _ ih =>
    refine ⟨fun hnil => ⟨?_, nofun⟩, nofun, ih (getLast?_ne_of_cons h)⟩
    rintro hc
    obtain rfl := GlobToken.char.inj hc
    rw [tokenize_eq_nil hnil] at h
    exact h rfl

/-- So are the tokens of any exclusion pattern: a slash at its end is followed by two stars. -/
theorem isExclusion_of_parseExclude? {pattern : String} {g : Glob}
    (h : parseExclude? pattern = some g) : IsExclusion g.tokens := by
  -- A slash at the end is completed to a pattern that ends in stars.
  have hread : ∀ {pattern : String}, parse? pattern = some g →
      pattern.toList.getLast? ≠ some '/' → IsExclusion g.tokens := by
    intro pattern hparse hlast
    rw [parse?] at hparse
    split at hparse
    · cases hparse
    · cases hparse
      exact isExclusion_tokenize hlast
  rw [parseExclude?] at h
  split at h
  · refine hread h ?_
    simp
  · rename_i hlast
    exact hread h (by simpa using hlast)

/-! ## What lies below a directory -/

/-- A text with a slash is cut at its last slash. -/
theorem exists_last_slash {r : List Char} (h : '/' ∈ r) :
    ∃ a b, r = a ++ '/' :: b ∧ '/' ∉ b := by
  induction r with
  | nil => exact nomatch h
  | cons c r ih =>
    by_cases hmem : '/' ∈ r
    · obtain ⟨a, b, rfl, hb⟩ := ih hmem
      exact ⟨c :: a, b, rfl, hb⟩
    · obtain rfl : '/' = c := (List.mem_cons.1 h).resolve_right hmem
      exact ⟨[], r, rfl, hmem⟩

/-- Tokens that match nothing also match any other text on one line, if they are read from an
    exclusion pattern.  Only a single star stops at the next slash. -/
theorem TokensMatch.of_nil {ts : List GlobToken} {r : List Char} (h : TokensMatch ts [])
    (hread : IsExclusion ts) (hne : ts ≠ []) (hrun : ts = [.run] → '/' ∉ r) (hr : '\n' ∉ r) :
    TokensMatch ts r := by
  induction ts generalizing r with
  | nil => exact absurd rfl hne
  | cons t ts ih =>
    obtain ⟨hlast, hruns, hread⟩ := hread
    obtain ⟨u, v, hnil, ht, hts⟩ := h
    obtain ⟨rfl, rfl⟩ := List.append_eq_nil_iff.1 hnil.symm
    -- A token that matches nothing is a star of some kind.
    cases t with
    | char c => exact nomatch ht
    | anyChar =>
      obtain ⟨c, -, hc⟩ := ht
      exact nomatch hc
    | run =>
      by_cases hend : ts = []
      · subst hend
        exact ⟨r, [], (List.append_nil r).symm, hrun rfl, rfl⟩
      · -- The tokens behind the star take the text; the first of them is no star.
        refine ⟨[], r, rfl, List.not_mem_nil, ih hts hread hend (fun hts => ?_) hr⟩
        exact absurd (by rw [hts]; rfl) (hruns rfl)
    | deepRun => exact ⟨r, [], (List.append_nil r).symm, hr, hts⟩
    | directories =>
      have hend : ts ≠ [] := fun hend => (hlast hend).2 rfl
      by_cases hslash : ts = [.run] ∧ '/' ∈ r
      · -- The directories go as far as the last slash, and a star takes the name behind it.
        obtain ⟨rfl, hmem⟩ := hslash
        obtain ⟨a, b, rfl, hb⟩ := exists_last_slash hmem
        have ha : '\n' ∉ a := fun ha => hr (List.mem_append_left _ ha)
        exact ⟨a ++ ['/'], b, by simp, .inr ⟨a, ha, rfl⟩, b, [], (List.append_nil b).symm, hb, rfl⟩
      · refine ⟨[], r, rfl, .inl rfl, ih hts hread hend (fun hrun hmem => ?_) hr⟩
        exact hslash ⟨hrun, hmem⟩

/-- Directories may have more directories in front of them. -/
theorem TokensMatch.below_directories {ts : List GlobToken} {s r : List Char}
    (h : TokensMatch (.directories :: ts) r) (hs : '\n' ∉ s) :
    TokensMatch (.directories :: ts) (s ++ '/' :: r) := by
  obtain ⟨u, v, rfl, hu, hv⟩ := h
  rcases hu with rfl | ⟨d, hd, rfl⟩
  · exact ⟨s ++ ['/'], v, by simp, .inr ⟨s, hs, rfl⟩, hv⟩
  · refine ⟨s ++ '/' :: (d ++ ['/']), v, by simp, .inr ⟨s ++ '/' :: d, ?_, by simp⟩, hv⟩
    simp [hs, hd]

/-- Tokens of an exclusion pattern that match a directory, with a slash at its end, match what lies
    below it.  A slash and a star at the end stop at what lies directly in it. -/
theorem TokensMatch.below {ts : List GlobToken} {s r : List Char} (h : TokensMatch ts (s ++ ['/']))
    (hread : IsExclusion ts) (hchildren : [.char '/', .run] <:+ ts → '/' ∉ r) (hr : '\n' ∉ r) :
    TokensMatch ts (s ++ '/' :: r) := by
  induction ts generalizing s with
  | nil => exact absurd h (List.append_ne_nil_of_right_ne_nil _ (List.cons_ne_nil _ _))
  | cons t ts ih =>
    obtain ⟨u, v, hs, ht, hts⟩ := h
    rcases List.eq_nil_or_concat v with rfl | ⟨w, c, rfl⟩
    · -- The token matches the slash, and the others match nothing.
      obtain rfl : u = s ++ ['/'] := by rw [hs, List.append_nil]
      have hsingle : ∀ {c : Char}, s ++ ['/'] = [c] → s = [] ∧ c = '/' := by
        intro c hc
        rw [List.append_eq_singleton_iff] at hc
        simpa [eq_comm] using hc
      cases t with
      | char c =>
        obtain ⟨rfl, rfl⟩ := hsingle ht
        refine ⟨['/'], r, rfl, rfl, hts.of_nil hread.2.2 (fun hend => (hread.1 hend).1 rfl) ?_ hr⟩
        rintro rfl
        exact hchildren (List.suffix_refl _)
      | anyChar =>
        obtain ⟨c, hc, ht⟩ := ht
        exact absurd (hsingle ht).2 hc
      | run => exact absurd (by simp) ht
      | deepRun =>
        have hs : '\n' ∉ s := fun hmem => ht (List.mem_append_left _ hmem)
        refine ⟨s ++ '/' :: r, [], (List.append_nil _).symm, ?_, hts⟩
        simp [TokenMatches, hs, hr]
      | directories =>
        rcases ht with ht | ⟨d, hd, ht⟩
        · exact absurd ht (by simp)
        · obtain rfl : s = d := List.append_cancel_right ht
          have hnil : TokensMatch (.directories :: ts) [] := ⟨[], [], rfl, .inl rfl, hts⟩
          have hrest : TokensMatch (.directories :: ts) r :=
            hnil.of_nil hread (List.cons_ne_nil _ _) (fun hrun => by cases hrun) hr
          exact hrest.below_directories hd
    · -- The slash is left to the other tokens.
      rw [List.concat_eq_append, ← List.append_assoc] at hs
      obtain ⟨rfl, hc⟩ := List.append_inj' hs rfl
      obtain rfl : '/' = c := List.singleton_inj.1 hc
      rw [List.concat_eq_append] at hts
      have hbelow := ih hts hread.2.2 fun hend => hchildren (hend.trans (List.suffix_cons _ _))
      exact ⟨u, w ++ '/' :: r, List.append_assoc .., ht, hbelow⟩

/-! ## Exclusion patterns -/

/-- Whether a pattern ends in a slash of its own and a single star. -/
def StopsAtChildren (g : Glob) : Prop :=
  [.char '/', .run] <:+ g.tokens

instance (g : Glob) : Decidable g.StopsAtChildren :=
  inferInstanceAs (Decidable (_ <:+ _))

/-- An exclusion pattern that matches a directory, with a slash at its end, matches what lies below
    it on one line.  So a file that is missed because its directory is not entered would have been
    excluded itself.  If the pattern ends in a slash and a single star, this is so for what lies
    directly in the directory. -/
theorem isMatch_below {pattern : String} {g : Glob} {d r : String}
    (hg : parseExclude? pattern = some g) (hchildren : g.StopsAtChildren → '/' ∉ r.toList)
    (hr : '\n' ∉ r.toList) (h : g.isMatch (d ++ "/") = true) :
    g.isMatch (d ++ "/" ++ r) = true ∧
      ∀ {fs : FileSystem} {patterns : List Glob} {maxSize : Nat} {rel path : String},
        g ∈ patterns → Path.withSlashes rel = d ++ "/" ++ r → fs.isDir path = false →
        fs.isExcluded patterns maxSize rel path = true := by
  have hbelow : g.isMatch (d ++ "/" ++ r) = true := by
    rw [isMatch_iff_matches, Matches] at h ⊢
    have hread := isExclusion_of_parseExclude? hg
    have hsplit : (d ++ "/" ++ r).toList = d.toList ++ '/' :: r.toList := by simp
    rw [hsplit]
    exact TokensMatch.below (by simpa using h) hread hchildren hr
  refine ⟨hbelow, ?_⟩
  intro fs patterns maxSize rel path hmem hrel hfile
  -- What is no directory is looked up as it is named, with no slash at its end.
  have hfound : ((fs.entryOf path).toOption).any Entry.isDir = false := by
    rw [FileSystem.isDir] at hfile
    cases hentry : fs.entryOf path with
    | error e => rfl
    | ok e => rwa [hentry] at hfile
  have hany : patterns.any (·.isMatch (d ++ "/" ++ r)) = true :=
    List.any_eq_true.2 ⟨g, hmem, hbelow⟩
  rw [FileSystem.isExcluded, hrel, hfound]
  simp only [Bool.false_and, Bool.false_eq_true, ↓reduceIte, hany, Bool.true_or]

/-- Where the pattern ends so, what lies deeper may not match: then more is left out than the
    pattern by itself stands for. -/
theorem not_isMatch_below :
    ¬∀ (pattern : String) (g : Glob) (d r : String), parseExclude? pattern = some g → d ≠ "" →
      Path.isAbsolute d = false → r ≠ "" → '\n' ∉ r.toList → g.isMatch (d ++ "/") = true →
      g.isMatch (d ++ "/" ++ r) = true := by
  intro hall
  have hdeep : (⟨tokenize ['a', '/', '*']⟩ : Glob).isMatch "a/b/C.java" = true :=
    hall "a/*" _ "a" "b/C.java" rfl (by decide) rfl (by decide) (by decide) rfl
  exact absurd hdeep (by decide)

/-- A pattern for all that is below a directory. -/
def genPattern : Glob :=
  ⟨[.directories, .char 'g', .char 'e', .char 'n', .char '/', .deepRun]⟩

/-- A pattern for what is directly in a directory. -/
def srcPattern : Glob :=
  ⟨[.char 's', .char 'r', .char 'c', .char '/', .run]⟩

/-- A file deep in a directory. -/
def genFiles : FileSystem where
  root := .dir [("gen", .dir [("a", .dir [("B.java", .file [])])])]
  workingDir := []

/-- A file deep below a directory that is not entered, and one directly in such a directory. -/
theorem isMatch_below_genPattern :
    (parseExclude? "**/gen/" = some genPattern ∧ genPattern.isMatch "gen/" = true ∧
      genPattern.isMatch "gen/a/B.java" = true ∧
      genFiles.isExcluded [genPattern] 0 "gen/a/B.java" "/gen/a/B.java" = true) ∧
    parseExclude? "src/*" = some srcPattern ∧ srcPattern.isMatch "src/" = true ∧
      srcPattern.isMatch "src/B.java" = true := by
  have hgen : parseExclude? "**/gen/" = some genPattern := rfl
  have hsrc : parseExclude? "src/*" = some srcPattern := rfl
  have hgenDir : genPattern.isMatch ("gen" ++ "/") = true := rfl
  have hsrcDir : srcPattern.isMatch ("src" ++ "/") = true := rfl
  -- The first pattern matches at any depth, the second one only children.
  have hdeep : ¬genPattern.StopsAtChildren := by decide
  obtain ⟨hmatch, hexcluded⟩ :=
    isMatch_below (r := "a/B.java") hgen (fun h => absurd h hdeep) (by decide) hgenDir
  obtain ⟨hchild, -⟩ := isMatch_below (r := "B.java") hsrc (fun _ => by decide) (by decide) hsrcDir
  refine ⟨⟨hgen, hgenDir, hmatch, ?_⟩, hsrc, hsrcDir, hchild⟩
  exact hexcluded List.mem_cons_self rfl rfl

end JavaOutline.Glob

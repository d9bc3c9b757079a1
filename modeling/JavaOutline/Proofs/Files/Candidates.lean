import JavaOutline.Files.Extract
import JavaOutline.Proofs.Extraction
import JavaOutline.Proofs.Normalize.Provenance
import JavaOutline.Proofs.Outline.RoundTrip

/-!
# Candidates and their outlines

The imports of a source are read in two ways.  To find out whether the source is a candidate they
are read from any tree, also inside what the parser could not place; to extract it they are read
with the declarations, from a tree without an error.  Where nothing is out of place both readings
give the same names, so whether a source is a candidate can be told from its outline.

## Key results

- `imports_unitOf_eq_importsOf`: both readings of the imports agree on a tree in which every node
  has its place
- `extractFile_true`: with the filter on, a candidate is extracted as it is with the filter off
- `candidates_agree_with_extraction`: the filter keeps the files whose outlines mention the marker
-/

namespace JavaOutline

open Syntax (Node)

/-! ## Parts of texts -/

/-- A text occurs in another one where it is a part of it without gaps. -/
theorem Text.occursIn_iff {part whole : List Char} :
    occursIn part whole = true ↔ part <:+: whole := by
  induction whole with
  | nil => simp [occursIn]
  | cons c rest ih =>
    rw [occursIn, Bool.or_eq_true, List.isPrefixOf_iff_prefix, ih, List.infix_cons_iff]

/-- The same for strings. -/
theorem Text.contains_iff {whole part : String} :
    contains whole part = true ↔ part.toList <:+: whole.toList :=
  occursIn_iff

/-- Whether an import of an outline mentions a marker, whatever the case of either. -/
def Outline.Mentions (marker : String) (o : Outline) : Prop :=
  ∃ name ∈ o.imports, (Text.lower marker).toList <:+: (Text.lower name).toList

/-- The search for the marker in some imports finds out whether their outline mentions it. -/
theorem Outline.any_contains_iff {marker : String} {o : Outline} :
    (o.imports.any fun name => Text.contains (Text.lower name) (Text.lower marker)) = true ↔
      o.Mentions marker := by
  simp only [List.any_eq_true, Text.contains_iff, Mentions]

instance (marker : String) (o : Outline) : Decidable (o.Mentions marker) :=
  decidable_of_iff _ Outline.any_contains_iff

/-! ## Two readings of the imports -/

section

variable (source : Bytes)

/-- Only import declarations are read as such. -/
theorem TopLevelForm.ofKind_eq_importName_iff {kind : String} :
    ofKind kind = .importName ↔ kind = "import_declaration" := by
  constructor
  · intro h
    unfold ofKind at h
    split at h
    · cases h
    · split at h
      · rfl
      · cases h
      · cases h
  · rintro rfl
    decide

/-- A node at the top of a file gives an import if it is an import declaration. -/
theorem imports_topLevelAt (budget : Nat) (n : Node) :
    (topLevelAt source (declarationOf source budget) n).value.imports =
      if n.kind == "import_declaration" then (importName? source n).toList else [] := by
  by_cases hkind : n.kind = "import_declaration"
  · rw [topLevelAt, TopLevelForm.ofKind_eq_importName_iff.2 hkind, if_pos (beq_iff_eq.2 hkind)]
    rfl
  · have hform := mt TopLevelForm.ofKind_eq_importName_iff.1 hkind
    rw [topLevelAt, if_neg (mt beq_iff_eq.1 hkind)]
    cases h : TopLevelForm.ofKind n.kind with
    | importName => exact absurd h hform
    | package | typeDecl | unsupported => rfl

/-- Both readings agree on the children of a node if each has its place. -/
theorem imports_topLevelOf_filter (budget : Nat) {ns : List Node}
    (h : ∀ n ∈ ns, n.kind ≠ "ERROR") :
    (topLevelOf source (declarationOf source budget) (ns.filter Node.isContent)).value.imports =
      importsIn source ns := by
  induction ns with
  | nil => rfl
  | cons n ns ih =>
    rw [List.forall_mem_cons] at h
    rw [importsIn, List.filter_cons]
    -- Only one of the readings looks into a node without a place, and there is none.
    split
    · rw [topLevelOf_cons]
      simp only [Noted.value_bind, Noted.value_pure, imports_topLevelAt, ih h.2,
        beq_eq_false_iff_ne.2 h.1, Bool.false_eq_true, ↓reduceIte]
    · exact ih h.2

/-- Both readings agree on a file if every node has its place. -/
theorem imports_unitOf_eq_importsOf (budget : Nat) {root : Node}
    (h : ∀ n ∈ root.preorder, n.kind ≠ "ERROR") :
    (unitOf source budget root).value.imports = importsOf source root := by
  have hchildren := imports_topLevelOf_filter source budget fun n hn =>
    h n (Node.mem_preorder_of_mem_children hn)
  cases root
  rw [importsOf]
  exact hchildren

end

/-! ## Files -/

section

variable {parser : Parser} {options : ExtractOptions} {fs : FileSystem} {path : String}

/-- With the filter off, what is handed out is the persisted outline of the file. -/
theorem extractFile_false (hjava : Path.isJava path = true) :
    extractFile parser options fs false path =
      (extractPath parser options fs path).map fun o => some o.encode := by
  rw [extractFile, if_pos hjava, extractJava, extractPath]
  cases readSource fs path with
  | error e => rfl
  | ok source =>
    simp only [bind, Except.bind, Bool.false_eq_true, ↓reduceIte]
    cases extractSource parser options source path <;> rfl

/-- With the filter on, a candidate is handed out as it is with the filter off, and nothing of any
    other file. -/
theorem extractFile_true (hjava : Path.isJava path = true) :
    extractFile parser options fs true path = do
      if ← isCandidatePath parser options fs path then extractFile parser options fs false path
      else return none := by
  rw [extractFile, if_pos hjava, extractFile, if_pos hjava, extractJava, extractJava,
    isCandidatePath]
  cases readSource fs path with
  -- Both ask for the same text first.
  | error e => rfl
  | ok source =>
    simp only [bind, Except.bind, ↓reduceIte]
    cases isCandidate parser options source path with
    | error e => rfl
    | ok b => cases b <;> rfl

end

/-! ## The filter and extraction -/

/-- Whether a parser reports what it could not place at the root of the tree. -/
def Parser.ReportsErrors (parser : Parser) : Prop :=
  ∀ source root, parser source = some root → root.hasError = false →
    ∀ n ∈ root.preorder, n.kind ≠ "ERROR"

section

variable {parser : Parser} {options : ExtractOptions} {source origin : String} {root : Node}

/-- The answer for a source that was parsed. -/
theorem exists_isCandidate (hparse : parser source = some root) :
    ∃ b, isCandidate parser options source origin = .ok b :=
  ⟨_, isCandidate_eq_ok_iff.2 ⟨root, hparse, rfl⟩⟩

/-- A source whose tree has no error is a candidate if its outline mentions the marker. -/
theorem isCandidate_of_extractSource (hparser : parser.ReportsErrors) {o : Outline}
    (ho : extractSource parser options source origin = .ok o) :
    isCandidate parser options source origin = .ok (decide (o.Mentions options.marker)) := by
  obtain ⟨root, hparse, herror, rfl⟩ := extractSource_eq_ok_iff.1 ho
  rw [isCandidate_eq_ok_iff]
  refine ⟨root, hparse, ?_⟩
  rw [← imports_unitOf_eq_importsOf (utf8 source) options.maxDepth (hparser _ _ hparse herror),
    Bool.eq_iff_iff, Outline.any_contains_iff, decide_eq_true_iff]

/-- A source whose tree has an error is refused with the place of the error. -/
theorem extractSource_of_hasError (hparse : parser source = some root)
    (herror : root.hasError = true) :
    ∃ line column, extractSource parser options source origin =
      .error (.syntaxError origin line column) := by
  refine ⟨(errorPlace (utf8 source) root).1, (errorPlace (utf8 source) root).2, ?_⟩
  simp [extractSource, extractNoted, parseSource, hparse, herror, bind, Except.bind, throw,
    throwThe, MonadExceptOf.throw]

end

/-- The filter agrees with extraction, for any parser that reports errors at the root.

    A source whose tree has no error is a candidate if and only if its outline mentions the marker.
    So a Java file with such a tree is extracted with the filter off, and with the filter on it is
    extracted to the same bytes or passed over, whichever the outline in these bytes tells.  A Java
    file whose tree has an error is passed over or refused with the error that extraction gives,
    whichever the imports that can be read tell. -/
theorem candidates_agree_with_extraction {parser : Parser} (hparser : parser.ReportsErrors)
    (options : ExtractOptions) {source : String} {root : Node}
    (hparse : parser source = some root) :
    (∀ origin, root.hasError = false →
      ∃ o b, extractSource parser options source origin = .ok o ∧
        isCandidate parser options source origin = .ok b ∧
        (b = true ↔ o.Mentions options.marker)) ∧
    ∀ {fs : FileSystem} {path : String}, Path.isJava path = true → fs.readText path = .ok source →
      (root.hasError = false →
        ∃ bytes o, (extractPath parser options fs path).map Outline.encode = .ok bytes ∧
          extractFile parser options fs false path = .ok (some bytes) ∧
          Outline.decode bytes = .ok o ∧
          extractFile parser options fs true path =
            .ok (if o.Mentions options.marker then some bytes else none)) ∧
      (root.hasError = true →
        ∃ line column b,
          extractPath parser options fs path = .error (.syntaxError path line column) ∧
          isCandidatePath parser options fs path = .ok b ∧
          extractFile parser options fs true path =
            if b then .error (.syntaxError path line column) else .ok none) := by
  have hextract : root.hasError = false → ∀ origin,
      ∃ o, extractSource parser options source origin = .ok o := fun herror origin =>
    ⟨_, extractSource_eq_ok_iff.2 ⟨root, hparse, herror, rfl⟩⟩
  refine ⟨fun origin herror => ?_, ?_⟩
  · obtain ⟨o, ho⟩ := hextract herror origin
    -- The filter answers before extraction, but it answers what the outline tells.
    exact ⟨o, _, ho, isCandidate_of_extractSource hparser ho, decide_eq_true_iff⟩
  intro fs path hjava hread
  -- Both entry points read the file themselves; on a readable one they come down to its source.
  have hsource : readSource fs path = .ok source := by rw [readSource, hread]
  have hpath : extractPath parser options fs path = extractSource parser options source path := by
    rw [extractPath, hsource]
    rfl
  have hcandidate :
      isCandidatePath parser options fs path = isCandidate parser options source path := by
    rw [isCandidatePath, hsource]
    rfl
  refine ⟨fun herror => ?_, fun herror => ?_⟩
  · obtain ⟨o, ho⟩ := hextract herror path
    have hfile : extractFile parser options fs false path = .ok (some o.encode) := by
      rw [extractFile_false hjava, hpath, ho]
      rfl
    have hdecode : Outline.decode o.encode = .ok o :=
      Outline.decode_of_parse?_eq_envelope (Json.parse?_compact o.wellSpelled_envelope)
    refine ⟨o.encode, o, ?_, hfile, hdecode, ?_⟩
    · rw [hpath, ho]
      rfl
    · rw [extractFile_true hjava, hcandidate, isCandidate_of_extractSource hparser ho, hfile]
      by_cases hmentions : o.Mentions options.marker <;>
        simp [hmentions, bind, Except.bind, pure, Except.pure]
  · obtain ⟨line, column, herr⟩ := extractSource_of_hasError hparse herror
    obtain ⟨b, hb⟩ := exists_isCandidate hparse
    refine ⟨line, column, b, hpath.trans herr, hcandidate.trans hb, ?_⟩
    rw [extractFile_true hjava, extractFile_false hjava, hcandidate, hb, hpath, herr]
    cases b <;> rfl

/-- The tree of an import of a name of three letters, with or without its semicolon. -/
def oneImportTree (hasSemicolon : Bool) : Node :=
  let stop := if hasSemicolon then 11 else 10
  let semicolon : Node :=
    { kind := ";", start := 10, stop, isMissing := !hasSemicolon, hasError := !hasSemicolon }
  let declaration : Node :=
    { kind := "import_declaration", stop, isNamed := true, hasError := !hasSemicolon
      children := [{ kind := "import", stop := 6 },
        { kind := "identifier", start := 7, stop := 10, isNamed := true }, semicolon] }
  { kind := "program", stop, isNamed := true, hasError := !hasSemicolon
    children := [declaration] }

/-- A parser that knows two sources. -/
def oneImportParser : Parser := fun source =>
  if source = "import JMH;" then some (oneImportTree true)
  else if source = "import jmh" then some (oneImportTree false)
  else none

/-- A directory with both sources. -/
def oneImportFiles : FileSystem where
  root := .dir [("A.java", .file (utf8 "import JMH;")), ("B.java", .file (utf8 "import jmh"))]
  workingDir := []

/-- It reports the semicolon that is missing. -/
theorem reportsErrors_oneImportParser : oneImportParser.ReportsErrors := by
  intro source root hparse herror
  rw [oneImportParser] at hparse
  split at hparse
  · obtain rfl := Option.some.inj hparse
    simp [oneImportTree, Node.preorder_eq]
  · split at hparse
    · obtain rfl := Option.some.inj hparse
      exact nomatch herror
    · exact nomatch hparse

/-- The outline of the source with a semicolon. -/
def oneImportOutline : Outline := { imports := ["JMH"], namespaces := [] }

/-- Of the two files the first is extracted for one marker and passed over for another, and the
    second is a candidate that is refused. -/
theorem candidates_agree_with_extraction_oneImport :
    (isCandidate oneImportParser {} "import JMH;" "" = .ok true ∧
      extractFile oneImportParser {} oneImportFiles true "A.java" =
        .ok (some oneImportOutline.encode) ∧
      extractFile oneImportParser { marker := "junit" } oneImportFiles true "A.java" = .ok none) ∧
    ∃ line column, extractFile oneImportParser {} oneImportFiles true "B.java" =
      .error (.syntaxError "B.java" line column) := by
  have hreports := reportsErrors_oneImportParser
  have hparse : oneImportParser "import JMH;" = some (oneImportTree true) := rfl
  have hread : oneImportFiles.readText "A.java" = .ok "import JMH;" := rfl
  have hmentions : oneImportOutline.Mentions "jmh" ∧ ¬oneImportOutline.Mentions "junit" := by
    decide
  -- What the first file holds is the outline, for any options.
  have hfile : ∀ options : ExtractOptions,
      extractFile oneImportParser options oneImportFiles true "A.java" =
        .ok (if oneImportOutline.Mentions options.marker then some oneImportOutline.encode
          else none) := by
    intro options
    have hpath : extractPath oneImportParser options oneImportFiles "A.java" =
        .ok oneImportOutline := rfl
    obtain ⟨-, hfiles⟩ := candidates_agree_with_extraction hreports options hparse
    obtain ⟨bytes, o, hbytes, -, hdecode, hon⟩ := (hfiles rfl hread).1 rfl
    rw [hpath] at hbytes
    obtain rfl : oneImportOutline.encode = bytes := Except.ok.inj hbytes
    have hself : Outline.decode oneImportOutline.encode = .ok oneImportOutline :=
      Outline.decode_of_parse?_eq_envelope
        (Json.parse?_compact oneImportOutline.wellSpelled_envelope)
    obtain rfl : oneImportOutline = o := Except.ok.inj (hself.symm.trans hdecode)
    exact hon
  refine ⟨⟨?_, ?_, ?_⟩, ?_⟩
  · obtain ⟨hsource, -⟩ := candidates_agree_with_extraction hreports {} hparse
    obtain ⟨o, b, ho, hb, hiff⟩ := hsource "" rfl
    obtain rfl : oneImportOutline = o := Except.ok.inj ho
    rw [hb, hiff.2 hmentions.1]
  · rw [hfile, if_pos hmentions.1]
  · rw [hfile, if_neg hmentions.2]
  · have hparse : oneImportParser "import jmh" = some (oneImportTree false) := rfl
    have hread : oneImportFiles.readText "B.java" = .ok "import jmh" := rfl
    obtain ⟨-, hfiles⟩ := candidates_agree_with_extraction hreports {} hparse
    obtain ⟨line, column, b, -, hcandidate, hon⟩ := (hfiles rfl hread).2 rfl
    obtain rfl : true = b := Except.ok.inj hcandidate
    exact ⟨line, column, hon⟩

end JavaOutline

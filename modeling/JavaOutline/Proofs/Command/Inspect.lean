import JavaOutline.Command.Run
import JavaOutline.Proofs.Json.Blanks
import JavaOutline.Proofs.Outline.RoundTrip

/-!
# Showing a persisted outline

An outline is written in two forms, the compact one that is persisted and the indented one that is
shown.  Both are the same document: they differ in blanks only, and both are read as the outline.
What was shown may therefore take the place of the file, and showing it again changes nothing.

## Key results

- `Outline.withoutBlanks_encodePretty`: the shown form without its blanks is the persisted form
- `run_inspect`: the outcome of a run that shows an outline as a document
- `inspect_shows_document`: what is shown is the document, read and shown again as it is
-/

namespace JavaOutline

namespace Outline

/-! ## The two forms -/

/-- The shown form without its blanks is the persisted form. -/
theorem withoutBlanks_encodePretty (o : Outline) : Json.withoutBlanks o.encodePretty = o.encode :=
  Json.withoutBlanks_pretty o.wellSpelled_envelope

/-- The shown form is read as the outline, with or without a line break behind it. -/
theorem decode_encodePretty_append (o : Outline) (blanks : Bytes)
    (hends : Json.endsNumber blanks = true) (hb : Json.areBlank blanks = true) :
    decode (o.encodePretty ++ blanks) = .ok o :=
  decode_of_parse?_eq_envelope (Json.parse?_pretty_append o.wellSpelled_envelope hends hb)

end Outline

namespace Command

/-! ## Runs that show a document -/

/-- The shown form does not end with a line break, so it gets one. -/
theorem withLineBreak_encodePretty (o : Outline) :
    withLineBreak o.encodePretty = o.encodePretty ++ [Json.newline] := by
  obtain ⟨front, hfront⟩ := Json.exists_pretty_object (Json.escape "schema", Json.text schemaName)
    [(Json.escape "version", .number (Json.decimal schemaVersion)), (Json.escape "root", o.toJson)]
  have hpretty : o.encodePretty = front ++ [Json.objectClose] := hfront
  rw [withLineBreak, hpretty, List.getLast?_concat]
  rfl

/-- Whether arguments ask to show a file as a document. -/
def InspectsAsJson (arguments : List String) (file : String) : Prop :=
  Request.ofArguments? arguments = some (.inspect { file, format := .json })

variable {parser : Parser} {home file : String} {fs : FileSystem} {arguments : List String}
  {content : Bytes} {o : Outline}

/-- A run that shows an outline as a document prints its shown form and a line break. -/
theorem run_inspect (ha : InspectsAsJson arguments file) (hread : fs.readBytes file = .ok content)
    (hdecode : Outline.decode content = .ok o) :
    run parser home fs arguments =
      { files := fs, exitCode := 0, output := o.encodePretty ++ [Json.newline] } := by
  rw [run, ha]
  simp only [InspectRequest.run, hread, hdecode, Outline.render, withLineBreak_encodePretty]

/-- The shown and the persisted form of an outline are the same document: they differ in blanks
    outside strings only, and both are read as the outline.  So is what is printed of a file that
    holds the outline, and a file with what was printed is printed as it is. -/
theorem inspect_shows_document (o : Outline) :
    let shown := o.encodePretty ++ [Json.newline]
    Json.withoutBlanks o.encodePretty = o.encode ∧
    Outline.decode o.encodePretty = .ok o ∧
    ∀ {parser : Parser} {home file : String} {fs : FileSystem} {arguments : List String}
      {content : Bytes}, InspectsAsJson arguments file → fs.readBytes file = .ok content →
      Outline.decode content = .ok o →
      run parser home fs arguments = { files := fs, exitCode := 0, output := shown } ∧
      Outline.decode shown = .ok o ∧
      ∀ {parser : Parser} {home file : String} {fs : FileSystem} {arguments : List String},
        InspectsAsJson arguments file → fs.readBytes file = .ok shown →
        run parser home fs arguments = { files := fs, exitCode := 0, output := shown } := by
  intro shown
  have hdecode : Outline.decode o.encodePretty = .ok o := by
    have h := o.decode_encodePretty_append [] rfl rfl
    rwa [List.append_nil] at h
  -- The line break that is printed behind the document is one more blank.
  have hshown : Outline.decode shown = .ok o :=
    o.decode_encodePretty_append [Json.newline] rfl rfl
  refine ⟨o.withoutBlanks_encodePretty, hdecode, ?_⟩
  intro _ _ _ _ _ _ ha hread hcontent
  refine ⟨run_inspect ha hread hcontent, hshown, ?_⟩
  intro _ _ _ _ _ ha hread
  exact run_inspect ha hread hshown

/-- A directory with one file. -/
def oneFile (name : String) (content : Bytes) : FileSystem :=
  { root := .dir [(name, .file content)], workingDir := [] }

/-- An outline with blanks and a quote in its texts. -/
def blankOutline : Outline := { imports := ["a b", "\t\"\n"], namespaces := [] }

/-- A persisted outline is shown, and what was shown is shown again. -/
theorem inspect_shows_document_blankOutline :
    let shown := blankOutline.encodePretty ++ [Json.newline]
    run (fun _ => none) "/" (oneFile "a.ast" blankOutline.encode)
      ["inspect", "a.ast", "--format", "json"] =
        { files := oneFile "a.ast" blankOutline.encode, exitCode := 0, output := shown } ∧
    Outline.decode shown = .ok blankOutline ∧
    run (fun _ => none) "/" (oneFile "b.ast" shown) ["inspect", "--format=json", "b.ast"] =
      { files := oneFile "b.ast" shown, exitCode := 0, output := shown } := by
  intro shown
  -- The arguments ask for JSON in both spellings of the option.
  have hasks : ∀ {arguments : List String} {file : String},
      InspectRequest.ofArguments? arguments = some { file, format := .json } →
      InspectsAsJson ("inspect" :: arguments) file := fun h =>
    congrArg (Option.map Request.inspect) h
  have hfirst : InspectsAsJson ["inspect", "a.ast", "--format", "json"] "a.ast" :=
    hasks (by with_unfolding_all rfl)
  have hagain : InspectsAsJson ["inspect", "--format=json", "b.ast"] "b.ast" :=
    hasks (by with_unfolding_all rfl)
  -- The file holds the outline as it was written first, and the shown text after that.
  have hread : ∀ content, (oneFile "a.ast" content).readBytes "a.ast" = .ok content :=
    fun _ => rfl
  have hreadAgain : ∀ content, (oneFile "b.ast" content).readBytes "b.ast" = .ok content :=
    fun _ => rfl
  -- The document is not run through the reader, as its bytes are those of an outline.
  have hdecode : Outline.decode blankOutline.encode = .ok blankOutline :=
    Outline.decode_of_parse?_eq_envelope (Json.parse?_compact blankOutline.wellSpelled_envelope)
  obtain ⟨-, -, hruns⟩ := inspect_shows_document blankOutline
  obtain ⟨hrun, hshown, hsecond⟩ := hruns hfirst (hread _) hdecode
  exact ⟨hrun, hshown, hsecond hagain (hreadAgain shown)⟩

end Command

end JavaOutline

import JavaOutline.Command.Batch
import JavaOutline.Proofs.Files.Growth
import JavaOutline.Proofs.Files.Walk

/-!
# Output directories

No link is in an output directory, so the path of an output can only lead to the place that its
names say.  Different sources have their outputs at different places, and no output is a Java
source itself.

## Key results

- `OutputDir.place_eq`: where the path of an output leads
- `outputPlace_inj`: different sources have different outputs
- `ne_outputPlace_of_isJava`: no output is a Java source
-/

namespace JavaOutline.Command

open FileSystem (Leads Grew LeadsTo Grounded)

/-- A directory that a path leads to, with no link in it. -/
structure OutputDir (fs : FileSystem) (out : String) (o : List String) : Prop where
  grounded : fs.Grounded
  leads : Leads fs.root FileSystem.linkLimit (fs.start out) (Path.parts out) (.found o)
  dir : ∃ children, fs.root.get? o = some (.dir children)
  noLinks : ∀ names t, fs.root.get? (o ++ names) ≠ some (.link t)

namespace OutputDir

variable {fs fs' : FileSystem} {out rel : String} {o : List String}

/-- A path that leads to a place where there is no file leads to a directory. -/
theorem of_follow (hfs : fs.Grounded)
    (hleads : fs.follow (fs.start out) (Path.parts out) = .ok (.found o))
    (hfile : ∀ content, fs.root.get? o ≠ some (.file content))
    (hlinks : ∀ names t, fs.root.get? (o ++ names) ≠ some (.link t)) : OutputDir fs out o := by
  have hleads := (FileSystem.follow_eq_ok_iff (hfs.start out)).1 hleads
  refine ⟨hfs, hleads, ?_, hlinks⟩
  rcases hleads.end_cases (hfs.start out) with ⟨q, e, hq, hget, hlink⟩ | ⟨dir, name, _, hq, -, -⟩
  -- What is found at the end is a directory, as it is no file and all links are followed.
  · cases hq
    cases e with
    | dir children => exact ⟨children, hget⟩
    | file content => exact absurd hget (hfile content)
    | link t => exact absurd rfl (hlink t)
  · exact nomatch hq

/-- An output directory is no file. -/
theorem ne_file (h : OutputDir fs out o) (content : Bytes) :
    fs.root.get? o ≠ some (.file content) := by
  intro hget
  obtain ⟨children, hdir⟩ := h.dir
  cases hget.symm.trans hdir

/-- An output directory stays one. -/
theorem grew {free : List String → Prop} (h : OutputDir fs out o) (hgrew : Grew free fs fs') :
    OutputDir fs' out o where
  grounded := hgrew.grounded h.grounded
  leads := hgrew.start_eq out ▸ h.leads.keeps hgrew.root
  dir := by
    obtain ⟨children, hdir⟩ := h.dir
    exact hgrew.root.dirs hdir
  noLinks names t ht := h.noLinks names t (hgrew.root.links.1 ht)

/-- The path of something in an output directory goes through this directory. -/
theorem leads_join (hrel : Path.IsRelative rel) {p : Place} :
    Leads fs.root FileSystem.linkLimit (fs.start (Path.join out rel))
        (FileSystem.steps (Path.join out rel)) p ↔
      Leads fs.root FileSystem.linkLimit (fs.start out) (Path.parts out ++ Path.parts rel) p := by
  rw [FileSystem.start, FileSystem.start, hrel.isAbsolute_join, FileSystem.steps,
    hrel.endsInSlash_join, Path.parts_join out rel hrel.isAbsolute]
  simp

/-- The path of something in an output directory leads to the place that its names say. -/
theorem place_eq (h : OutputDir fs out o) (hrel : Path.IsRelative rel) {p : Place}
    (hp : fs.LeadsTo (Path.join out rel) p) : p.place = o ++ Path.parts rel := by
  obtain ⟨children, hdir⟩ := h.dir
  -- Behind the directory there is no link, and no part goes up again.
  obtain ⟨limit, hway⟩ := h.leads.of_append hdir ((leads_join hrel).1 hp.2)
  refine hway.place_eq h.noLinks fun part hpart => ?_
  have hname := hrel.isName_of_mem_parts part hpart
  exact ⟨hname.ne_dot, hname.ne_dots⟩

/-- What is written into an output directory is found at the place that its names say. -/
theorem grew_writeBytes (h : OutputDir fs out o) (hrel : Path.IsRelative rel) {content : Bytes}
    (hwrite : fs.writeBytes (Path.join out rel) content = .ok fs') :
    Grew (· = o ++ Path.parts rel) fs fs' ∧
      fs'.LeadsTo (Path.join out rel) (.found (o ++ Path.parts rel)) ∧
      fs'.root.get? (o ++ Path.parts rel) = some (.file content) := by
  obtain ⟨p, hp, hgrew, hleads, hfile⟩ := FileSystem.grew_writeBytes h.grounded hwrite
  rw [h.place_eq hrel hp] at hgrew hleads hfile
  exact ⟨hgrew, hleads, hfile⟩

end OutputDir

/-! ## Outputs -/

/-- The place of the output of a source. -/
def outputPlace (o : List String) (rel : String) : List String :=
  o ++ Path.parts (outputOf rel)

/-- The place of the manifest. -/
def manifestPlace (o : List String) : List String :=
  o ++ [Manifest.fileName]

theorem isName_manifest : Path.IsName Manifest.fileName := by
  constructor <;> decide

/-- A name stays a name with another ending. -/
theorem isName_append_ast {name : String} (h : Path.IsName name) :
    Path.IsName (name ++ ".ast") := by
  have hlength : (name ++ ".ast").length = name.length + 4 := by
    rw [String.length_append]
    rfl
  -- The name got too long to be one of the special ones.
  have hshort : ∀ s : String, s.length < 4 → name ++ ".ast" ≠ s := by
    rintro s hs rfl
    omega
  constructor
  · exact hshort "" (by decide)
  · exact hshort "." (by decide)
  · exact hshort ".." (by decide)
  · rw [String.toList_append, List.mem_append, not_or]
    exact ⟨h.no_slash, by decide⟩

/-- The output of a source is named after it. -/
theorem exists_parts_outputOf {rel : String} (h : Path.IsRelative rel) :
    ∃ names name, outputOf rel = "/".intercalate (names ++ [name ++ ".ast"]) ∧
      ∀ n ∈ names ++ [name ++ ".ast"], Path.IsName n := by
  obtain ⟨names, name, rfl, hnames⟩ := h
  refine ⟨names, name, ?_, ?_⟩
  · rw [outputOf]
    -- The extension is added to the last name only.
    by_cases hnil : names = []
    · simp [hnil]
    · rw [String.intercalate_append_of_ne_nil hnil (by simp),
        String.intercalate_append_of_ne_nil hnil (by simp)]
      simp [String.append_assoc]
  · simp only [List.forall_mem_append, List.forall_mem_singleton] at hnames ⊢
    exact ⟨hnames.1, isName_append_ast hnames.2⟩

theorem isRelative_outputOf {rel : String} (h : Path.IsRelative rel) :
    Path.IsRelative (outputOf rel) := by
  obtain ⟨names, name, heq, hnames⟩ := exists_parts_outputOf h
  exact ⟨names, name ++ ".ast", heq, hnames⟩

/-- Different sources have different outputs. -/
theorem outputPlace_inj {o : List String} {rel rel' : String} (h : Path.IsRelative rel)
    (h' : Path.IsRelative rel') (heq : outputPlace o rel = outputPlace o rel') : rel = rel' := by
  have hparts := List.append_cancel_left heq
  -- Equal places have equal parts, and relative paths are their parts.
  have houtput : outputOf rel = outputOf rel' := by
    rw [← (isRelative_outputOf h).intercalate_parts, hparts,
      (isRelative_outputOf h').intercalate_parts]
  rw [outputOf, outputOf, ← String.toList_inj, String.toList_append, String.toList_append]
    at houtput
  exact String.toList_inj.1 (List.append_cancel_right houtput)

/-- The manifest is no output. -/
theorem manifestPlace_ne_outputPlace {o : List String} {rel : String} (h : Path.IsRelative rel) :
    manifestPlace o ≠ outputPlace o rel := by
  intro heq
  obtain ⟨names, name, houtput, hnames⟩ := exists_parts_outputOf h
  have hparts := List.append_cancel_left heq
  rw [houtput, Path.parts_intercalate hnames] at hparts
  -- The last names would be equal, but they end in different letters.
  have hlast : Manifest.fileName = name ++ ".ast" := by
    simpa using congrArg List.getLast? hparts
  have hend := congrArg (·.toList.getLast?) hlast
  simp [Manifest.fileName] at hend

/-- No output is a Java source. -/
theorem ne_outputPlace_of_isJava {path : String} (hjava : Path.isJava path = true)
    (o : List String) {rel : String} (h : Path.IsRelative rel) :
    Path.parts path ≠ outputPlace o rel := by
  intro heq
  obtain ⟨names, name, houtput, hnames⟩ := exists_parts_outputOf h
  rw [outputPlace, houtput, Path.parts_intercalate hnames, ← List.append_assoc] at heq
  -- By its extension an output is no Java source.
  have hnot := Path.isJava_of_append (hnames _ (by simp)) heq
  exact Bool.noConfusion (hnot.symm.trans hjava)

/-- No output is a source. -/
theorem ne_outputPlace_of_isSource {fs : FileSystem} {s : SourceFile} {content : Bytes}
    (hs : IsSource fs s content) (o : List String) {rel : String} (h : Path.IsRelative rel) :
    Path.parts s.path ≠ outputPlace o rel :=
  ne_outputPlace_of_isJava hs.java o h

end JavaOutline.Command

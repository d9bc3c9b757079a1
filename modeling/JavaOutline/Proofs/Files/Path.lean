import JavaOutline.Files.Walk
import Mathlib.Data.List.Infix

/-!
# Parts of paths

A path is resolved part by part, so what matters of a path are its parts.  The parts of a joined
path are those of both sides, and a path that was put together from names has these names as its
parts.

## Key results

- `Path.parts_join`: the parts of a joined path
- `Path.parts_intercalate`: names between slashes are the parts
- `FileSystem.parts_pathOf`: the parts of the absolute path of a place are the names of the place
- `Path.isJava_of_append`: a file whose name ends in `.ast` is no Java source
-/

namespace JavaOutline

/-! ## Splitting -/

namespace Text

variable {separator : Char}

/-- Splitting gives at least one piece. -/
theorem split_ne_nil (cs : List Char) : split separator cs ≠ [] := by
  cases cs with
  | nil => simp [split]
  | cons c cs =>
    rw [split]
    split
    · simp
    · split <;> simp

/-- A text without the separator is one piece. -/
theorem split_of_not_mem {cs : List Char} (h : separator ∉ cs) : split separator cs = [cs] := by
  induction cs with
  | nil => rfl
  | cons c cs ih =>
    rw [List.mem_cons, not_or] at h
    rw [split, if_neg (by simpa using Ne.symm h.1), ih h.2]

/-- A separator cuts a text in two, which are split on their own. -/
theorem split_append (as bs : List Char) :
    split separator (as ++ separator :: bs) = split separator as ++ split separator bs := by
  induction as with
  | nil => simp [split]
  | cons a as ih =>
    rw [List.cons_append, split, split]
    split
    · rw [ih]
      rfl
    · rw [ih]
      -- Otherwise the character joins the first piece, which is there.
      cases hsplit : split separator as with
      | nil => exact absurd hsplit (split_ne_nil as)
      | cons piece pieces => rfl

/-- A character that is in none of the texts is not in them between separators, unless it is in the
    separator. -/
theorem not_mem_intercalate {c : Char} {between : String} (hc : c ∉ between.toList)
    {texts : List String} (h : ∀ text ∈ texts, c ∉ text.toList) :
    c ∉ (between.intercalate texts).toList := by
  induction texts with
  | nil => simp
  | cons text texts ih =>
    rw [List.forall_mem_cons] at h
    -- Behind the last text there is nothing in between.
    by_cases hnil : texts = []
    · simpa [hnil] using h.1
    · rw [String.intercalate_cons_of_ne_nil hnil, String.toList_append, String.toList_append,
        List.mem_append, List.mem_append, not_or, not_or]
      exact ⟨⟨h.1, hc⟩, ih h.2⟩

end Text

namespace Path

/-! ## Parts -/

@[simp] theorem parts_empty : parts "" = [] := rfl

/-- What stands before the slash at the end of a path. -/
theorem exists_of_endsInSlash {path : String} (h : endsInSlash path = true) :
    ∃ init, path.toList = init ++ ['/'] := by
  rw [endsInSlash, beq_iff_eq] at h
  exact List.getLast?_eq_some_iff.1 h

/-- A slash cuts a path in two. -/
theorem parts_append_slash (a b : String) : parts (a ++ "/" ++ b) = parts a ++ parts b := by
  have hlist : (a ++ "/" ++ b).toList = a.toList ++ '/' :: b.toList := by simp
  rw [parts, hlist, Text.split_append]
  simp [parts]

/-- The parts of a joined path are those of both sides. -/
theorem parts_join (base path : String) (h : isAbsolute path = false) :
    parts (join base path) = parts base ++ parts path := by
  unfold join
  rw [h, Bool.false_or]
  split
  · rename_i hempty
    rw [String.isEmpty_iff.1 hempty]
    rfl
  · split
    · -- The slash at the end of the base is the one in between.
      rename_i hslash
      obtain ⟨init, hinit⟩ := exists_of_endsInSlash hslash
      have hbase : base = String.ofList init ++ "/" ++ "" := by
        rw [← String.toList_inj, hinit]
        simp
      have hjoined : base ++ path = String.ofList init ++ "/" ++ path := by
        rw [hbase, String.append_empty]
      rw [hjoined, parts_append_slash]
      conv => rhs; rw [hbase, parts_append_slash]
      simp
    · exact parts_append_slash base path

/-- A name that an entry of a directory can have. -/
structure IsName (name : String) : Prop where
  ne_empty : name ≠ ""
  ne_dot : name ≠ "."
  ne_dots : name ≠ ".."
  no_slash : '/' ∉ name.toList

instance (name : String) : Decidable (IsName name) :=
  decidable_of_iff (name ≠ "" ∧ name ≠ "." ∧ name ≠ ".." ∧ '/' ∉ name.toList)
    ⟨fun ⟨h₁, h₂, h₃, h₄⟩ => ⟨h₁, h₂, h₃, h₄⟩, fun ⟨h₁, h₂, h₃, h₄⟩ => ⟨h₁, h₂, h₃, h₄⟩⟩

/-- A name is the only part of itself. -/
theorem IsName.parts {name : String} (h : IsName name) : parts name = [name] := by
  have hne : name.toList ≠ [] := by simpa using h.ne_empty
  rw [Path.parts, Text.split_of_not_mem h.no_slash]
  simp [hne]

/-- Names between slashes are the parts. -/
theorem parts_intercalate {names : List String} (h : ∀ name ∈ names, IsName name) :
    parts ("/".intercalate names) = names := by
  induction names with
  | nil => rfl
  | cons name names ih =>
    have hname := (h name List.mem_cons_self).parts
    -- Between the first name and the others stands one slash.
    by_cases hnil : names = []
    · subst hnil
      rw [String.intercalate_singleton, hname]
    · rw [String.intercalate_cons_of_ne_nil hnil, parts_append_slash, hname,
        ih fun n hn => h n (List.mem_cons_of_mem name hn)]
      rfl

/-- A path of names is not empty. -/
theorem isEmpty_intercalate {names : List String} (hne : names ≠ [])
    (h : ∀ name ∈ names, IsName name) : ("/".intercalate names).isEmpty = false := by
  rw [← Bool.not_eq_true, String.isEmpty_iff]
  intro hempty
  have hparts := parts_intercalate h
  rw [hempty] at hparts
  exact hne hparts.symm

/-- Names between slashes that are equal are equal one by one. -/
theorem intercalate_inj {names names' : List String} (h : ∀ name ∈ names, IsName name)
    (h' : ∀ name ∈ names', IsName name) (heq : "/".intercalate names = "/".intercalate names') :
    names = names' := by
  rw [← parts_intercalate h, heq, parts_intercalate h']

/-- A path of names does not start with a slash. -/
theorem isAbsolute_intercalate {names : List String} (h : ∀ name ∈ names, IsName name) :
    isAbsolute ("/".intercalate names) = false := by
  cases names with
  | nil => rfl
  | cons name names =>
    have hname := h name List.mem_cons_self
    -- The first character is that of the first name.
    obtain ⟨c, cs, hcs⟩ := List.exists_cons_of_ne_nil (l := name.toList)
      (by simpa using hname.ne_empty)
    have hc : c ≠ '/' := by
      rintro rfl
      exact hname.no_slash (by simp [hcs])
    unfold isAbsolute
    by_cases hnil : names = []
    · simp [hnil, hcs, hc]
    · rw [String.intercalate_cons_of_ne_nil hnil]
      simp [hcs, hc]

/-- A path of names does not end in a slash. -/
theorem endsInSlash_of_append {path name : String} (h : IsName name) :
    endsInSlash (path ++ name) = false := by
  have hne : name.toList ≠ [] := by simpa using h.ne_empty
  rw [endsInSlash, String.toList_append, List.getLast?_append_of_ne_nil _ hne,
    List.getLast?_eq_some_getLast hne]
  have hlast : name.toList.getLast hne ≠ '/' := fun heq =>
    h.no_slash (heq ▸ List.getLast_mem hne)
  simpa using hlast

/-- Without a backslash there is nothing to turn into a slash. -/
theorem withSlashes_of_not_mem {path : String} (h : '\\' ∉ path.toList) :
    withSlashes path = path := by
  rw [withSlashes, ← String.toList_inj, String.toList_ofList]
  refine (List.map_congr_left fun c hc => ?_).trans (List.map_id _)
  have hne : c ≠ '\\' := fun heq => h (heq ▸ hc)
  simp [hne]

/-- A character is in names between slashes if it is in one of them. -/
theorem mem_intercalate_of_mem {c : Char} {name : String} {names : List String}
    (hname : name ∈ names) (hc : c ∈ name.toList) : c ∈ ("/".intercalate names).toList := by
  induction names with
  | nil => exact nomatch hname
  | cons first names ih =>
    -- Behind the last name there is no slash.
    by_cases hnil : names = []
    · subst hnil
      rw [List.mem_singleton] at hname
      rwa [String.intercalate_singleton, ← hname]
    · rw [String.intercalate_cons_of_ne_nil hnil, String.toList_append, String.toList_append,
        List.mem_append, List.mem_append]
      rcases List.mem_cons.1 hname with rfl | hname
      · exact .inl (.inl hc)
      · exact .inr (ih hname)

/-- A character that is in none of the names is not in them between slashes, unless it is a
    slash. -/
theorem not_mem_intercalate {c : Char} (hc : c ≠ '/') {names : List String}
    (h : ∀ name ∈ names, c ∉ name.toList) : c ∉ ("/".intercalate names).toList :=
  Text.not_mem_intercalate (by simpa using hc) h

/-- Names without backslashes stay as they are between slashes. -/
theorem withSlashes_intercalate {names : List String} (h : ∀ name ∈ names, '\\' ∉ name.toList) :
    withSlashes ("/".intercalate names) = "/".intercalate names :=
  withSlashes_of_not_mem (not_mem_intercalate (by decide) h)

/-! ## Relative paths -/

/-- A path from a directory down to something in it or below. -/
def IsRelative (rel : String) : Prop :=
  ∃ names name, rel = "/".intercalate (names ++ [name]) ∧ ∀ n ∈ names ++ [name], IsName n

/-- A name is a relative path. -/
theorem IsName.isRelative {name : String} (h : IsName name) : IsRelative name :=
  ⟨[], name, by simp, by simpa using h⟩

namespace IsRelative

variable {rel : String}

theorem isName_of_mem_parts (h : IsRelative rel) : ∀ n ∈ parts rel, IsName n := by
  obtain ⟨names, name, rfl, hnames⟩ := h
  rwa [parts_intercalate hnames]

/-- A relative path is its parts between slashes. -/
theorem intercalate_parts (h : IsRelative rel) : "/".intercalate (parts rel) = rel := by
  obtain ⟨names, name, rfl, hnames⟩ := h
  rw [parts_intercalate hnames]

theorem isAbsolute (h : IsRelative rel) : Path.isAbsolute rel = false :=
  h.intercalate_parts ▸ isAbsolute_intercalate h.isName_of_mem_parts

/-- A relative path ends in a name. -/
theorem endsInSlash_append (h : IsRelative rel) (before : String) :
    endsInSlash (before ++ rel) = false := by
  obtain ⟨names, name, rfl, hnames⟩ := h
  have hname := hnames name (by simp)
  by_cases hnil : names = []
  · rw [hnil, List.nil_append, String.intercalate_singleton]
    exact endsInSlash_of_append hname
  · rw [String.intercalate_append_of_ne_nil hnil (by simp), String.intercalate_singleton,
      ← String.append_assoc]
    exact endsInSlash_of_append hname

/-- A path joined to a relative one does not end in a slash. -/
theorem endsInSlash_join (h : IsRelative rel) (base : String) :
    endsInSlash (join base rel) = false := by
  unfold join
  split
  · simpa using h.endsInSlash_append ""
  · split
    · exact h.endsInSlash_append base
    · exact h.endsInSlash_append (base ++ "/")

/-- A path joined to a relative one starts where the path starts. -/
theorem isAbsolute_join (h : IsRelative rel) (base : String) :
    Path.isAbsolute (join base rel) = Path.isAbsolute base := by
  unfold join
  rw [h.isAbsolute, Bool.false_or]
  split
  -- Nothing in front leaves the relative path alone.
  · rename_i hempty
    rw [String.isEmpty_iff.1 hempty, h.isAbsolute]
    rfl
  · rename_i hempty
    -- Otherwise the first character is that of the base.
    obtain ⟨c, cs, hcs⟩ := List.exists_cons_of_ne_nil (l := base.toList)
      (by simpa using hempty)
    split <;> simp [Path.isAbsolute, hcs]

end IsRelative

/-! ## File names -/

/-- The last name of a path whose parts are names. -/
theorem fileName?_of_parts {path name : String} {names : List String} (hname : IsName name)
    (h : parts path = names ++ [name]) : fileName? path = some name := by
  have hne : name ≠ "." := hname.ne_dot
  have hne' : name ≠ ".." := hname.ne_dots
  simp [fileName?, Path.names, h, List.filter_append, hne, hne']

/-- A file whose name ends in `.ast` is no Java source. -/
theorem isJava_of_append {path stem : String} {names : List String}
    (hname : IsName (stem ++ ".ast")) (h : parts path = names ++ [stem ++ ".ast"]) :
    isJava path = false := by
  rw [isJava, extension?, fileName?_of_parts hname h]
  -- The extension is read from the end: the last dot is the one of `.ast`.
  have hreversed : (stem ++ ".ast").toList.reverse =
      ['t', 's', 'a', '.'] ++ stem.toList.reverse := by
    simp
  simp only [Option.bind_eq_bind, Option.bind_some, hreversed]
  cases stem.toList.reverse with
  | nil => rfl
  | cons c cs =>
    have hlower : (Text.lower "ast" == "java") = false := by decide
    simpa using hlower

/-! ## Parents -/

/-- What is trimmed off a path at its end is slashes and dots. -/
theorem exists_trimBack (reversed : List Char) :
    ∃ dropped n, reversed = dropped ++ trimBack reversed ∧
      parts (String.ofList reversed.reverse) =
        parts (String.ofList (trimBack reversed).reverse) ++ List.replicate n "." := by
  fun_induction trimBack reversed with
  -- A slash at the end makes no part.
  | case1 rest ih =>
    obtain ⟨dropped, n, hdropped, hparts⟩ := ih
    refine ⟨'/' :: dropped, n, by rw [List.cons_append, ← hdropped], ?_⟩
    have hslash : String.ofList ('/' :: rest).reverse = String.ofList rest.reverse ++ "/" ++ "" := by
      simp
    rw [hslash, parts_append_slash, hparts, parts_empty, List.append_nil]
  -- A single dot at the end is one part more.
  | case2 rest ih =>
    obtain ⟨dropped, n, hdropped, hparts⟩ := ih
    refine ⟨'.' :: '/' :: dropped, n + 1, by rw [List.cons_append, List.cons_append, ← hdropped], ?_⟩
    have hdot : String.ofList ('.' :: '/' :: rest).reverse =
        String.ofList rest.reverse ++ "/" ++ "." := by
      simp [← String.toList_inj]
    have hself : parts "." = ["."] := by decide
    rw [hdot, parts_append_slash, hparts, hself, List.replicate_succ', List.append_assoc]
  | case3 reversed _ _ => exact ⟨[], 0, rfl, by simp⟩

/-- Nothing is trimmed off a path that ends in a name. -/
theorem trimBack_of_isName {name : String} (h : IsName name) (before : List Char) :
    trimBack (name.toList.reverse ++ before) = name.toList.reverse ++ before := by
  have hslash : '/' ∉ name.toList.reverse := by simpa using h.no_slash
  have hempty : name.toList.reverse ≠ [] := by simpa using h.ne_empty
  have hdot : name.toList.reverse ≠ ['.'] := by
    intro hreversed
    have hlist : name.toList = ['.'] := by simpa using congrArg List.reverse hreversed
    exact h.ne_dot (String.toList_inj.1 hlist)
  generalize name.toList.reverse = reversed at hslash hempty hdot
  -- The first character is no slash, and after a dot comes another character of the name.
  match reversed with
  | [] => exact absurd rfl hempty
  | [c] =>
    rw [List.mem_singleton] at hslash
    rw [List.singleton_append, trimBack.eq_def]
    split
    · simp_all
    · simp_all
    · rfl
  | c :: d :: rest =>
    simp only [List.mem_cons, not_or] at hslash
    rw [List.cons_append, List.cons_append, trimBack.eq_def]
    split
    · simp_all
    · simp_all
    · rfl

/-- The parent of a path that ends in a name. -/
theorem parent_append {before name : String} (h : IsName name)
    (hbefore : before = "" ∨ endsInSlash before = true) :
    parent (before ++ name) = String.ofList (trimBack before.toList.reverse).reverse := by
  have hstop : (name.toList.reverse ++ before.toList.reverse).dropWhile (· != '/') =
      before.toList.reverse := by
    rw [List.dropWhile_append_of_pos]
    · -- What stands before the name ends in a slash.
      rcases hbefore with rfl | hslash
      · rfl
      · obtain ⟨init, hinit⟩ := exists_of_endsInSlash hslash
        simp [hinit]
    · intro c hc
      rw [List.mem_reverse] at hc
      have hne : c ≠ '/' := fun heq => h.no_slash (heq ▸ hc)
      simpa using hne
  rw [parent, String.toList_append, List.reverse_append, trimBack_of_isName h, hstop]

/-- A path that ends in a slash has the parts that it has without. -/
theorem parts_append_of_endsInSlash {before : String} (after : String)
    (hbefore : before = "" ∨ endsInSlash before = true) :
    parts (before ++ after) = parts before ++ parts after := by
  rcases hbefore with rfl | hslash
  · simp
  · obtain ⟨init, hinit⟩ := exists_of_endsInSlash hslash
    have heq : before = String.ofList init ++ "/" ++ "" := by simp [← String.toList_inj, hinit]
    have hafter : before ++ after = String.ofList init ++ "/" ++ after := by
      simp [← String.toList_inj, hinit]
    rw [hafter, parts_append_slash, heq, parts_append_slash, parts_empty, List.append_nil]

/-- A relative path is a name behind the start or behind a slash. -/
theorem IsRelative.exists_eq_append {rel : String} (h : IsRelative rel) (base : String) :
    ∃ before names name, join base rel = before ++ name ∧
      (before = "" ∨ endsInSlash before = true) ∧ IsName name ∧ parts rel = names ++ [name] := by
  have hrelative := h.isAbsolute
  obtain ⟨names, name, rfl, hnames⟩ := h
  have hname : IsName name := hnames name (by simp)
  have hparts := parts_intercalate hnames
  -- The relative path by itself.
  obtain ⟨front, hfront, hslash⟩ : ∃ front, "/".intercalate (names ++ [name]) = front ++ name ∧
      (front = "" ∨ endsInSlash front = true) := by
    by_cases hnil : names = []
    · exact ⟨"", by simp [hnil], .inl rfl⟩
    · refine ⟨"/".intercalate names ++ "/", ?_, .inr (by simp [endsInSlash])⟩
      rw [String.intercalate_append_of_ne_nil hnil (by simp), String.intercalate_singleton]
  have hbehind (x : String) (hx : x = "" ∨ endsInSlash x = true) :
      x ++ front = "" ∨ endsInSlash (x ++ front) = true := by
    rcases hslash with rfl | hslash
    · simpa using hx
    · right
      have hne : front.toList ≠ [] := by
        intro hnil
        simp [endsInSlash, hnil] at hslash
      rwa [endsInSlash, String.toList_append, List.getLast?_append_of_ne_nil _ hne]
  unfold join
  rw [hrelative, Bool.false_or]
  split
  · exact ⟨front, names, name, hfront, hslash, hname, hparts⟩
  · split
    · rename_i hbase
      refine ⟨base ++ front, names, name, ?_, hbehind base (.inr hbase), hname, hparts⟩
      rw [hfront, String.append_assoc]
    · refine ⟨base ++ "/" ++ front, names, name, ?_, hbehind _ (.inr ?_), hname, hparts⟩
      · rw [hfront, String.append_assoc, String.append_assoc, String.append_assoc]
      · simp [endsInSlash]

/-- The parent of a path in a directory has its parts but for the last, and for dots at the end. -/
theorem IsRelative.parts_parent {rel : String} (h : IsRelative rel) (base : String) :
    ∃ n, parts base ++ (parts rel).dropLast =
      parts (parent (join base rel)) ++ List.replicate n "." := by
  obtain ⟨before, names, name, hjoin, hbefore, hname, hparts⟩ := h.exists_eq_append base
  obtain ⟨-, n, -, htrim⟩ := exists_trimBack before.toList.reverse
  refine ⟨n, ?_⟩
  rw [hjoin, parent_append hname hbefore, ← htrim, List.reverse_reverse, String.ofList_toList]
  -- The parts of the whole path are those before the name, and the name.
  have hall : parts base ++ parts rel = parts before ++ [name] := by
    rw [← parts_join _ _ h.isAbsolute, hjoin, parts_append_of_endsInSlash _ hbefore, hname.parts]
  rw [hparts, ← List.append_assoc] at hall
  rw [hparts, List.dropLast_concat]
  exact List.append_inj_left' hall rfl

/-- Where the parent of a path is empty, the path is one name behind the base. -/
theorem IsRelative.dropLast_parts {rel base : String} (h : IsRelative rel)
    (hempty : parent (join base rel) = "") : (parts rel).dropLast = [] := by
  obtain ⟨n, hparts⟩ := h.parts_parent base
  rw [hempty, parts_empty, List.nil_append] at hparts
  rw [List.eq_nil_iff_forall_not_mem]
  intro part hpart
  have hdot : part = "." := by
    have hmem := List.mem_append_right (parts base) hpart
    rw [hparts] at hmem
    exact List.eq_of_mem_replicate hmem
  exact (h.isName_of_mem_parts part (List.dropLast_subset _ hpart)).ne_dot hdot

/-- The parent of a path starts where the path starts. -/
theorem IsRelative.isAbsolute_parent {rel : String} (h : IsRelative rel) {base : String}
    (hne : parent (join base rel) ≠ "") :
    Path.isAbsolute (parent (join base rel)) = Path.isAbsolute base := by
  obtain ⟨before, names, name, hjoin, hbefore, hname, -⟩ := h.exists_eq_append base
  obtain ⟨dropped, -, hdropped, -⟩ := exists_trimBack before.toList.reverse
  have hparent := parent_append hname hbefore
  -- The parent is a beginning of the path, so that both have the same first character.
  have hfront : (join base rel).toList =
      (parent (join base rel)).toList ++ (dropped.reverse ++ name.toList) := by
    rw [hjoin, hparent, String.toList_append, String.toList_ofList, ← List.append_assoc,
      ← List.reverse_append, ← hdropped, List.reverse_reverse]
  have hchars : (parent (join base rel)).toList ≠ [] := by simpa using hne
  rw [← h.isAbsolute_join base, Path.isAbsolute, Path.isAbsolute, hfront,
    List.head?_append_of_ne_nil _ hchars]

end Path

/-! ## Places -/

namespace FileSystem

/-- The absolute path of a place has the names of the place as its parts. -/
theorem parts_pathOf {place : List String} (h : ∀ name ∈ place, Path.IsName name) :
    Path.parts (pathOf place) = place := by
  have hpath : pathOf place = "" ++ "/" ++ "/".intercalate place := by simp [pathOf]
  rw [hpath, Path.parts_append_slash, Path.parts_intercalate h]
  rfl

@[simp] theorem isAbsolute_pathOf (place : List String) :
    Path.isAbsolute (pathOf place) = true := by
  simp [Path.isAbsolute, pathOf]

/-- The absolute path of a place behind the root does not end in a slash. -/
theorem endsInSlash_pathOf {place : List String} {name : String} (h : Path.IsName name) :
    Path.endsInSlash (pathOf (place ++ [name])) = false := by
  rw [pathOf]
  by_cases hnil : place = []
  · rw [hnil]
    exact Path.endsInSlash_of_append h
  · rw [String.intercalate_append_of_ne_nil hnil (by simp), String.intercalate_singleton,
      ← String.append_assoc]
    exact Path.endsInSlash_of_append h

/-- The path of an entry of a directory. -/
theorem join_pathOf {place : List String} {name : String} (hplace : ∀ n ∈ place, Path.IsName n)
    (hname : Path.IsName name) : Path.join (pathOf place) name = pathOf (place ++ [name]) := by
  have habsolute : Path.isAbsolute name = false := by
    simpa using @Path.isAbsolute_intercalate [name] (by simpa using hname)
  have hne : (pathOf place).isEmpty = false := by
    rw [pathOf, ← Bool.not_eq_true, String.isEmpty_iff]
    simp
  rw [Path.join, habsolute, hne]
  -- Only the path of the root ends in a slash.
  by_cases hnil : place = []
  · subst hnil
    simp [pathOf, Path.endsInSlash]
  · obtain ⟨init, last, rfl⟩ := (List.eq_nil_or_concat place).resolve_left hnil
    rw [List.concat_eq_append] at hplace ⊢
    rw [endsInSlash_pathOf (hplace last (by simp)), pathOf, pathOf,
      String.intercalate_append_of_ne_nil (m := [name]) (by simp) (by simp)]
    simp [String.append_assoc]

/-- What can be looked up as a path. -/
theorem checkPath_eq_ok_iff {path : String} : checkPath path = .ok () ↔
    '\x00' ∉ path.toList ∧ path ≠ "" ∧ path.utf8ByteSize ≤ maxPathBytes := by
  unfold checkPath checkNames isPathTooLong
  by_cases hnul : '\x00' ∈ path.toList
  · simp [hnul, bind, Except.bind]
  · by_cases hempty : path = "" <;> by_cases hlong : maxPathBytes < path.utf8ByteSize <;>
      simp [hnul, hempty, hlong, bind, Except.bind, pure, Except.pure, throw, throwThe,
        MonadExceptOf.throw, Nat.not_lt.1]

end FileSystem

/-- A name below a path of names. -/
theorem below_intercalate {names : List String} {name : String}
    (h : ∀ n ∈ names, Path.IsName n) :
    below ("/".intercalate names) name = "/".intercalate (names ++ [name]) := by
  unfold below
  by_cases hnil : names = []
  · simp [hnil]
  · rw [Path.isEmpty_intercalate hnil h, String.intercalate_append_of_ne_nil hnil (by simp)]
    simp

end JavaOutline

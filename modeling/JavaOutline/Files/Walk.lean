import JavaOutline.Files.System
import JavaOutline.Glob.Basic

/-! # Collecting source files

`FileSystem.visits` goes through a directory and everything below it that is not excluded.
Symbolic links are seen but not followed.  `FileSystem.sources` keeps the accepted files, sorted
by their path relative to the start.

Visits come depth first and in the order in which a directory lists its children.  They are logged
in this order.  A walk that takes the entries of a directory from a queue, one level after the
other, makes the same visits in another order: it logs the same events, but not in the order that
is told here, and it finds the same sources, as these are sorted.  No order is promised in which a
directory lists its children, so neither is one for the events.

No entry is out of reach for lack of permission.  The way ends only at a path that is too long to be
looked up, and there it fails as a whole.
-/

namespace JavaOutline

/-- A file to extract. -/
structure SourceFile where
  /-- The path relative to the start, with slashes only. -/
  rel : String
  path : String
deriving DecidableEq

namespace SourceFile

/-- The order of source files: by relative path, then by path, part by part. -/
def order (a b : SourceFile) : Ordering :=
  (compare a.rel b.rel).then (compare (Path.parts a.path) (Path.parts b.path))

/-- Whether a source file does not come after another one. -/
def isLE (a b : SourceFile) : Bool :=
  (order a b).isLE

end SourceFile

/-- What became of an entry on the way. -/
inductive Visit where
  | excluded (path : String)
  | link (path : String)
  | directory (path : String)
  | accepted (source : SourceFile)
  | passedOver (path : String)

/-- The source file that a visit found. -/
def Visit.source? : Visit → Option SourceFile
  | accepted source => some source
  | _ => none

/-- The source files among visits, in order. -/
def sourcesOf (visits : List Visit) : List SourceFile :=
  (visits.filterMap Visit.source?).mergeSort SourceFile.isLE

/-! ## Exclusion -/

/-- Whether a path is excluded, by a pattern or by its size.  A directory is matched with a slash
    at its end; a size of zero is no limit. -/
def FileSystem.isExcluded (fs : FileSystem) (patterns : List Glob) (maxSize : Nat)
    (rel path : String) : Bool :=
  let found := (fs.entryOf path).toOption
  let rel := Path.withSlashes rel
  let rel := if found.any Entry.isDir && !rel.isEmpty then rel ++ "/" else rel
  patterns.any (·.isMatch rel) || (0 < maxSize && (found.bind Entry.size?).any (maxSize < ·))

/-! ## Walking -/

section

variable (excluded : (rel path : String) → Bool) (accept : (path : String) → Bool)

/-- A name below a relative path. -/
def below (rel name : String) : String :=
  if rel.isEmpty then name else rel ++ "/" ++ name

/-- The visit to a regular file that is not excluded. -/
def visitFile (rel path : String) : Visit :=
  if accept path then .accepted ⟨Path.withSlashes rel, path⟩ else .passedOver path

mutual

/-- The visits to an entry below the start and to everything below it.  The way ends at an entry
    whose path is too long to be looked up. -/
def visitEntry (rel path : String) : Entry → Except FileError (List Visit)
  | .file _ =>
    if excluded rel path then .ok [.excluded path]
    else do
      FileSystem.checkPath path
      return [visitFile accept rel path]
  | .link _ =>
    if excluded rel path then .ok [.excluded path]
    else do
      FileSystem.checkPath path
      return [.link path]
  | .dir children =>
    if excluded rel path then .ok [.excluded path]
    else do
      FileSystem.checkPath path
      return .directory path :: (← visitChildren rel path children)

/-- The visits to the children of a directory. -/
def visitChildren (rel path : String) : List (String × Entry) → Except FileError (List Visit)
  | [] => .ok []
  | (name, e) :: rest => do
    let visits ← visitEntry (below rel name) (Path.join path name) e
    return visits ++ (← visitChildren rel path rest)

end

namespace FileSystem

variable (fs : FileSystem)

/-- The visits from a start.  A start that is a file counts with its name as relative path; a
    directory is entered even if it is excluded. -/
def visits (start : String) : Except FileError (List Visit) := do
  match ← fs.entryNoFollow start with
  | .link _ => return [.link start]
  | .file _ =>
    let name := (Path.fileName? start).getD ""
    if excluded name start then return [.excluded start]
    else return [visitFile accept name start]
  | .dir children =>
    return .directory start :: (← visitChildren excluded accept "" start children)

/-- The accepted files from a start, in order. -/
def sources (start : String) : Except FileError (List SourceFile) := do
  return sourcesOf (← fs.visits excluded accept start)

end FileSystem

end

end JavaOutline

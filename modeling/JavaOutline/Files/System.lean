import JavaOutline.Files.Tree
import JavaOutline.Path

/-! # File systems

A file system is a file tree with a working directory.  Paths are resolved part by part: `.` stays,
`..` goes up, and a symbolic link is followed, at most `linkLimit` times for one path.  A name has
at most `maxNameBytes` bytes and a path at most `maxPathBytes`.

* `Trail` is the way down to a directory, so that resolving need not start at the root each time.
* `FileSystem.resolve` finds the place that a path names, or the place where it could be made.
* `readBytes`, `writeBytes`, `makeDir` and `makeDirs` read and change the tree through paths.

Some things that happen to files are left out.

* There are no permissions: what is there can be listed, read and written.  So an operation fails
  only for one of the reasons that `FileError` lists, and a walk passes no entry over.
* Names are texts.  A name whose bytes are not UTF-8 stands in no tree.
* Nothing changes a tree but the operations here.  A file does not go away between two of them, and
  writing a file either succeeds or leaves the file as it was; it does not fail with the file cut
  short, as it could on a full disk.
-/

namespace JavaOutline

/-- Why an operation on files fails. -/
inductive FileError where
  | notFound
  | alreadyExists
  | notDirectory
  | isDirectory
  | tooManyLinks
  /-- A name or a whole path has too many bytes. -/
  | nameTooLong
  /-- No name has a NUL character. -/
  | nulInName
  /-- The bytes are not UTF-8. -/
  | notText
deriving DecidableEq

/-- The wording of a file error. -/
def FileError.message : FileError → String
  | notFound => "No such file or directory (os error 2)"
  | alreadyExists => "File exists (os error 17)"
  | notDirectory => "Not a directory (os error 20)"
  | isDirectory => "Is a directory (os error 21)"
  | nameTooLong => "File name too long (os error 36)"
  | tooManyLinks => "Too many levels of symbolic links (os error 40)"
  | nulInName => "file name contained an unexpected NUL byte"
  | notText => "stream did not contain valid UTF-8"

/-- A file tree with a working directory. -/
structure FileSystem where
  root : Entry
  workingDir : List String

/-- What a path names. -/
inductive Place where
  /-- An entry that is there and is no link. -/
  | found (place : List String)
  /-- A name that is not taken, in a directory that is there. -/
  | absent (dir : List String) (name : String)
deriving DecidableEq

/-! ## Trails -/

/-- The way from the root of a tree down to a directory: each directory that it enters with its
    name, the last one first. -/
abbrev Trail := List (String × Entry)

namespace Trail

/-- The directory where a trail ends. -/
def dir (root : Entry) : Trail → Entry
  | [] => root
  | (_, e) :: _ => e

/-- The place where a trail ends. -/
def place (trail : Trail) : List String :=
  (trail.map (·.1)).reverse

/-- A trail that goes on by some names, as far as there are entries. -/
def descend (root : Entry) (trail : Trail) : List String → Trail
  | [] => trail
  | name :: names =>
    match (trail.dir root).get? [name] with
    | some e => descend root ((name, e) :: trail) names
    | none => trail

end Trail

namespace FileSystem

/-! ## Resolving paths -/

/-- How many links may be followed for one path. -/
def linkLimit : Nat := 40

/-- The most bytes that a name may have. -/
def maxNameBytes : Nat := 255

/-- The most bytes that a path may have. -/
def maxPathBytes : Nat := 4095

/-- Whether a name has too many bytes. -/
def isNameTooLong (name : String) : Bool :=
  maxNameBytes < name.utf8ByteSize

/-- Whether a path has too many bytes, however short its names are. -/
def isPathTooLong (path : String) : Bool :=
  maxPathBytes < path.utf8ByteSize

/-- Refuses a text that can be no path. -/
def checkNames (path : String) : Except FileError Unit :=
  if path.toList.contains '\x00' then .error .nulInName
  else if path.isEmpty then .error .notFound
  else .ok ()

/-- Refuses a text that cannot be looked up as a path. -/
def checkPath (path : String) : Except FileError Unit := do
  checkNames path
  if isPathTooLong path then throw .nameTooLong

/-- The parts of a path to resolve.  A slash at the end asks for a directory. -/
def steps (path : String) : List String :=
  Path.parts path ++ (if Path.endsInSlash path then ["."] else [])

/-- Follows parts from the end of a trail as far as the first link; `onLink` goes on from there. -/
def walkFrom (root : Entry) (onLink : Trail → List String → Except FileError Place) :
    Trail → List String → Except FileError Place
  | here, [] => .ok (.found here.place)
  | here, part :: rest =>
    if part == "." then walkFrom root onLink here rest
    else if part == ".." then walkFrom root onLink here.tail rest
    else if isNameTooLong part then .error .nameTooLong
    else
      match (here.dir root).get? [part] with
      | none => if rest.isEmpty then .ok (.absent here.place part) else .error .notFound
      | some (.dir children) => walkFrom root onLink ((part, .dir children) :: here) rest
      | some (.file _) =>
        if rest.isEmpty then .ok (.found (here.place ++ [part])) else .error .notDirectory
      | some (.link target) =>
        onLink (if Path.isAbsolute target then [] else here) (steps target ++ rest)

/-- Follows parts from the end of a trail, with `limit` links left to follow. -/
def resolveFrom (root : Entry) : (limit : Nat) → Trail → List String → Except FileError Place
  | 0 => walkFrom root fun _ _ => .error .tooManyLinks
  | limit + 1 => walkFrom root (resolveFrom root limit)

variable (fs : FileSystem)

/-- The directory that a path starts from. -/
def start (path : String) : List String :=
  if Path.isAbsolute path then [] else fs.workingDir

/-- Follows parts from the directory at a place. -/
def follow (base : List String) (parts : List String) : Except FileError Place :=
  resolveFrom fs.root linkLimit (Trail.descend fs.root [] base) parts

/-- What a path names, all links followed. -/
def resolve (path : String) : Except FileError Place := do
  checkPath path
  fs.follow (fs.start path) (steps path)

/-- The place of the entry that a path names. -/
def placeOf (path : String) : Except FileError (List String) := do
  match ← fs.resolve path with
  | .found place => return place
  | .absent .. => throw .notFound

/-- The entry that a path names. -/
def entryOf (path : String) : Except FileError Entry := do
  match fs.root.get? (← fs.placeOf path) with
  | some e => return e
  | none => throw .notFound

/-- The entry that a path names without following a link in its last part. -/
def entryNoFollow (path : String) : Except FileError Entry := do
  checkPath path
  match (steps path).getLast? with
  | none => fs.entryOf path
  | some last =>
    if last == "." || last == ".." then fs.entryOf path
    else
      match ← fs.follow (fs.start path) ((steps path).dropLast ++ ["."]) with
      | .absent .. => throw .notFound
      | .found dir =>
        if isNameTooLong last then throw .nameTooLong
        else
          match fs.root.get? (dir ++ [last]) with
          | some e => return e
          | none => throw .notFound

/-- Whether a path names a directory. -/
def isDir (path : String) : Bool :=
  match fs.entryOf path with
  | .ok e => e.isDir
  | .error _ => false

/-- Whether a path names a regular file. -/
def isFile (path : String) : Bool :=
  match fs.entryOf path with
  | .ok e => e.isFile
  | .error _ => false

/-- Whether a path names anything. -/
def pathExists (path : String) : Bool :=
  match fs.entryOf path with
  | .ok _ => true
  | .error _ => false

/-- The absolute path of a place. -/
def pathOf (place : List String) : String :=
  "/" ++ String.intercalate "/" place

/-- The absolute path, free of links, of what a path names.  It is found name by name, so only the
    result must not be too long. -/
def canonical (path : String) : Except FileError String := do
  checkNames path
  match ← fs.follow (fs.start path) (steps path) with
  | .absent .. => throw .notFound
  | .found place =>
    if isPathTooLong (pathOf place) then throw .nameTooLong
    else return pathOf place

/-! ## Reading and writing -/

/-- The bytes of a file. -/
def readBytes (path : String) : Except FileError Bytes := do
  match ← fs.entryOf path with
  | .file content => return content
  | .dir _ => throw .isDirectory
  | .link _ => throw .notFound

/-- The text of a file. -/
def readText (path : String) : Except FileError String := do
  match ofUtf8? (← fs.readBytes path) with
  | some text => return text
  | none => throw .notText

/-- The file system with an entry at a place. -/
def putAt (place : List String) (e : Entry) : FileSystem :=
  { fs with root := Entry.put e place fs.root }

/-- Writes a file, new or in place of an old one. -/
def writeBytes (path : String) (content : Bytes) : Except FileError FileSystem := do
  match ← fs.resolve path with
  | .absent dir name => return fs.putAt (dir ++ [name]) (.file content)
  | .found place =>
    match fs.root.get? place with
    | some (.dir _) => throw .isDirectory
    | _ => return fs.putAt place (.file content)

/-- Makes a directory below a directory that is there. -/
def makeDir (base : List String) (parts : List String) : Except FileError FileSystem :=
  match parts.getLast? with
  | none => .error .alreadyExists
  | some name => do
    match ← fs.follow base (parts.dropLast ++ ["."]) with
    | .absent .. => throw .notFound
    | .found dir =>
      if name == "." || name == ".." then throw .alreadyExists
      else if isNameTooLong name then throw .nameTooLong
      else
        match fs.root.get? (dir ++ [name]) with
        | some _ => throw .alreadyExists
        | none => return fs.putAt (dir ++ [name]) (.dir [])

/-- Whether parts followed from a directory lead to a directory. -/
def leadsToDir (base : List String) (parts : List String) : Bool :=
  match fs.follow base parts with
  | .ok (.found place) => ((fs.root.get? place).map Entry.isDir).getD false
  | _ => false

/-- Makes a directory where it is not there yet. -/
def ensureDir (base : List String) (parts : List String) : Except FileError FileSystem :=
  match fs.makeDir base parts with
  | .ok made => .ok made
  | .error e => if fs.leadsToDir base parts then .ok fs else .error e

/-- Makes a directory and those that lead to it; the names are given last first. -/
def makeDirsFrom (fs : FileSystem) (base : List String) :
    (reversed : List String) → Except FileError FileSystem
  | [] => .ok fs
  | name :: reversed =>
    match fs.makeDir base (name :: reversed).reverse with
    | .ok made => .ok made
    | .error .notFound => do
      let fs ← makeDirsFrom fs base reversed
      fs.ensureDir base (name :: reversed).reverse
    | .error e =>
      if fs.leadsToDir base (name :: reversed).reverse then .ok fs else .error e

/-- The names of the directories that lead to a path, last first. -/
def leadingNames (path : String) : List String :=
  (Path.names path).dropLast.reverse

/-- Makes the directory that a path names, and those that lead to it. -/
def makeDirs (path : String) : Except FileError FileSystem :=
  if path.isEmpty then .ok fs
  else do
    checkPath path
    let base := fs.start path
    match fs.makeDir base (Path.parts path) with
    | .ok made => return made
    | .error .notFound =>
      let fs ← makeDirsFrom fs base (leadingNames path)
      fs.ensureDir base (Path.parts path)
    | .error e => if fs.leadsToDir base (Path.parts path) then return fs else throw e

/-- Makes the directories that lead to a path. -/
def makeLeading (path : String) : Except FileError FileSystem :=
  fs.makeDirs (Path.parent path)

/-- Writes a file, making the directories that lead to it. -/
def writeDeep (path : String) (content : Bytes) : Except FileError FileSystem := do
  let fs ← fs.makeLeading path
  fs.writeBytes path content

/-- The place of the directory that the last name of a path stands in. -/
def dirOf (path : String) : Except FileError (List String) := do
  match ← fs.follow (fs.start path) ((Path.names path).dropLast ++ ["."]) with
  | .found dir => return dir
  | .absent .. => throw .notFound

/-- Makes a symbolic link, in place of what the path named, and the directories that lead to it. -/
def makeLink (path target : String) : Except FileError FileSystem := do
  let fs ← fs.makeLeading path
  match Path.fileName? path with
  | some name => return fs.putAt ((← fs.dirOf path) ++ [name]) (.link target)
  | none => throw .alreadyExists

/-- The regular files that are new or have other bytes in a later state, by absolute path. -/
def changedFiles (later : FileSystem) : List (String × Bytes) :=
  let earlier := fs.root.files []
  ((later.root.files []).filter fun (place, content) => earlier.lookup place != some content).map
    fun (place, content) => (pathOf place, content)

/-- Takes away what a path names; of a link, the link itself. -/
def remove (path : String) : Except FileError FileSystem := do
  match Path.fileName? path with
  | some name =>
    return { fs with root := Entry.erase ((← fs.dirOf path) ++ [name]) fs.root }
  | none => throw .notFound

end FileSystem

end JavaOutline

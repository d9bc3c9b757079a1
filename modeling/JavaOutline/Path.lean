import JavaOutline.Text.Case

/-! # Paths

A path is a text.  Its parts stand between slashes; a backslash is an ordinary character.

* `Path.extension?` is what follows the last dot of the file name, unless the name starts with
  that dot.
* `Path.isJava` decides by the extension, in any case, whether a file is a Java source.
-/

namespace JavaOutline

/-- The pieces of a text between the separators; there is one more piece than separators. -/
def Text.split (separator : Char) : List Char → List (List Char)
  | [] => [[]]
  | c :: cs =>
    if c == separator then [] :: Text.split separator cs
    else match Text.split separator cs with
      | [] => [[c]]
      | piece :: pieces => (c :: piece) :: pieces

namespace Path

/-- The parts of a path between slashes, empty ones left out. -/
def parts (path : String) : List String :=
  ((Text.split '/' path.toList).filter (!·.isEmpty)).map String.ofList

/-- Whether a path starts at the root. -/
def isAbsolute (path : String) : Bool :=
  path.toList.head? == some '/'

/-- Whether a path ends in a slash. -/
def endsInSlash (path : String) : Bool :=
  path.toList.getLast? == some '/'

/-- The path that `path` names when it is read from `base`. -/
def join (base path : String) : String :=
  if isAbsolute path || base.isEmpty then path
  else if endsInSlash base then base ++ path
  else base ++ "/" ++ path

/-- The parts of a path without `.` parts, which name nothing by themselves. -/
def names (path : String) : List String :=
  (parts path).filter (· != ".")

/-- A path written backwards without the slashes and `.` parts that it starts with. -/
def trimBack : List Char → List Char
  | '/' :: rest => trimBack rest
  | '.' :: '/' :: rest => trimBack rest
  | reversed => reversed

/-- The path of the directory that the last part of a path is looked up in. -/
def parent (path : String) : String :=
  let reversed := trimBack path.toList.reverse
  String.ofList (trimBack (reversed.dropWhile (· != '/'))).reverse

/-- The last name of a path, if it is a name at all. -/
def fileName? (path : String) : Option String :=
  (names path).getLast?.filter (· != "..")

/-- What follows the last dot of the file name, unless nothing precedes that dot. -/
def extension? (path : String) : Option String := do
  let name ← fileName? path
  let reversed := name.toList.reverse
  match reversed.dropWhile (· != '.') with
  | _ :: _ :: _ => return String.ofList (reversed.takeWhile (· != '.')).reverse
  | _ => none

/-- Whether a path names a Java source. -/
def isJava (path : String) : Bool :=
  (extension? path).any fun e => Text.lower e == "java"

/-- A path with every backslash turned into a slash. -/
def withSlashes (path : String) : String :=
  String.ofList (path.toList.map fun c => if c == '\\' then '/' else c)

end Path

end JavaOutline

import JavaOutline.Text.Utf8

/-! # File trees

A file tree is a file, a directory with named children, or a symbolic link.  A place in a tree is
the list of names that leads to it; links on the way are not followed here.

* `Entry.get?` looks up a place, `Entry.put` and `Entry.erase` change one.
* `Entry.files` lists all regular files of a tree.
-/

namespace JavaOutline

/-- A file, a directory or a symbolic link. -/
inductive Entry where
  | file (content : Bytes)
  | dir (children : List (String × Entry))
  /-- A link to a path. -/
  | link (target : String)
deriving Inhabited

namespace Entry

/-- The child of a directory by name. -/
def child? (name : String) : List (String × Entry) → Option Entry
  | [] => none
  | (n, e) :: rest => if n == name then some e else child? name rest

/-- Puts a child into a directory, in place of one of the same name. -/
def putChild (name : String) (new : Entry) : List (String × Entry) → List (String × Entry)
  | [] => [(name, new)]
  | (n, e) :: rest => if n == name then (n, new) :: rest else (n, e) :: putChild name new rest

/-- The entry at a place. -/
def get? : Entry → List String → Option Entry
  | e, [] => some e
  | dir children, name :: names =>
    match child? name children with
    | some e => get? e names
    | none => none
  | _, _ :: _ => none

/-- The tree with an entry put at a place.  Directories that lead there are made; what is below a
    file or link cannot be changed. -/
def put (new : Entry) : List String → Entry → Entry
  | [], _ => new
  | name :: names, dir children =>
    dir (putChild name (put new names ((child? name children).getD (dir []))) children)
  | _ :: _, e => e

/-- The tree without the entry at a place. -/
def erase : List String → Entry → Entry
  | [name], dir children => dir (children.filter (·.1 != name))
  | name :: names, dir children =>
    match child? name children with
    | some e => dir (putChild name (erase names e) children)
    | none => dir children
  | _, e => e

mutual

/-- The regular files of a tree with their places below `place`. -/
def files (place : List String) : Entry → List (List String × Bytes)
  | file content => [(place, content)]
  | dir children => filesIn place children
  | link _ => []

/-- The regular files below the children of a directory. -/
def filesIn (place : List String) : List (String × Entry) → List (List String × Bytes)
  | [] => []
  | (name, e) :: rest => files (place ++ [name]) e ++ filesIn place rest

end

/-- Whether an entry is a directory. -/
def isDir : Entry → Bool
  | dir _ => true
  | _ => false

/-- Whether an entry is a regular file. -/
def isFile : Entry → Bool
  | file _ => true
  | _ => false

/-- The length of a regular file, and nothing for other entries. -/
def size? : Entry → Option Nat
  | file content => some content.length
  | _ => none

end Entry

end JavaOutline

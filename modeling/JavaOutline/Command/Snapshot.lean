import JavaOutline.Command.Run
import JavaOutline.Syntax.Imports

/-! # Snapshots of files with their syntax trees

The parser of Java is not part of this library, so the program is handed its files together with
the syntax trees that a parser made for the sources among them.  A snapshot is a JSON document:

* `home` and `workingDir` are the absolute paths of two directories.
* `files` lists the files in the order they are made.  Each has a `path`, and either `text`, with
  the syntax tree under `tree` if it is a source, or the target of a `link`, or neither, if it is
  a directory.  A tree is the list of its nodes in pre-order, each an array of kind, field, first
  byte, byte behind the last, flags and number of children.

Sources without a tree can be parsed only if they hold nothing but imports.
-/

namespace JavaOutline.Command

open Syntax (Node)

/-- Files with the syntax trees of the sources among them. -/
structure Snapshot where
  home : String
  files : FileSystem
  trees : List (String × Node) := []

namespace Snapshot

/-- The parser that knows the trees of a snapshot. -/
def parser (s : Snapshot) : Parser := fun source =>
  match s.trees.lookup source with
  | some tree => some tree
  | none => Syntax.importTree? (utf8 source)

/-! ## Reading -/

/-- The value of a field. -/
def field? (name : String) : Json → Option Json
  | .object fields => Json.lastField? name fields
  | _ => none

/-- The text of a field. -/
def textField? (name : String) (v : Json) : Option String := do
  (← field? name v).text?

/-- A natural number. -/
def natural? : Json → Option Nat
  | .number literal => Json.natural? literal
  | _ => none

/-- One node of a flat tree.  The bits of its flags, from the lowest: named, a comment, missing,
    an error, an error below. -/
def node? : Json → Option Node.Entry
  | .array [kind, field, start, stop, flags, childCount] => do
    let flags ← natural? flags
    return {
      node :=
        { kind := ← kind.text?, field := ← field.text?
          start := ← natural? start, stop := ← natural? stop
          isNamed := flags.testBit 0, isExtra := flags.testBit 1, isMissing := flags.testBit 2
          isError := flags.testBit 3, hasError := flags.testBit 4 }
      childCount := ← natural? childCount }
  | _ => none

/-- A syntax tree. -/
def tree? (v : Json) : Option Node := do
  Node.ofPreorder? (← (← v.elements?).mapM node?)

/-- The snapshot with one more file. -/
def add? (s : Snapshot) (v : Json) : Option Snapshot := do
  let path ← textField? "path" v
  match textField? "link" v, textField? "text" v with
  | some target, _ => return { s with files := ← (s.files.makeLink path target).toOption }
  | none, some text =>
    let files ← (s.files.writeDeep path (utf8 text)).toOption
    match (field? "tree" v).bind tree? with
    | some tree => return { s with files, trees := (text, tree) :: s.trees }
    | none => return { s with files }
  | none, none => return { s with files := ← (s.files.makeDirs path).toOption }

/-- The snapshot that a value describes. -/
def ofJson? (v : Json) : Option Snapshot := do
  let workingDir := Path.names (← textField? "workingDir" v)
  let root := Entry.put (.dir []) workingDir (.dir [])
  let empty : Snapshot := { home := ← textField? "home" v, files := ⟨root, workingDir⟩ }
  (← (← field? "files" v).elements?).foldlM add? empty

/-- The snapshot that a document describes. -/
def ofBytes? (document : Bytes) : Option Snapshot := do
  ofJson? (← Json.parse? document)

/-! ## Changes -/

/-- The files that a run changed, as a document: their texts by absolute path. -/
def changes (s : Snapshot) (outcome : Outcome) : Json :=
  .record ((s.files.changedFiles outcome.files).map fun (path, content) =>
    (path, .text ((ofUtf8? content).getD "")))

end Snapshot

end JavaOutline.Command

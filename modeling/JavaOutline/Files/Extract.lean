import JavaOutline.Files.System
import JavaOutline.Metrics

/-! # Extracting files

A file is extracted if it is a Java source and, when only candidates are wanted, if its imports
mention the marker.
-/

namespace JavaOutline

section

variable (parser : Parser) (options : ExtractOptions) (fs : FileSystem)

/-- The text of a source file. -/
def readSource (path : String) : Except ExtractError String :=
  match fs.readText path with
  | .ok text => .ok text
  | .error cause => .error (.io path cause)

/-- The outline of a file, whatever its name. -/
def extractPath (path : String) : Except ExtractError Outline := do
  extractSource parser options (← readSource fs path) path

/-- Whether an import of a file mentions the marker. -/
def isCandidatePath (path : String) : Except ExtractError Bool := do
  isCandidate parser options (← readSource fs path) path

/-- The persisted outline of a Java source; nothing for a file that is passed over. -/
def extractJava (candidatesOnly : Bool) (path : String) : Except ExtractError (Option Bytes) := do
  let source ← readSource fs path
  if candidatesOnly then
    if !(← isCandidate parser options source path) then return none
  return some (← extractSource parser options source path).encode

/-- The persisted outline of a file; nothing for a file that is no Java source or is passed
    over. -/
def extractFile (candidatesOnly : Bool) (path : String) : Except ExtractError (Option Bytes) :=
  if Path.isJava path then extractJava parser options fs candidatesOnly path else .ok none

/-! ## Events -/

/-- What is logged when the type of a file is looked at. -/
def typeEvent (path : String) : Event :=
  if Path.isJava path then
    { level := .debug, message := "File type detected"
      fields := [("file", .plain path), ("file_type", .quoted "java")] }
  else
    { level := .debug, message := "Unsupported file type", fields := [("file", .plain path)] }

/-- What is logged while a Java source is extracted. -/
def extractJavaEvents (candidatesOnly : Bool) (path source : String) : List Event :=
  match if candidatesOnly then isCandidate parser options source path else .ok true with
  | .ok true => extractEvents parser options source path
  | .ok false =>
    [{ level := .debug, message := "Not a benchmark candidate", fields := [("file", .plain path)] }]
  | .error _ => []

/-- What is logged while a file is extracted. -/
def extractFileEvents (candidatesOnly : Bool) (path : String) : List Event :=
  typeEvent path ::
    if Path.isJava path then
      match readSource fs path with
      | .ok source => extractJavaEvents parser options candidatesOnly path source
      | .error _ => []
    else []

end

/-! ## Counting -/

/-- Counts the outcome of a file that is a Java source. -/
def Metrics.recordOutcome (m : Metrics) : Except ExtractError (Option Bytes) → Metrics
  | .ok (some _) => { m with filesExtracted := m.filesExtracted + 1 }
  | .ok none => { m with candidatesSkipped := m.candidatesSkipped + 1 }
  | .error e => m.recordError e

/-- Counts the outcome of a file; one that is no Java source does not count. -/
def Metrics.recordFile (m : Metrics) (path : String) (outcome : Except ExtractError (Option Bytes)) :
    Metrics :=
  if Path.isJava path then m.recordOutcome outcome else m

end JavaOutline

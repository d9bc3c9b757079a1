import JavaOutline.Files.Extract
import JavaOutline.Files.Walk
import JavaOutline.Manifest

/-! # Extracting a batch of sources

Every source of a batch is read and hashed.  One that the previous manifest records with the same
hash and whose output is still there is left alone; any other one is extracted, and its outline
is written below the output directory.

`Batch.processAll` takes the sources one after the other; the results become a manifest by
`manifestOf` and counts by `metricsOf`.
-/

namespace JavaOutline.Command

/-- What became of one source. -/
structure FileResult where
  rel : String
  /-- The entry for the new manifest. -/
  recorded : Option ManifestEntry := none
  metrics : Metrics := {}
  failed : Bool := false
  events : List Event := []

/-- What the sources of a batch have in common. -/
structure Batch where
  parser : Parser
  options : ExtractOptions
  /-- Whether sources that are no benchmark candidates are wanted too. -/
  all : Bool
  outDir : String
  /-- The manifest of the run before. -/
  previous : Manifest

/-- The output of a source, relative to the output directory. -/
def outputOf (rel : String) : String :=
  rel ++ ".ast"

namespace Batch

variable (b : Batch)

/-- Writes the outline of a source; `result` says what is known of the source by then. -/
def write (fs : FileSystem) (file : SourceFile) (hash : String) (encoded : Bytes)
    (result : FileResult) : FileSystem × FileResult :=
  let path := Path.join b.outDir (outputOf file.rel)
  let failure (e : FileError) : FileResult :=
    { result with
      metrics := { result.metrics with ioErrors := result.metrics.ioErrors + 1 }
      failed := true
      events := result.events ++
        [{ level := .warn, message := "Failed to write output"
           fields := [("file", .plain file.rel), ("error", .plain e.message)] }] }
  match fs.makeLeading path with
  | .error e => (fs, failure e)
  | .ok fs =>
    -- From here on the directories stay, even if the file itself cannot be written.
    match fs.writeBytes path encoded with
    | .error e => (fs, failure e)
    | .ok fs =>
      (fs, { result with
        recorded := some ⟨hash, outputOf file.rel⟩
        events := result.events ++
          [{ level := .debug, message := "AST written"
             fields := [("file", .plain file.rel), ("output", .plain path)] }] })

/-- Extracts a source that is new or has changed. -/
def extract (fs : FileSystem) (file : SourceFile) (hash : String) : FileSystem × FileResult :=
  let outcome := extractFile b.parser b.options fs (!b.all) file.path
  let result : FileResult :=
    { rel := file.rel
      metrics := Metrics.recordFile {} file.path outcome
      events := extractFileEvents b.parser b.options fs (!b.all) file.path }
  match outcome with
  | .ok (some encoded) => b.write fs file hash encoded result
  | .ok none => (fs, result)
  | .error e =>
    (fs, { result with
      failed := true
      events := result.events ++
        [{ level := .warn, message := "Extraction failed"
           fields := [("file", .plain file.rel), ("error", .plain e.message)] }] })

/-- Deals with one source. -/
def process (fs : FileSystem) (file : SourceFile) : FileSystem × FileResult :=
  match fs.readBytes file.path with
  | .error e =>
    (fs, { rel := file.rel, metrics := { ioErrors := 1 }, failed := true
           events := [{ level := .warn, message := "Failed to read file"
                        fields := [("file", .plain file.path), ("error", .plain e.message)] }] })
  | .ok content =>
    let hash := Blake3.hexHash content
    match b.previous.fresh? fs b.outDir file.rel hash with
    | some e =>
      (fs, { rel := file.rel, recorded := some e, metrics := { cacheHits := 1 }
             events := [{ level := .debug, message := "Unchanged, skipping"
                          fields := [("file", .plain file.rel)] }] })
    | none => b.extract fs file hash

/-- Deals with the sources of a batch in order. -/
def processAll (fs : FileSystem) : List SourceFile → FileSystem × List FileResult
  | [] => (fs, [])
  | file :: files =>
    let (fs, result) := b.process fs file
    let (fs, results) := processAll fs files
    (fs, result :: results)

end Batch

/-! ## Results together -/

/-- The counts of results together. -/
def metricsOf (results : List FileResult) : Metrics :=
  results.foldl (fun m r => m.merge r.metrics) {}

/-- The number of failed sources. -/
def failedCount (results : List FileResult) : Nat :=
  results.countP (·.failed)

/-- The manifest that results make under a fingerprint. -/
def manifestOf (fingerprint : String) (results : List FileResult) : Manifest :=
  results.foldl (fun m r =>
    match r.recorded with
    | some e => m.insert r.rel e
    | none => m) { fingerprint }

end JavaOutline.Command

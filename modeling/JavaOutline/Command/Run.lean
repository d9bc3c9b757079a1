import JavaOutline.Command.Arguments
import JavaOutline.Command.Batch
import JavaOutline.Config
import JavaOutline.Outline.Decode

/-! # Running a command

A run takes a file system to another one, and leaves an exit code, a text for the reader, log
events and, if it broke off, the cause.  Exit codes: 0 if all went well, 1 if the run broke off or
a source failed, 2 if the arguments were not understood.

`run` is the whole program as a function of its arguments and of the files.
-/

namespace JavaOutline.Command

/-- Why a run breaks off. -/
inductive Fatal where
  | configuration
  | unresolved (path : String)
  | walk (cause : FileError)
  | uncreated (path : String)
  | unwritten (path : String)
  | unread (path : String)
  | undecoded (path : String)
deriving DecidableEq

/-- The wording of a cause. -/
def Fatal.message : Fatal → String
  | configuration => "failed to load configuration"
  | unresolved path => "failed to resolve " ++ path
  | walk cause => cause.message
  | uncreated path => "failed to create " ++ path
  | unwritten path => "failed to write " ++ path
  | unread path => "failed to read " ++ path
  | undecoded path => "failed to decode " ++ path

/-- What a run leaves behind. -/
structure Outcome where
  files : FileSystem
  exitCode : Nat
  /-- What is printed for the reader. -/
  output : Bytes := []
  /-- What was logged. -/
  events : List Event := []
  fatal : Option Fatal := none
  /-- The metrics, where they are printed beside the log. -/
  metrics : Option Bytes := none

/-- The outcome of a run that breaks off. -/
def Outcome.brokenOff (files : FileSystem) (events : List Event) (cause : Fatal) : Outcome :=
  { files, exitCode := 1, events, fatal := some cause }

/-! ## Inspecting -/

/-- Bytes with a line break at the end. -/
def withLineBreak (bytes : Bytes) : Bytes :=
  if bytes.getLast? == some 0x0a then bytes else bytes ++ [0x0a]

/-- Shows a persisted outline. -/
def InspectRequest.run (fs : FileSystem) (r : InspectRequest) : Outcome :=
  match fs.readBytes r.file with
  | .error _ => .brokenOff fs [] (.unread r.file)
  | .ok content =>
    match Outline.decode content with
    | .error _ => .brokenOff fs [] (.undecoded r.file)
    | .ok outline =>
      { files := fs, exitCode := 0, output := withLineBreak (outline.render r.format) }

/-! ## Extracting -/

/-- A detail about a path. -/
def pathEvent (message path : String) : Event :=
  { level := .debug, message, fields := [("path", .plain path)] }

/-- What is logged about a visit on the way through a directory. -/
def visitEvents : Visit → List Event
  | .excluded path => [pathEvent "Path excluded" path]
  | .link path => [pathEvent "Symlink skipped" path]
  | .directory path => [pathEvent "Entering directory" path]
  | .accepted source => [typeEvent source.path, pathEvent "File discovered" source.path]
  | .passedOver path => [typeEvent path]

namespace ExtractRequest

variable (r : ExtractRequest)

/-- Whether an event is logged: nothing in quiet runs, details only when debugging. -/
def logs (e : Event) : Bool :=
  !r.quiet && (if r.debug then Level.debug else Level.info).rank ≤ e.level.rank

/-- The options of extraction: those configured, unless the request says otherwise. -/
def optionsOver (configured : ExtractOptions) : ExtractOptions :=
  { configured with
    marker := r.marker.getD configured.marker
    maxDepth := r.maxDepth.getD configured.maxDepth }

/-- The patterns of paths to leave out; a configured one that is malformed is passed over. -/
def patterns (config : Config) : List Glob :=
  r.exclude ++ config.exclude.filterMap Glob.parseExclude? ++
    (if r.noDefaultExclude then [] else Glob.defaultExcludes)

/-- What is logged about configured patterns that are malformed. -/
def patternEvents (config : Config) : List Event :=
  (config.exclude.filter fun pattern => (Glob.parseExclude? pattern).isNone).map fun pattern =>
    { level := .warn, message := "Ignoring invalid exclude pattern"
      fields := [("pattern", .plain pattern), ("error", .plain Glob.bracketMessage)] }

/-- What is logged before anything else. -/
def debugEvents : List Event :=
  if r.debug then [{ level := .debug, message := "Debug mode enabled" }] else []

/-- What is logged once it is known where to start. -/
def startEvents (options : ExtractOptions) (root : String) : List Event :=
  [{ level := .info, message := "Extraction started", fields := [("target", .plain root)] },
    { level := .debug, message := "Extraction options"
      fields := [("marker", .plain options.marker), ("max_depth", .number options.maxDepth),
        ("max_file_size", .number r.maxFileSize)] }]

/-- What is logged once all sources are known. -/
def queuedEvent (sources : List SourceFile) : Event :=
  { level := .info, message := "Files queued", fields := [("files", .number sources.length)] }

/-- What is logged about a manifest that other settings made. -/
def staleEvents (fs : FileSystem) (fingerprint : String) : List Event :=
  if Manifest.isStale fs r.out fingerprint then
    [{ level := .debug, message := "Extraction settings changed, previous outputs are stale" }]
  else []

/-- What is logged at the end. -/
def completedEvent (results : List FileResult) : Event :=
  let m := metricsOf results
  { level := .info, message := "Extraction completed"
    fields := [("extracted", .number m.filesExtracted), ("unchanged", .number m.cacheHits),
      ("skipped", .number m.candidatesSkipped), ("failed", .number (failedCount results))] }

/-- The outcome when the outputs are written and the manifest is saved: what is left is to hand
    out the metrics. -/
def finish (fs : FileSystem) (events : List Event) (results : List FileResult) : Outcome :=
  let document := (metricsOf results).toJson.pretty
  let done : Outcome :=
    { files := fs, exitCode := if failedCount results = 0 then 0 else 1
      events := events ++ [completedEvent results] }
  match r.metrics with
  | none => done
  -- A single hyphen names no file: the metrics join the log.
  | some "-" => { done with metrics := if r.quiet then none else some (document ++ [0x0a]) }
  | some path =>
    match fs.writeBytes path document with
    | .ok fs => { done with files := fs }
    | .error _ => .brokenOff fs events (.unwritten path)

/-- Extracts the sources that were found. -/
def runBatch (parser : Parser) (options : ExtractOptions) (fs : FileSystem) (events : List Event)
    (sources : List SourceFile) : Outcome :=
  match fs.makeDirs r.out with
  | .error _ => .brokenOff fs events (.uncreated r.out)
  | .ok fs =>
    let fingerprint := JavaOutline.fingerprint options r.all
    let batch : Batch :=
      { parser, options, all := r.all, outDir := r.out
        previous := Manifest.load fs r.out fingerprint }
    let events := events ++ r.staleEvents fs fingerprint
    let (fs, results) := batch.processAll fs sources
    let events := events ++ results.flatMap (·.events)
    -- Without a manifest the outputs are there, but no later run will rely on them.
    match (manifestOf fingerprint results).save fs r.out with
    | .error _ => .brokenOff fs events (.unwritten (Manifest.pathIn r.out))
    | .ok fs => r.finish fs events results

/-- Extracts the sources below a path. -/
def runAll (parser : Parser) (home : String) (fs : FileSystem) : Outcome :=
  match Config.load fs home with
  | .error _ => .brokenOff fs [] .configuration
  | .ok config =>
    let options := r.optionsOver config.extract
    match fs.canonical r.path with
    | .error _ => .brokenOff fs r.debugEvents (.unresolved r.path)
    | .ok root =>
      let events := r.debugEvents ++ r.startEvents options root ++ patternEvents config
      match fs.visits (fs.isExcluded (r.patterns config) r.maxFileSize) Path.isJava root with
      | .error cause => .brokenOff fs events (.walk cause)
      | .ok visits =>
        let sources := sourcesOf visits
        r.runBatch parser options fs
          (events ++ visits.flatMap visitEvents ++ [queuedEvent sources]) sources

/-- Extracts the sources below a path and logs what the request asks for. -/
def run (parser : Parser) (home : String) (fs : FileSystem) : Outcome :=
  let outcome := r.runAll parser home fs
  { outcome with events := outcome.events.filter r.logs }

end ExtractRequest

/-! ## The program -/

/-- The name and version of the program. -/
def versionLine : String := "microast 1.0.0\n"

/-- Runs the program. -/
def run (parser : Parser) (home : String) (fs : FileSystem) (arguments : List String) : Outcome :=
  match Request.ofArguments? arguments with
  | none => { files := fs, exitCode := 2 }
  | some .version => { files := fs, exitCode := 0, output := utf8 versionLine }
  | some (.inspect r) => r.run fs
  | some (.extract r) => r.run parser home fs

end JavaOutline.Command

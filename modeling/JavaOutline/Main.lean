import JavaOutline.Command.Snapshot

/-! # The program

The program runs a command on the snapshot of files that it reads from standard input.  It prints
the text for the reader and then, if the run changed files, a document with their new contents.
The log goes to standard error.
-/

open JavaOutline

/-- All that is left to read of a stream, behind what was read before. -/
partial def readAll (stream : IO.FS.Stream) (before : ByteArray) : IO ByteArray := do
  let chunk ← stream.read 65536
  if chunk.isEmpty then return before else readAll stream (before ++ chunk)

/-- Prints bytes. -/
def printBytes (stream : IO.FS.Stream) (bytes : Bytes) : IO Unit := do
  stream.write ⟨bytes.toArray⟩
  stream.flush

/-- Runs a command on a snapshot and prints what it leaves behind. -/
def runOn (snapshot : Command.Snapshot) (arguments : List String) : IO UInt32 := do
  let outcome := Command.run snapshot.parser snapshot.home snapshot.files arguments
  let stderr ← IO.getStderr
  for e in outcome.events do
    stderr.putStrLn e.line
  printBytes stderr (outcome.metrics.getD [])
  if let some cause := outcome.fatal then
    stderr.putStrLn ("Error: " ++ cause.message)
  let stdout ← IO.getStdout
  printBytes stdout outcome.output
  match snapshot.changes outcome with
  | .object [] => pure ()
  | changes => printBytes stdout (changes.pretty ++ [0x0a])
  return outcome.exitCode.toUInt32

def main (arguments : List String) : IO UInt32 := do
  let document ← readAll (← IO.getStdin) ByteArray.empty
  match Command.Snapshot.ofBytes? document.data.toList with
  | some snapshot => runOn snapshot arguments
  | none =>
    (← IO.getStderr).putStrLn "Error: no snapshot of files on standard input"
    return 2

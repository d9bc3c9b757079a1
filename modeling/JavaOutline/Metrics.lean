import JavaOutline.Extraction
import JavaOutline.Outline.Encode

/-! # Counting what became of files -/

namespace JavaOutline

/-- How many files met each fate. -/
structure Metrics where
  filesExtracted : Nat := 0
  candidatesSkipped : Nat := 0
  cacheHits : Nat := 0
  ioErrors : Nat := 0
  parseErrors : Nat := 0
deriving DecidableEq

namespace Metrics

/-- Counts a failure; one that is neither of reading nor of parsing is not counted. -/
def recordError (m : Metrics) (e : ExtractError) : Metrics :=
  if e.isIo then { m with ioErrors := m.ioErrors + 1 }
  else if e.isParse then { m with parseErrors := m.parseErrors + 1 }
  else m

/-- The sums of two counts. -/
def merge (m other : Metrics) : Metrics where
  filesExtracted := m.filesExtracted + other.filesExtracted
  candidatesSkipped := m.candidatesSkipped + other.candidatesSkipped
  cacheHits := m.cacheHits + other.cacheHits
  ioErrors := m.ioErrors + other.ioErrors
  parseErrors := m.parseErrors + other.parseErrors

/-- The number of failed files. -/
def failures (m : Metrics) : Nat :=
  m.ioErrors + m.parseErrors

/-- The number of files counted. -/
def total (m : Metrics) : Nat :=
  m.filesExtracted + m.candidatesSkipped + m.cacheHits + m.failures

/-- The counts as a document. -/
def toJson (m : Metrics) : Json :=
  .record [("files_extracted", .number (Json.decimal m.filesExtracted)),
    ("candidates_skipped", .number (Json.decimal m.candidatesSkipped)),
    ("cache_hits", .number (Json.decimal m.cacheHits)),
    ("io_errors", .number (Json.decimal m.ioErrors)),
    ("parse_errors", .number (Json.decimal m.parseErrors))]

end Metrics

end JavaOutline

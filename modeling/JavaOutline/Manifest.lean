import JavaOutline.Extraction
import JavaOutline.Hash.Blake3
import JavaOutline.Outline.Decode

/-! # The manifest of an output directory

A manifest records, for each extracted source, the hash of its bytes and the output that was
written for it, and the fingerprint of the settings under which this was done.  It is kept in the
output directory, so that a later run can leave unchanged sources alone.

* `FileTable` is a table of entries sorted by key.
* `Manifest.ofBytes?` reads what `Manifest.encode` writes, and more liberal spellings.
* `Manifest.load` and `Manifest.save` keep a manifest in an output directory.
* `fingerprint` covers the settings that shape an output.
-/

namespace JavaOutline

/-! ## Tables -/

/-- The last extraction of one source. -/
structure ManifestEntry where
  /-- The hash of the source's bytes. -/
  hash : String
  /-- The output, relative to the output directory. -/
  output : String
deriving DecidableEq

/-- A table of entries, sorted by key. -/
structure FileTable where
  entries : List (String × ManifestEntry)
  sorted : entries.Pairwise (fun a b => a.1 < b.1)
deriving DecidableEq

namespace FileTable

/-- The table without entries. -/
def empty : FileTable :=
  ⟨[], .nil⟩

/-- Puts an entry into a sorted list, in place of one with the same key. -/
def insertInto (key : String) (e : ManifestEntry) :
    List (String × ManifestEntry) → List (String × ManifestEntry)
  | [] => [(key, e)]
  | (k, x) :: rest =>
    if key < k then (key, e) :: (k, x) :: rest
    else if key = k then (key, e) :: rest
    else (k, x) :: insertInto key e rest

theorem mem_insertInto {key : String} {e : ManifestEntry} {entries : List (String × ManifestEntry)}
    {p : String × ManifestEntry} (h : p ∈ insertInto key e entries) :
    p = (key, e) ∨ p ∈ entries := by
  induction entries with
  | nil => simpa [insertInto] using h
  | cons q rest ih =>
    rw [insertInto] at h
    split at h
    · simpa using h
    · split at h
      · simp only [List.mem_cons] at h ⊢
        exact h.imp_right .inr
      · simp only [List.mem_cons] at h ⊢
        rcases h with h | h
        · exact .inr (.inl h)
        · exact (ih h).imp_right .inr

theorem pairwise_insertInto {key : String} {e : ManifestEntry}
    {entries : List (String × ManifestEntry)} (h : entries.Pairwise (fun a b => a.1 < b.1)) :
    (insertInto key e entries).Pairwise (fun a b => a.1 < b.1) := by
  induction entries with
  | nil => simp [insertInto]
  | cons q rest ih =>
    obtain ⟨hq, hrest⟩ := List.pairwise_cons.1 h
    rw [insertInto]
    split
    · rename_i hlt
      refine List.pairwise_cons.2 ⟨fun p hp => ?_, h⟩
      rcases List.mem_cons.1 hp with rfl | hp
      · exact hlt
      · exact String.lt_trans hlt (hq p hp)
    · split
      · rename_i heq
        exact List.pairwise_cons.2 ⟨fun p hp => heq ▸ hq p hp, hrest⟩
      · rename_i hlt hne
        refine List.pairwise_cons.2 ⟨fun p hp => ?_, ih hrest⟩
        rcases mem_insertInto hp with rfl | hp
        · grind
        · exact hq p hp

/-- Puts an entry into the table, in place of one with the same key. -/
def insert (t : FileTable) (key : String) (e : ManifestEntry) : FileTable :=
  ⟨insertInto key e t.entries, pairwise_insertInto t.sorted⟩

/-- The entry with a key. -/
def get? (t : FileTable) (key : String) : Option ManifestEntry :=
  t.entries.lookup key

/-- The table of a list of entries, of which the last with a key counts. -/
def ofList (entries : List (String × ManifestEntry)) : FileTable :=
  entries.foldl (fun t (key, e) => t.insert key e) empty

end FileTable

/-- A record of one run. -/
structure Manifest where
  /-- The fingerprint of the settings of the run. -/
  fingerprint : String
  /-- The extracted sources by their relative paths. -/
  files : FileTable := .empty
deriving DecidableEq

namespace Manifest

/-- Records a source. -/
def insert (m : Manifest) (rel : String) (e : ManifestEntry) : Manifest :=
  { m with files := m.files.insert rel e }

/-! ## Persisted form -/

/-- The persisted form of a manifest. -/
def toJson (m : Manifest) : Json :=
  .record [("fingerprint", .text m.fingerprint),
    ("files", .record (m.files.entries.map fun (rel, e) =>
      (rel, .record [("hash", .text e.hash), ("output", .text e.output)])))]

/-- The bytes that persist a manifest. -/
def encode (m : Manifest) : Bytes :=
  m.toJson.pretty

/-- Whether every field of an object has a text for its name. -/
def namesAreTexts (fields : List (Bytes × Json)) : Bool :=
  fields.all fun (name, _) => (Json.unescape? name).isSome

/-- Reads an entry: an object with each of its fields once, or an array of both. -/
def entryOfJson? : Json → Option ManifestEntry
  | .array [hash, output] => return ⟨← hash.text?, ← output.text?⟩
  | .object fields => do
    if namesAreTexts fields then
      let hash ← Envelope.onlyField? "hash" fields
      let output ← Envelope.onlyField? "output" fields
      return ⟨← hash.text?, ← output.text?⟩
    else none
  | _ => none

/-- Reads a table: an object, of whose fields the last with a name counts. -/
def filesOfJson? : Json → Option FileTable
  | .object fields => do
    return .ofList (← fields.mapM fun (name, v) => do
      return (← Json.unescape? name, ← entryOfJson? v))
  | _ => none

/-- The value of a field that may be missing but not repeated. -/
def optionalField? (name : String) (fields : List (Bytes × Json)) : Option (Option Json) :=
  match fields.filter (Json.isNamed name) with
  | [] => some none
  | [(_, v)] => some (some v)
  | _ => none

/-- A manifest from the values of its fields; a missing one is empty. -/
def ofParts? (fingerprint files : Option Json) : Option Manifest := do
  let fingerprint ← match fingerprint with
    | some v => v.text?
    | none => some ""
  let files ← match files with
    | some v => filesOfJson? v
    | none => some .empty
  return ⟨fingerprint, files⟩

/-- Reads a manifest: an object, or an array of its fields in order. -/
def ofJson? : Json → Option Manifest
  | .array [] => ofParts? none none
  | .array [fingerprint] => ofParts? (some fingerprint) none
  | .array [fingerprint, files] => ofParts? (some fingerprint) (some files)
  | .object fields => do
    if namesAreTexts fields then
      ofParts? (← optionalField? "fingerprint" fields) (← optionalField? "files" fields)
    else none
  | _ => none

/-- The manifest that a document persists. -/
def ofBytes? (bytes : Bytes) : Option Manifest := do
  let _ ← ofUtf8? bytes
  ofJson? (← Json.parse? bytes)

/-! ## Output directories -/

/-- The name of the manifest in an output directory. -/
def fileName : String := "manifest.json"

/-- The path of the manifest of an output directory. -/
def pathIn (outDir : String) : String :=
  Path.join outDir fileName

/-- The manifest in an output directory, if there is a readable one. -/
def read? (fs : FileSystem) (outDir : String) : Option Manifest := do
  ofBytes? (← (fs.readBytes (pathIn outDir)).toOption)

/-- The manifest to go on from: the one in the output directory if it was made under the same
    settings, and an empty one otherwise. -/
def load (fs : FileSystem) (outDir fingerprint : String) : Manifest :=
  match read? fs outDir with
  | some m => if m.fingerprint = fingerprint then m else { fingerprint }
  | none => { fingerprint }

/-- Whether an output directory has a manifest that was made under other settings. -/
def isStale (fs : FileSystem) (outDir fingerprint : String) : Bool :=
  (read? fs outDir).any (·.fingerprint != fingerprint)

/-- Writes a manifest into an output directory. -/
def save (m : Manifest) (fs : FileSystem) (outDir : String) : Except FileError FileSystem :=
  fs.writeBytes (pathIn outDir) m.encode

/-- The record of a source whose hash is the recorded one and whose output is still there. -/
def fresh? (m : Manifest) (fs : FileSystem) (outDir rel hash : String) : Option ManifestEntry :=
  (m.files.get? rel).filter fun e => e.hash == hash && fs.isFile (Path.join outDir e.output)

end Manifest

/-! ## Fingerprints -/

/-- The bytes of a number below `2 ^ (8 * count)`, the least significant first. -/
def littleEndian : (count : Nat) → Nat → Bytes
  | 0, _ => []
  | count + 1, n => n.toUInt8 :: littleEndian count (n / 256)

/-- Everything besides the source that shapes an output, as bytes: schema, version, nesting
    budget, whether all files are wanted, and the marker, whose case does not matter. -/
def settingsBytes (options : ExtractOptions) (all : Bool) : Bytes :=
  utf8 schemaName ++ littleEndian 4 schemaVersion ++ littleEndian 8 options.maxDepth ++
    [if all then 1 else 0] ++ utf8 (Text.lower options.marker)

/-- The fingerprint of the settings of a run. -/
def fingerprint (options : ExtractOptions) (all : Bool) : String :=
  Blake3.hexHash (settingsBytes options all)

end JavaOutline

import JavaOutline.Manifest
import JavaOutline.Proofs.Json.Utf8
import JavaOutline.Proofs.Outline.RoundTrip
import Mathlib.Algebra.Group.Nat.Defs

/-!
# Manifests read back, and what a fingerprint covers

A manifest is written with its entries in order of their keys, so reading it entry by entry builds
the same table again.  The settings behind a fingerprint are written with a fixed width up to the
marker, which comes last, so different settings are different bytes.

## Key results

- `ofBytes?_encode`: what persists a manifest reads back as the manifest
- `settingsBytes_inj`: equal settings bytes mean equal settings
-/

namespace JavaOutline

/-! ## Tables -/

namespace FileTable

/-- A key behind all others is put at the end. -/
theorem insertInto_of_forall_lt {key : String} {e : ManifestEntry}
    {entries : List (String × ManifestEntry)} (h : ∀ p ∈ entries, p.1 < key) :
    insertInto key e entries = entries ++ [(key, e)] := by
  induction entries with
  | nil => rfl
  | cons p entries ih =>
    have hlt : p.1 < key := h p List.mem_cons_self
    have hle : ¬ key < p.1 := String.lt_asymm hlt
    have hne : key ≠ p.1 := fun heq => String.lt_irrefl key (heq ▸ hlt)
    rw [insertInto, if_neg hle, if_neg hne, ih fun q hq => h q (List.mem_cons_of_mem p hq)]
    rfl

/-- Sorted entries behind those of a table are put at its end one by one. -/
theorem entries_foldl_insert {entries : List (String × ManifestEntry)} {t : FileTable}
    (h : (t.entries ++ entries).Pairwise (fun a b => a.1 < b.1)) :
    (entries.foldl (fun t (key, e) => t.insert key e) t).entries = t.entries ++ entries := by
  induction entries generalizing t with
  | nil => simp
  | cons p entries ih =>
    obtain ⟨key, e⟩ := p
    -- Every key that is already in the table is smaller, so the next one goes to the end.
    have hbefore : ∀ q ∈ t.entries, q.1 < key := fun q hq =>
      (List.pairwise_append.1 h).2.2 q hq (key, e) List.mem_cons_self
    have hinsert : (t.insert key e).entries = t.entries ++ [(key, e)] :=
      insertInto_of_forall_lt hbefore
    rw [List.foldl_cons, ih (by simpa [hinsert] using h), hinsert, List.append_assoc]
    rfl

/-- An entry with another key is passed over. -/
theorem lookup_cons_of_ne {key key' : String} (h : key' ≠ key) (e : ManifestEntry)
    (entries : List (String × ManifestEntry)) :
    ((key, e) :: entries).lookup key' = entries.lookup key' := by
  rw [List.lookup_cons, beq_false_of_ne h]

/-- What is found among entries once one is put in. -/
theorem lookup_insertInto (key key' : String) (e : ManifestEntry)
    (entries : List (String × ManifestEntry)) :
    (insertInto key e entries).lookup key' =
      if key' = key then some e else entries.lookup key' := by
  induction entries with
  | nil =>
    rw [insertInto]
    split
    · rename_i heq
      rw [heq, List.lookup_cons_self]
    · rename_i hne
      rw [lookup_cons_of_ne hne]
  | cons p entries ih =>
    obtain ⟨k, x⟩ := p
    rw [insertInto]
    by_cases heq : key' = key
    · -- The new entry comes before anything else with its key.
      subst heq
      rw [if_pos rfl] at ih ⊢
      split
      · exact List.lookup_cons_self
      · split
        · exact List.lookup_cons_self
        · rename_i hne
          rw [lookup_cons_of_ne hne, ih]
    · rw [if_neg heq] at ih ⊢
      split
      · exact lookup_cons_of_ne heq e _
      · split
        · rename_i hkey
          rw [lookup_cons_of_ne heq, lookup_cons_of_ne (hkey ▸ heq)]
        · rw [List.lookup_cons, List.lookup_cons, ih]

/-- What a table holds once an entry is put in. -/
theorem get?_insert (t : FileTable) (key key' : String) (e : ManifestEntry) :
    (t.insert key e).get? key' = if key' = key then some e else t.get? key' :=
  lookup_insertInto key key' e t.entries

/-- The entries of a table make this table. -/
theorem ofList_entries (t : FileTable) : ofList t.entries = t := by
  have h : (ofList t.entries).entries = t.entries :=
    entries_foldl_insert (t := empty) (by simpa [empty] using t.sorted)
  obtain ⟨entries, sorted⟩ := t
  generalize ofList entries = u at h
  obtain ⟨_, _⟩ := u
  subst h
  rfl

end FileTable

/-! ## Persisted form -/

namespace Manifest

/-- A manifest is written with canonical texts only. -/
theorem canonical_toJson (m : Manifest) : m.toJson.Canonical := by
  refine .record ?_
  simp only [List.forall_mem_cons, List.not_mem_nil, false_imp_iff, implies_true, and_true]
  refine ⟨.text _, .record fun f hf => ?_⟩
  obtain ⟨⟨rel, e⟩, -, rfl⟩ := List.mem_map.1 hf
  refine .record ?_
  simp only [List.forall_mem_cons, List.not_mem_nil, false_imp_iff, implies_true, and_true]
  exact ⟨.text _, .text _⟩

/-- The written form of an entry. -/
def entryToJson (e : ManifestEntry) : Json :=
  .record [("hash", .text e.hash), ("output", .text e.output)]

/-- A written entry reads back. -/
theorem entryOfJson?_entryToJson (e : ManifestEntry) :
    entryOfJson? (entryToJson e) = some e := by
  simp [entryToJson, entryOfJson?, Json.record, namesAreTexts, Envelope.onlyField?, List.filter]

/-- A written table reads back. -/
theorem filesOfJson?_record (t : FileTable) :
    filesOfJson? (.record (t.entries.map fun p => (p.1, entryToJson p.2))) = some t := by
  have hread (entries : List (String × ManifestEntry)) :
      (entries.map fun p => (Json.escape p.1, entryToJson p.2)).mapM
        (fun f => do return (← Json.unescape? f.1, ← entryOfJson? f.2)) = some entries := by
    induction entries with
    | nil => rfl
    | cons p entries ih =>
      rw [List.map_cons, List.mapM_cons, ih, Json.unescape?_escape, entryOfJson?_entryToJson]
      rfl
  have hfields : Json.record (t.entries.map fun p => (p.1, entryToJson p.2)) =
      .object (t.entries.map fun p => (Json.escape p.1, entryToJson p.2)) := by simp [Json.record]
  rw [hfields, filesOfJson?]
  -- The entries come back in the order of the table, and this order makes the table again.
  refine (congrArg (Option.bind · _) (hread t.entries)).trans ?_
  exact congrArg some t.ofList_entries

/-- A written manifest reads back. -/
theorem ofJson?_toJson (m : Manifest) : ofJson? m.toJson = some m := by
  have hfiles := filesOfJson?_record m.files
  have hjson : m.toJson = .object [(Json.escape "fingerprint", .text m.fingerprint),
      (Json.escape "files",
        .record (m.files.entries.map fun p => (p.1, entryToJson p.2)))] := rfl
  rw [hjson]
  simp [ofJson?, namesAreTexts, optionalField?, List.filter, ofParts?, hfiles]

/-- What persists a manifest reads back as the manifest. -/
theorem ofBytes?_encode (m : Manifest) : ofBytes? m.encode = some m := by
  -- A manifest is read as a text before it is read as a document.
  obtain ⟨text, htext⟩ := Option.isSome_iff_exists.1 m.canonical_toJson.isText_pretty.ofUtf8?
  have hparse : Json.parse? m.encode = some m.toJson :=
    Json.parse?_pretty m.canonical_toJson.wellSpelled
  rw [ofBytes?, encode, htext]
  rw [encode] at hparse
  simp [hparse, ofJson?_toJson]

/-- The manifest to go on from is the one that is read, if it has the same fingerprint. -/
theorem load_eq (fs : FileSystem) (outDir fingerprint : String) :
    load fs outDir fingerprint = match read? fs outDir with
      | some m => if m.fingerprint = fingerprint then m else { fingerprint }
      | none => { fingerprint } := by
  -- Without the definition unfolded, its parts would be evaluated.
  delta load
  rfl

/-- A manifest that was written is read again. -/
theorem read?_of_encode {fs : FileSystem} {outDir : String} {m : Manifest}
    (h : fs.readBytes (pathIn outDir) = .ok m.encode) : read? fs outDir = some m := by
  unfold read?
  rw [h]
  exact ofBytes?_encode m

/-- A manifest that was written is gone on from under the same fingerprint. -/
theorem load_of_encode {fs : FileSystem} {outDir : String} {m : Manifest}
    (h : fs.readBytes (pathIn outDir) = .ok m.encode) : load fs outDir m.fingerprint = m := by
  rw [load_eq, read?_of_encode h]
  exact if_pos rfl

/-- Which entry is fresh: the recorded one, if the hash is right and the output is there. -/
theorem fresh?_eq_some_iff {m : Manifest} {fs : FileSystem} {outDir rel hash : String}
    {e : ManifestEntry} :
    m.fresh? fs outDir rel hash = some e ↔
      m.files.get? rel = some e ∧ e.hash = hash ∧ fs.isFile (Path.join outDir e.output) = true := by
  rw [fresh?, Option.filter_eq_some_iff, Bool.and_eq_true, beq_iff_eq]

end Manifest

/-! ## Fingerprints -/

/-- A text is given by its bytes. -/
theorem utf8_inj {s t : String} (h : utf8 s = utf8 t) : s = t := by
  have hread := congrArg ofUtf8? h
  simpa using hread

@[simp] theorem length_littleEndian (count n : Nat) : (littleEndian count n).length = count := by
  induction count generalizing n with
  | zero => rfl
  | succ count ih => simp [littleEndian, ih]

/-- A number is given by as many bytes as it needs. -/
theorem littleEndian_inj {count n k : Nat} (hn : n < 256 ^ count) (hk : k < 256 ^ count)
    (h : littleEndian count n = littleEndian count k) : n = k := by
  induction count generalizing n k with
  | zero =>
    rw [Nat.pow_zero] at hn hk
    omega
  | succ count ih =>
    rw [littleEndian, littleEndian, List.cons.injEq] at h
    -- The first byte is the remainder, and the other bytes write the quotient.
    have hbyte : n % 256 = k % 256 := by simpa [← UInt8.toNat_inj] using h.1
    have hrest : n / 256 = k / 256 := by
      refine ih ?_ ?_ h.2
      · rw [Nat.div_lt_iff_lt_mul (by decide)]
        rwa [Nat.pow_succ] at hn
      · rw [Nat.div_lt_iff_lt_mul (by decide)]
        rwa [Nat.pow_succ] at hk
    rw [← Nat.div_add_mod n 256, ← Nat.div_add_mod k 256, hbyte, hrest]

/-- Equal settings bytes mean an equal budget, an equal wish for all files, and markers that differ
    in case only. -/
theorem settingsBytes_inj {o o' : ExtractOptions} {all all' : Bool}
    (h : settingsBytes o all = settingsBytes o' all') (ho : o.maxDepth < Number.wordBound)
    (ho' : o'.maxDepth < Number.wordBound) :
    o.maxDepth = o'.maxDepth ∧ all = all' ∧ Text.lower o.marker = Text.lower o'.marker := by
  -- Budget and flag take a fixed number of bytes, and the marker is all that is left.
  simp only [settingsBytes, List.append_assoc, List.append_cancel_left_eq] at h
  obtain ⟨hdepth, h⟩ := List.append_inj h (by simp)
  obtain ⟨hall, hmarker⟩ := List.append_inj h (by simp)
  refine ⟨littleEndian_inj ho ho' hdepth, ?_, utf8_inj hmarker⟩
  cases all <;> cases all' <;> simp_all

end JavaOutline

import JavaOutline.Proofs.Normalize.Tracked

/-!
# The account of omitted nodes

At the end an extraction logs how many nodes it omitted.  The number is that of the constructs
without a form in an outline, each of which was logged when it was met, and of the subtrees that the
budget refused, of which only the first was.

The account is balanced before the first call of a normalization.  Noting a remark keeps it so, and
a call does nothing else to the log.

## Key results

- `OmissionLog.Balanced.note`, `OmissionLog.Balanced.replay`: noting remarks keeps the account
- `Tracked.Call.kept`: what every call of a normalization keeps
- `omissions_balance`: the account of an extraction
-/

namespace JavaOutline

open Syntax (Node)

/-! ## Balance -/

namespace Remark

/-- The message of the event on a construct that has no form in an outline. -/
def omitted : String := "Unsupported construct omitted"

/-- An omission is logged as such unless it is a refusal. -/
theorem countP_omitted (maxDepth : Nat) (r : Remark) :
    [r.event maxDepth].countP (·.message == omitted) + (if r.isTooDeep then 1 else 0) =
      if r.isOmission then 1 else 0 := by
  cases r <;> simp [event, omitted, isOmission, isTooDeep]

/-- A refusal is logged as the warning about nesting, and nothing else is. -/
theorem countP_depthWarning (maxDepth : Nat) (r : Remark) :
    [r.event maxDepth].countP (·.message == depthWarning) = if r.isTooDeep then 1 else 0 := by
  cases r <;> simp [event, depthWarning, isTooDeep]

end Remark

namespace OmissionLog

/-- Whether the counts of a log are those that its events tell. -/
structure Balanced (log : OmissionLog) : Prop where
  unsupported : log.unsupported =
    log.events.countP (·.message == Remark.omitted) + log.refused
  warnings : log.events.countP (·.message == Remark.depthWarning) =
    if 0 < log.refused then 1 else 0
  hasWarned : log.hasWarned = decide (0 < log.refused)

/-- Nothing is counted in an empty log. -/
theorem balanced_empty : Balanced {} :=
  ⟨rfl, rfl, rfl⟩

section

variable {maxDepth : Nat} {log : OmissionLog}

/-- One more remark keeps the balance. -/
theorem Balanced.note (h : log.Balanced) (r : Remark) : (log.note maxDepth r).Balanced := by
  have homitted := Remark.countP_omitted maxDepth r
  have hwarning := Remark.countP_depthWarning maxDepth r
  constructor
  case unsupported =>
    rw [unsupported_note, refused_note, events_note, List.countP_append, h.unsupported, ← homitted]
    by_cases hsilent : (log.hasWarned && r.isTooDeep) = true
    · -- A warning that is not logged would have been no event on a construct.
      rw [if_pos hsilent, List.countP_nil]
      rw [if_pos (Bool.and_eq_true_iff.1 hsilent).2] at homitted ⊢
      have hone : (if r.isOmission then 1 else 0) ≤ 1 := by split <;> omega
      omega
    · rw [if_neg hsilent]
      omega
  case warnings =>
    rw [refused_note, events_note, List.countP_append, h.warnings, h.hasWarned]
    cases hdeep : r.isTooDeep with
    | false =>
      rw [hdeep] at hwarning
      simp [hwarning]
    | true =>
      -- The flag tells whether this is the first refusal.
      rw [hdeep] at hwarning
      by_cases hfirst : 0 < log.refused
      · simp [hfirst]
      · simp [hfirst, hwarning]
  case hasWarned =>
    rw [hasWarned_note, refused_note, h.hasWarned]
    cases r.isTooDeep <;> simp

/-- Any number of remarks keeps the balance. -/
theorem Balanced.replay (h : log.Balanced) (rs : List Remark) :
    (log.replay maxDepth rs).Balanced := by
  induction rs generalizing log with
  | nil => exact h
  | cons r rs ih => exact ih (h.note r)

/-- What is logged of remarks: of the warnings about nesting only the first. -/
theorem events_replay (rs : List Remark) :
    (log.replay maxDepth rs).events =
      log.events ++ (if log.hasWarned then rs.filter (!·.isTooDeep) else Remark.logged rs).map
        (Remark.event maxDepth) := by
  induction rs generalizing log with
  | nil => cases log.hasWarned <;> simp [replay, Remark.logged]
  | cons r rs ih =>
    rw [replay_cons, ih, events_note, hasWarned_note]
    cases hwarned : log.hasWarned <;> cases hdeep : r.isTooDeep <;> simp [Remark.logged, hdeep]

/-- The number of omissions among remarks is counted. -/
theorem unsupported_replay (rs : List Remark) :
    (log.replay maxDepth rs).unsupported = log.unsupported + Remark.unsupportedCount rs := by
  induction rs generalizing log with
  | nil => rfl
  | cons r rs ih =>
    rw [replay_cons, ih, unsupported_note, Remark.unsupportedCount, Remark.unsupportedCount,
      List.countP_cons]
    omega

/-- The number of refusals among remarks is counted. -/
theorem refused_replay (rs : List Remark) :
    (log.replay maxDepth rs).refused = log.refused + rs.countP Remark.isTooDeep := by
  induction rs generalizing log with
  | nil => rfl
  | cons r rs ih =>
    rw [replay_cons, ih, refused_note, List.countP_cons]
    omega

end

end OmissionLog

/-! ## Calls -/

namespace Tracked

/-- A call of a normalization.  What a step does for one form of a node is part of the step. -/
inductive Call where
  | leaveOut (category : Category) (n : Node)
  | expression (n : Node)
  | expressionStep (n : Node)
  | containedParts (n : Node)
  | blockParts (n : Node)
  | condition (n : Node)
  | statement (n : Node)
  | statementStep (n : Node)
  | method (n : Node)
  | members (n : Node)
  | declaration (n : Node)
  | declarationStep (n : Node)
  | unit (root : Node)

section

variable (source : Bytes) (maxDepth : Nat)

/-- The state that a call leaves behind. -/
def Call.run (s : Progress) : Call → Progress
  | leaveOut category n => ((noted (n.leaveOut source category) : Tracked maxDepth Unit).run s).2
  | expression n => ((Tracked.expression source maxDepth n).run s).2
  | expressionStep n =>
    ((JavaOutline.expressionStep source (Tracked.expression source maxDepth) n).run s).2
  | containedParts n =>
    ((partsOf (Tracked.expression source maxDepth) (Tracked.statement source maxDepth)
      PartForm.ofContainedKind n.content).run s).2
  | blockParts n =>
    ((JavaOutline.blockParts (Tracked.expression source maxDepth)
      (Tracked.statement source maxDepth) n).run s).2
  | condition n => ((conditionOf source (Tracked.expression source maxDepth) n).run s).2
  | statement n => ((Tracked.statement source maxDepth n).run s).2
  | statementStep n =>
    ((JavaOutline.statementStep source (Tracked.expression source maxDepth)
      (Tracked.statement source maxDepth) n).run s).2
  | method n => ((Tracked.method source maxDepth n).run s).2
  | members n => ((Tracked.members source maxDepth n).run s).2
  | declaration n => ((Tracked.declaration source maxDepth n).run s).2
  | declarationStep n =>
    ((JavaOutline.declarationStep source (Tracked.members source maxDepth) n).run s).2
  | unit root => ((Tracked.unit source maxDepth root).run s).2

end

/-- What a call keeps. -/
structure Kept (maxDepth : Nat) (s final : Progress) : Prop where
  depth : final.depth = s.depth
  peak : s.peak ≤ maxDepth → final.peak ≤ maxDepth
  balanced : s.log.Balanced → final.log.Balanced

/-- A computation that follows a plain form keeps all that a call should. -/
theorem Follows.kept {maxDepth : Nat} {s : Progress} {α : Type} {w : Tracked maxDepth α}
    {x : Noted α} (h : Follows maxDepth (maxDepth - s.depth) w x) (hs : s.depth ≤ maxDepth) :
    Kept maxDepth s (w.run s).2 := by
  have hrun := h s (Nat.add_sub_cancel' hs)
  constructor
  case depth => exact hrun.depth
  case peak => exact fun hpeak => Nat.le_trans hrun.peak (Nat.max_le.2 ⟨hpeak, Nat.le_refl _⟩)
  case balanced => exact fun hbalanced => hrun.log ▸ hbalanced.replay _

/-- Every call brings the depth back and never goes beyond the limit, and it keeps the account
    balanced. -/
theorem Call.kept (source : Bytes) {maxDepth : Nat} {s : Progress} (hs : s.depth ≤ maxDepth)
    (call : Call) : Kept maxDepth s (call.run source maxDepth s) := by
  -- Each call is one of the normalizers, which all follow their plain counterparts.
  cases call with
  | leaveOut category n => exact (follows_noted _).kept hs
  | expression n => exact (follows_expressionOf source n).kept hs
  -- A step is taken with the normalizer of one level less inside.
  | expressionStep n =>
    exact (follows_expressionStep source fun m _ => follows_expressionOf source m).kept hs
  | containedParts n | blockParts n =>
    exact (follows_partsOf fun m _ => followsAt_method source m).kept hs
  | condition n =>
    exact (follows_conditionOf source fun c _ => follows_expressionOf source c).kept hs
  | statement n => exact (follows_statementOf source n).kept hs
  | statementStep n =>
    exact (follows_statementStep source fun m _ => followsAt_method source m).kept hs
  | method n => exact (follows_methodOf source n).kept hs
  | members n => exact (follows_members source n).kept hs
  | declaration n => exact (follows_declarationOf source n).kept hs
  | declarationStep n =>
    exact (follows_declarationStep source fun body _ => follows_members source body).kept hs
  | unit root => exact (follows_unitOf source root).kept hs

end Tracked

/-! ## The account of an extraction -/

/-- The events of an extraction are those of the tracked normalization, and last that the file was
    extracted, with the number of omitted nodes that was counted. -/
theorem Tracked.Outcome.extractionEvents_eq {options : ExtractOptions} {origin : String}
    {result : Noted Outline} {final : Outline × Progress}
    (h : Outcome options.maxDepth {} result final) :
    extractionEvents options origin result =
      final.2.log.events ++
        [{ level := .debug, message := "File extracted"
           fields := [("origin", .quoted origin), ("imports", .number final.1.imports.length),
            ("declarations", .number final.1.namespaces.length),
            ("unsupported", .number final.2.log.unsupported)] }] := by
  -- Nothing was warned about or counted at the start.
  have hevents : final.2.log.events =
      (Remark.logged result.remarks).map (Remark.event options.maxDepth) := by
    rw [h.log, OmissionLog.events_replay]
    rfl
  have hcount : final.2.log.unsupported = Remark.unsupportedCount result.remarks := by
    rw [h.log, OmissionLog.unsupported_replay]
    exact Nat.zero_add _
  rw [hevents, hcount, h.value, extractionEvents]

/-- Every source that is parsed without an error is extracted by the tracked normalization of its
    tree, started with nothing counted.  Its events are logged, and last that the file was extracted
    and how many nodes were omitted: as many as events on such constructs stand before it, and as
    subtrees were refused for lack of budget.  The warning about nesting is logged once if there was
    such a subtree, and else not at all.  And every call of a normalization leaves the depth as it
    found it and never goes beyond the limit. -/
theorem omissions_balance (parser : Parser) (options : ExtractOptions) (source origin : String)
    (root : Node) (hparse : parser source = some root) (herror : root.hasError = false) :
    let run := (Tracked.unit (utf8 source) options.maxDepth root).run {}
    let log := run.2.log
    (∃ result, extractNoted parser options source origin = .ok result ∧ run.1 = result.value ∧
        log.refused = result.remarks.countP Remark.isTooDeep) ∧
      extractEvents parser options source origin =
        log.events ++
          [{ level := .debug, message := "File extracted"
             fields := [("origin", .quoted origin), ("imports", .number run.1.imports.length),
              ("declarations", .number run.1.namespaces.length),
              ("unsupported", .number log.unsupported)] }] ∧
      log.unsupported =
        log.events.countP (·.message == "Unsupported construct omitted") + log.refused ∧
      (log.events.countP (·.message == "Nesting too deep, dropping subtree") =
        if 0 < log.refused then 1 else 0) ∧
      ∀ (call : Tracked.Call) (s : Progress), s.depth ≤ options.maxDepth →
        Tracked.Kept options.maxDepth s (call.run (utf8 source) options.maxDepth s) := by
  intro run log
  have hresult : extractNoted parser options source origin =
      .ok (unitOf (utf8 source) options.maxDepth root) :=
    extractNoted_eq_ok_iff.2 ⟨root, hparse, herror, rfl⟩
  -- The whole budget is left at the start.
  have hrun : Tracked.Outcome options.maxDepth {} (unitOf (utf8 source) options.maxDepth root) run :=
    Tracked.follows_unitOf (utf8 source) root {} (Nat.zero_add _)
  have hlog : log = OmissionLog.replay options.maxDepth {}
      (unitOf (utf8 source) options.maxDepth root).remarks := hrun.log
  have hbalanced : log.Balanced := hlog ▸ OmissionLog.balanced_empty.replay _
  refine ⟨⟨_, hresult, hrun.value, ?_⟩, ?_, hbalanced.unsupported, hbalanced.warnings,
    fun call s hs => call.kept (utf8 source) hs⟩
  · rw [hlog, OmissionLog.refused_replay]
    exact Nat.zero_add _
  · rw [extractEvents, hresult]
    exact hrun.extractionEvents_eq

/-- At a budget of two the call inside a call of `nestedCallSource` is refused, which is warned about
    once and makes one omitted node. -/
theorem omissions_balance_nestedCall :
    let log := ((Tracked.unit (utf8 nestedCallSource) 2 nestedCallTree).run {}).2.log
    log.refused = 1 ∧
      log.unsupported =
        log.events.countP (·.message == "Unsupported construct omitted") + 1 ∧
      log.events.countP (·.message == "Nesting too deep, dropping subtree") = 1 := by
  obtain ⟨⟨result, hresult, -, hrefused⟩, -, hunsupported, hwarning, -⟩ :=
    omissions_balance (fun _ => some nestedCallTree) { maxDepth := 2 } nestedCallSource "A.java"
      nestedCallTree rfl rfl
  -- One node is refused, the call inside the call.
  have hone : result.remarks.countP Remark.isTooDeep = 1 := by
    cases hresult
    decide
  rw [hone] at hrefused
  rw [hrefused] at hunsupported hwarning
  exact ⟨hrefused, hunsupported, hwarning⟩

end JavaOutline

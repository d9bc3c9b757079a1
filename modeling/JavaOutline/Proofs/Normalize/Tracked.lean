import JavaOutline.Proofs.Normalize.DepthWarning

/-!
# Normalization with a depth counter

Normalization can also be told by what it does to a state.  Then a counter holds how deep the node
at hand is nested, each omission is counted and logged as soon as it is met, and a flag keeps the
warning about nesting from being logged again.  `Tracked` computations do so: they go down into a
node only while the counter is below the limit, and set it back on the way up.  What is done at a
node is the same in both forms: `expressionStep`, `statementStep` and the other steps run in any
monad that a `Noted` result can be lifted into.

The state adds nothing to the outline.  Started at a depth, a tracked normalization gives what the
plain one gives with the budget that is left there, and its log is that of the plain remarks.

## Key results

- `run_descend`: what going down into a node does to the state
- `follows_expressionOf`, `follows_statementOf`, `follows_declarationOf`: a tracked call follows the
  plain one with the budget that is left
- `follows_unitOf`: the same for the syntax tree of a file
-/

namespace JavaOutline

open Syntax (Node)

/-! ## The state -/

/-- What a normalization has logged and counted so far. -/
structure OmissionLog where
  /-- Whether the warning about nesting was logged. -/
  hasWarned : Bool := false
  /-- The number of omitted nodes. -/
  unsupported : Nat := 0
  /-- How many of them were refused for lack of budget.  No decision depends on it. -/
  refused : Nat := 0
  events : List Event := []

namespace OmissionLog

/-- Counts and logs a remark.  Of the warnings about nesting only the first is logged. -/
def note (maxDepth : Nat) (log : OmissionLog) (r : Remark) : OmissionLog :=
  match r with
  | .unsupported .. =>
    { log with unsupported := log.unsupported + 1, events := log.events ++ [r.event maxDepth] }
  | .noOperand .. => { log with events := log.events ++ [r.event maxDepth] }
  | .tooDeep _ =>
    { hasWarned := true
      unsupported := log.unsupported + 1
      refused := log.refused + 1
      events := if log.hasWarned then log.events else log.events ++ [r.event maxDepth] }

/-- Counts and logs remarks in order. -/
def replay (maxDepth : Nat) (log : OmissionLog) (remarks : List Remark) : OmissionLog :=
  remarks.foldl (note maxDepth) log

section

variable (maxDepth : Nat) (log : OmissionLog)

theorem unsupported_note (r : Remark) :
    (log.note maxDepth r).unsupported = log.unsupported + if r.isOmission then 1 else 0 := by
  cases r <;> rfl

theorem refused_note (r : Remark) :
    (log.note maxDepth r).refused = log.refused + if r.isTooDeep then 1 else 0 := by
  cases r <;> rfl

theorem hasWarned_note (r : Remark) :
    (log.note maxDepth r).hasWarned = (log.hasWarned || r.isTooDeep) := by
  cases r <;> simp [note, Remark.isTooDeep]

theorem events_note (r : Remark) :
    (log.note maxDepth r).events =
      log.events ++ if log.hasWarned && r.isTooDeep then [] else [r.event maxDepth] := by
  cases r <;> cases hwarned : log.hasWarned <;> simp [note, hwarned, Remark.isTooDeep]

@[simp] theorem replay_cons (r : Remark) (rs : List Remark) :
    log.replay maxDepth (r :: rs) = (log.note maxDepth r).replay maxDepth rs := rfl

@[simp] theorem replay_append (rs rs' : List Remark) :
    log.replay maxDepth (rs ++ rs') = (log.replay maxDepth rs).replay maxDepth rs' :=
  List.foldl_append

end

end OmissionLog

/-- The state of a normalization. -/
structure Progress where
  /-- How many nodes are open around the one at hand. -/
  depth : Nat := 0
  /-- The largest depth so far.  No decision depends on it. -/
  peak : Nat := 0
  log : OmissionLog := {}

namespace Progress

/-- Goes down into a node. -/
def enter (s : Progress) : Progress :=
  { s with depth := s.depth + 1, peak := max s.peak (s.depth + 1) }

/-- Comes back from a node. -/
def leave (s : Progress) : Progress :=
  { s with depth := s.depth - 1 }

end Progress

/-! ## Tracked computations -/

/-- A computation on the state of a normalization.  The number is the limit of the depth, which the
    warning about nesting tells. -/
def Tracked (_ : Nat) (α : Type) : Type :=
  StateM Progress α

namespace Tracked

section

variable {maxDepth : Nat} {α : Type}

instance : Monad (Tracked maxDepth) :=
  inferInstanceAs (Monad (StateM Progress))

instance : LawfulMonad (Tracked maxDepth) :=
  inferInstanceAs (LawfulMonad (StateM Progress))

instance : MonadStateOf Progress (Tracked maxDepth) :=
  inferInstanceAs (MonadStateOf Progress (StateM Progress))

/-- The result of a computation started at `s`, with the state it leaves behind. -/
def run (w : Tracked maxDepth α) (s : Progress) : α × Progress :=
  StateT.run w s

/-- A result that is read from one node alone, its remarks counted and logged. -/
def noted (x : Noted α) : Tracked maxDepth α := do
  modify fun s => { s with log := s.log.replay maxDepth x.remarks }
  return x.value

instance : MonadLiftT Noted (Tracked maxDepth) where
  monadLift := noted

/-- Reads a node one level deeper.  At the limit the node is refused instead. -/
def descend (source : Bytes) (n : Node) (read : Tracked maxDepth (List α)) :
    Tracked maxDepth (List α) := do
  if maxDepth ≤ (← get).depth then
    -- The node is not looked at, so nothing below it is counted.
    noted (refuse source n)
  else
    modify .enter
    let result ← read
    modify .leave
    return result

/-- Reads nodes below `n`.  No step reads any other, see `height_lt_of_mem_expressionReads` and its
    like. -/
def below (n : Node) (read : (m : Node) → m.height < n.height → Tracked maxDepth (List α))
    (m : Node) : Tracked maxDepth (List α) :=
  if h : m.height < n.height then read m h else return []

end

section

variable (source : Bytes) (maxDepth : Nat)

/-- The expressions at a node. -/
def expression (n : Node) : Tracked maxDepth (List Expression) :=
  descend source n <| expressionStep source (below n fun m _ => expression m) n
termination_by n.height

/-- The statements at a node. -/
def statement (n : Node) : Tracked maxDepth (List Statement) :=
  descend source n <|
    statementStep source (expression source maxDepth) (below n fun m _ => statement m) n
termination_by n.height

/-- The method at a node. -/
def method (n : Node) : Tracked maxDepth (List Method) :=
  methodStep source (expression source maxDepth) (statement source maxDepth) n

/-- The type declaration at a node. -/
def declaration (n : Node) : Tracked maxDepth (List TypeDecl) :=
  descend source n <| declarationStep source
    (membersOf source (method source maxDepth) (below n fun m _ => declaration m)) n
termination_by n.height

/-- The members that the body at a node declares. -/
def members (n : Node) : Tracked maxDepth Members :=
  membersOf source (method source maxDepth) (declaration source maxDepth) n

/-- The outline of the file whose syntax tree has this root. -/
def unit (root : Node) : Tracked maxDepth Outline :=
  topLevelOf source (declaration source maxDepth) root.content

end

/-! ## Following the plain form -/

section

variable {maxDepth budget : Nat} {α β : Type}

/-- What a computation started at `s` should end with, if `x` is the plain form of it. -/
structure Outcome (maxDepth : Nat) (s : Progress) (x : Noted α) (final : α × Progress) : Prop where
  value : final.1 = x.value
  depth : final.2.depth = s.depth
  peak : final.2.peak ≤ max s.peak maxDepth
  log : final.2.log = s.log.replay maxDepth x.remarks

/-- Whether a computation started with `budget` levels left gives what its plain form `x` says. -/
def Follows (maxDepth budget : Nat) (w : Tracked maxDepth α) (x : Noted α) : Prop :=
  ∀ s : Progress, s.depth + budget = maxDepth → Outcome maxDepth s x (w.run s)

/-- A plain value follows itself. -/
theorem follows_pure (a : α) : Follows maxDepth budget (pure a) (pure a) :=
  fun _ _ => ⟨rfl, rfl, Nat.le_max_left _ _, rfl⟩

/-- A result of one node follows itself, its remarks noted. -/
theorem follows_noted (x : Noted α) : Follows maxDepth budget (noted x) x :=
  fun _ _ => ⟨rfl, rfl, Nat.le_max_left _ _, rfl⟩

/-- Computations that follow their plain forms do so one after the other. -/
theorem Follows.bind {w : Tracked maxDepth α} {x : Noted α} {f : α → Tracked maxDepth β}
    {g : α → Noted β} (h : Follows maxDepth budget w x)
    (hf : Follows maxDepth budget (f x.value) (g x.value)) :
    Follows maxDepth budget (w >>= f) (x >>= g) := by
  intro s hs
  have hfirst := h s hs
  -- The first comes back to the depth it started at, so the second has the same budget left.
  have hrest := hf (w.run s).2 (by rw [hfirst.depth]; exact hs)
  have hrun : (w >>= f).run s = (f x.value).run (w.run s).2 := by
    rw [← hfirst.value]
    rfl
  rw [hrun]
  refine ⟨hrest.value, hrest.depth.trans hfirst.depth, ?_, ?_⟩
  · have hpeak := hrest.peak
    have hpeak' := hfirst.peak
    omega
  · rw [hrest.log, hfirst.log, Noted.remarks_bind, OmissionLog.replay_append]

/-- A function of the result changes nothing in the state. -/
theorem Follows.map {w : Tracked maxDepth α} {x : Noted α} (f : α → β)
    (h : Follows maxDepth budget w x) : Follows maxDepth budget (f <$> w) (f <$> x) := by
  rw [map_eq_pure_bind, map_eq_pure_bind]
  exact h.bind (follows_pure _)

/-- Reading a field follows the plain form if reading its first child does. -/
theorem follows_readField {read : Node → Tracked maxDepth (List α)} {read' : Node → Noted (List α)}
    {n : Node} {field : String}
    (h : ∀ c ∈ (n.child? field).toList, Follows maxDepth budget (read c) (read' c)) :
    Follows maxDepth budget (readField read n field) (readField read' n field) := by
  unfold readField
  cases hc : n.child? field with
  | none => exact follows_pure []
  | some c => exact h c (by simp [hc])

/-- Reading all nodes of a list follows the plain form if reading each does. -/
theorem follows_readEach {read : Node → Tracked maxDepth (List α)} {read' : Node → Noted (List α)}
    {ns : List Node} (h : ∀ n ∈ ns, Follows maxDepth budget (read n) (read' n)) :
    Follows maxDepth budget (readEach read ns) (readEach read' ns) := by
  induction ns with
  | nil => exact follows_pure []
  | cons n ns ih =>
    rw [List.forall_mem_cons] at h
    exact h.1.bind ((ih h.2).bind (follows_pure _))

/-- What going down into a node does to the state. -/
theorem run_descend (source : Bytes) (n : Node) (read : Tracked maxDepth (List α)) (s : Progress) :
    (descend source n read).run s =
      if maxDepth ≤ s.depth then (noted (refuse source n) : Tracked maxDepth (List α)).run s
      else ((read.run s.enter).1, (read.run s.enter).2.leave) := by
  show (if maxDepth ≤ s.depth then noted (refuse source n) else do
    modify .enter
    let result ← read
    modify .leave
    return result : Tracked maxDepth (List α)).run s = _
  split <;> rfl

/-- At the limit a node is refused. -/
theorem follows_refuse (source : Bytes) (n : Node) (read : Tracked maxDepth (List α)) :
    Follows maxDepth 0 (descend source n read) (refuse source n) := by
  intro s hs
  have hlimit : maxDepth ≤ s.depth := by omega
  rw [run_descend, if_pos hlimit]
  exact ⟨rfl, rfl, Nat.le_max_left _ _, rfl⟩

/-- Below the limit a node is read with one level less left. -/
theorem Follows.descend {source : Bytes} {n : Node} {read : Tracked maxDepth (List α)}
    {x : Noted (List α)} (h : Follows maxDepth budget read x) :
    Follows maxDepth (budget + 1) (descend source n read) x := by
  intro s hs
  have hinside := h s.enter (by simp only [Progress.enter]; omega)
  have hlimit : ¬ maxDepth ≤ s.depth := by omega
  rw [run_descend, if_neg hlimit]
  -- Inside, the depth came back to one more than at the start, and coming back takes that one off.
  refine ⟨hinside.value, ?_, ?_, hinside.log⟩
  · show (read.run s.enter).2.depth - 1 = s.depth
    rw [hinside.depth]
    rfl
  · have hpeak := hinside.peak
    simp only [Progress.enter, Progress.leave] at hpeak ⊢
    omega

end

section

variable (source : Bytes) {maxDepth budget : Nat}

/-! ### Expressions -/

/-- An expression step follows the plain one if all that it reads does. -/
theorem follows_expressionStep {inner : Node → Tracked maxDepth (List Expression)}
    {inner' : Node → Noted (List Expression)} {n : Node}
    (h : ∀ m ∈ expressionReads source n, Follows maxDepth budget (inner m) (inner' m)) :
    Follows maxDepth budget (expressionStep source inner n)
      (expressionStep source inner' n) := by
  unfold expressionReads at h
  unfold expressionStep
  -- Both steps read the same nodes in the same order, and remark on the same ones.
  cases hform : ExpressionForm.ofKind n.kind with
  | literal | name => exact follows_pure _
  | fieldAccess | arrayAccess | creation | localVariable | typeDecl => exact follows_noted _
  | wrapper =>
    cases hfirst : n.firstContent? with
    | none => exact follows_pure _
    | some held => exact h held (by simp [hform, hfirst])
  | binary =>
    simp only [hform, List.forall_mem_append] at h
    exact (follows_readField h.1).bind ((follows_readField h.2).bind (follows_pure _))
  -- The value comes before the target.
  | assignment =>
    simp only [hform, List.forall_mem_append] at h
    exact (follows_readField h.2).bind ((follows_readField h.1).bind (follows_pure _))
  | call =>
    cases hname : callName? source n with
    | none => exact follows_noted _
    | some name =>
      cases hlist : n.child? "arguments" with
      | none => exact (follows_pure []).bind (follows_pure _)
      | some list =>
        -- The nodes of the argument list are the ones that are read.
        have harguments : ∀ c ∈ list.content, Follows maxDepth budget (inner c) (inner' c) := by
          simpa [hform, hname, hlist] using h
        exact (follows_readEach harguments).bind (follows_pure _)
  | unsupported =>
    simp only [hform] at h
    exact (follows_noted _).bind (follows_readEach h)

/-- Nodes below are read without any guard. -/
theorem below_eq {α : Type} {n m : Node}
    (read : (m : Node) → m.height < n.height → Tracked maxDepth (List α))
    (h : m.height < n.height) : below n read m = read m h :=
  dif_pos h

/-- The expressions at a node are those of the plain form with the budget that is left. -/
theorem follows_expressionOf (n : Node) :
    Follows maxDepth budget (expression source maxDepth n) (expressionOf source budget n) := by
  induction budget generalizing n with
  | zero =>
    rw [expression]
    exact follows_refuse source n _
  | succ budget ih =>
    rw [expression]
    refine (follows_expressionStep source fun m hm => ?_).descend
    rw [below_eq _ (height_lt_of_mem_expressionReads source hm)]
    exact ih m

/-! ### Statements -/

section

variable {expression : Node → Tracked maxDepth (List Expression)}
  {statement : Node → Tracked maxDepth (List Statement)}
  {expression' : Node → Noted (List Expression)} {statement' : Node → Noted (List Statement)}

/-- Whether what is read at a site follows the plain form. -/
def FollowsAt (maxDepth budget : Nat) (expression : Node → Tracked maxDepth (List Expression))
    (statement : Node → Tracked maxDepth (List Statement))
    (expression' : Node → Noted (List Expression)) (statement' : Node → Noted (List Statement)) :
    Site → Prop
  | .expression n | .condition n => Follows maxDepth budget (expression n) (expression' n)
  | .statement n => Follows maxDepth budget (statement n) (statement' n)

/-- The parts of a body follow the plain ones if all sites of it do. -/
theorem follows_partsOf {form : String → PartForm} {ns : List Node}
    (h : ∀ s ∈ ns.flatMap fun c => partSites (form c.kind) c,
      FollowsAt maxDepth budget expression statement expression' statement' s) :
    Follows maxDepth budget (partsOf expression statement form ns)
      (partsOf expression' statement' form ns) := by
  induction ns with
  | nil => exact follows_pure _
  | cons n ns ih =>
    rw [List.flatMap_cons, List.forall_mem_append] at h
    -- What a part reads is among its sites.
    have hhere : Follows maxDepth budget (partOf expression statement (form n.kind) n)
        (partOf expression' statement' (form n.kind) n) := by
      replace h := h.1
      unfold partSites at h
      unfold partOf
      cases hform : form n.kind with
      | expressionStatement =>
        cases hfirst : n.firstContent? with
        | none => exact follows_pure _
        | some c =>
          have hc : Follows maxDepth budget (expression c) (expression' c) :=
            h (.expression c) (by simp [hform, hfirst])
          exact hc.bind (follows_pure _)
      | localVariable | expression =>
        have hn : Follows maxDepth budget (expression n) (expression' n) :=
          h (.expression n) (by simp [hform])
        exact hn.bind (follows_pure _)
      | statement =>
        have hn : Follows maxDepth budget (statement n) (statement' n) :=
          h (.statement n) (by simp [hform])
        exact hn.bind (follows_pure _)
    exact hhere.bind ((ih h.2).bind (follows_pure _))

/-- A block follows the plain one if all sites of it do. -/
theorem follows_blockOf {n : Node}
    (h : ∀ s ∈ blockSites n,
      FollowsAt maxDepth budget expression statement expression' statement' s) :
    Follows maxDepth budget (blockOf expression statement n)
      (blockOf expression' statement' n) :=
  (follows_partsOf h).bind (follows_pure _)

/-- A condition follows the plain one if what is read there does. -/
theorem follows_conditionOf {n : Node}
    (h : ∀ c ∈ (n.child? "condition").toList,
      Follows maxDepth budget (expression c) (expression' c)) :
    Follows maxDepth budget (conditionOf source expression n)
      (conditionOf source expression' n) := by
  unfold conditionOf
  cases hc : n.child? "condition" with
  | none => exact follows_pure _
  | some c =>
    refine (h c (by simp [hc])).bind ?_
    -- Without an operand there is one more remark on either side.
    cases (expression' c).value.isEmpty with
    | false => exact (follows_pure _).bind (follows_pure _)
    | true => exact (follows_noted _).bind (follows_pure _)

/-- A statement step follows the plain one if all sites that it reads do. -/
theorem follows_statementStep {n : Node}
    (h : ∀ s ∈ statementSites n,
      FollowsAt maxDepth budget expression statement expression' statement' s) :
    Follows maxDepth budget (statementStep source expression statement n)
      (statementStep source expression' statement' n) := by
  unfold statementSites at h
  unfold statementStep
  cases hform : StatementForm.ofKind n.kind with
  -- The condition comes first, then the other branch, and the one taken at the end.
  | ifThen =>
    simp only [hform, List.forall_mem_append, List.forall_mem_map, List.forall_mem_flatMap] at h
    obtain ⟨⟨hcondition, hotherwise⟩, hthen⟩ := h
    refine (follows_conditionOf source hcondition).bind ((follows_readField hotherwise).bind
      (Follows.bind (follows_readField fun c hc => ?_) (follows_pure _)))
    exact (follows_blockOf (hthen c hc)).bind (follows_pure _)
  | returnValue =>
    cases hfirst : n.firstContent? with
    | none => exact (follows_pure _).bind (follows_pure _)
    | some c =>
      have hc : Follows maxDepth budget (expression c) (expression' c) :=
        h (.expression c) (by simp [hform, hfirst])
      exact hc.bind (follows_pure _)
  | doWhile | whileLoop =>
    simp only [hform, List.forall_mem_append, List.forall_mem_map] at h
    exact (follows_conditionOf source h.1).bind ((follows_readField h.2).bind (follows_pure _))
  -- The parts of the loop head come in this order, and the body at the end.
  | forLoop =>
    simp only [hform, List.forall_mem_append, List.forall_mem_map] at h
    obtain ⟨⟨⟨hinit, hcondition⟩, hupdate⟩, hbody⟩ := h
    exact (follows_readField hcondition).bind ((follows_readEach hinit).bind
      ((follows_readEach hupdate).bind ((follows_readField hbody).bind (follows_pure _))))
  | block =>
    simp only [hform] at h
    exact (follows_blockOf h).bind (follows_pure _)
  | tryBlock =>
    simp only [hform, List.forall_mem_map] at h
    exact (follows_readField h).bind (follows_pure _)
  | typeDecl => exact (follows_noted _).bind (follows_pure _)
  | unsupported =>
    simp only [hform] at h
    refine (follows_noted _).bind ((follows_partsOf h).bind ?_)
    -- Whether there were any parts is known only afterwards.
    split <;> exact follows_pure _

end

/-- The statements at a node are those of the plain form with the budget that is left. -/
theorem follows_statementOf (n : Node) :
    Follows maxDepth budget (statement source maxDepth n) (statementOf source budget n) := by
  induction budget generalizing n with
  -- At the limit both refuse the node.
  | zero =>
    rw [statement]
    exact follows_refuse source n _
  | succ budget ih =>
    rw [statement]
    refine (follows_statementStep source fun s hs => ?_).descend
    cases s with
    | expression m | condition m => exact follows_expressionOf source m
    | statement m =>
      -- The statements inside are lower, so the recursion goes on with them.
      have hlt : m.height < n.height := height_lt_of_mem_statementSites hs
      show Follows _ _ (below n _ m) _
      rw [below_eq _ hlt]
      exact ih m

/-! ### Declarations and files -/

/-- Whatever is read of the body of a method follows the plain form. -/
theorem followsAt_method (s : Site) :
    FollowsAt maxDepth budget (expression source maxDepth) (statement source maxDepth)
      (expressionOf source budget) (statementOf source budget) s := by
  cases s with
  | expression m | condition m => exact follows_expressionOf source m
  | statement m => exact follows_statementOf source m

/-- The method at a node is that of the plain form with the budget that is left. -/
theorem follows_methodOf (n : Node) :
    Follows maxDepth budget (method source maxDepth n) (methodOf source budget n) := by
  unfold method methodOf methodStep
  cases n.fieldText? source "name" with
  -- A method without a name is left out by both.
  | none => exact (follows_noted _).bind (follows_pure _)
  | some name =>
    cases n.child? "body" with
    | none => exact (follows_pure _).bind (follows_pure _)
    | some body =>
      have hbody : Follows maxDepth budget
          (blockParts (expression source maxDepth) (statement source maxDepth) body)
          (blockParts (expressionOf source budget) (statementOf source budget) body) :=
        follows_partsOf fun s _ => followsAt_method source s
      exact hbody.bind (follows_pure _)

section

variable {declaration : Node → Tracked maxDepth (List TypeDecl)}
  {declaration' : Node → Noted (List TypeDecl)} {bound : Nat}

mutual

/-- The members of a body follow the plain ones if the nested declarations do. -/
theorem follows_membersOf
    (hdeclaration : ∀ m, m.height < bound →
      Follows maxDepth budget (declaration m) (declaration' m)) :
    (n : Node) → n.height ≤ bound →
      Follows maxDepth budget (membersOf source (method source maxDepth) declaration n)
        (membersOf source (methodOf source budget) declaration' n)
  | ⟨_, _, _, _, _, _, _, _, _, children⟩, h => by
    rw [membersOf, membersOf]
    rw [Node.height] at h
    exact follows_membersIn hdeclaration children h

/-- The members at the nodes of a list follow the plain ones if the nested declarations do. -/
theorem follows_membersIn
    (hdeclaration : ∀ m, m.height < bound →
      Follows maxDepth budget (declaration m) (declaration' m)) :
    (ns : List Node) → Node.heightIn ns ≤ bound →
      Follows maxDepth budget (membersIn source (method source maxDepth) declaration ns)
        (membersIn source (methodOf source budget) declaration' ns)
  | [], _ => follows_pure _
  | n :: ns, h => by
    rw [Node.heightIn] at h
    -- The members in the body of an enum are read with no level less.
    have hbody := follows_membersOf hdeclaration n (by omega)
    have hhere : Follows maxDepth budget (memberAt source (method source maxDepth) declaration n)
        (memberAt source (methodOf source budget) declaration' n) := by
      unfold memberAt
      cases n.isContent with
      | false => exact follows_pure _
      | true =>
        cases MemberForm.ofKind n.kind with
        | method => exact (follows_methodOf source n).map _
        | field | enumConstant => exact follows_pure _
        | enumBody => exact hbody
        | typeDecl => exact (hdeclaration n (by omega)).map _
        | unsupported => exact (follows_noted _).map _
    rw [membersIn_cons, membersIn_cons]
    exact hhere.bind ((follows_membersIn hdeclaration ns (by omega)).bind (follows_pure _))

end

end

/-- A declaration step follows the plain one if the members of the body do. -/
theorem follows_declarationStep {members : Node → Tracked maxDepth Members}
    {members' : Node → Noted Members} {n : Node}
    (h : ∀ body ∈ n.children, Follows maxDepth budget (members body) (members' body)) :
    Follows maxDepth budget (declarationStep source members n)
      (declarationStep source members' n) := by
  unfold declarationStep
  cases n.fieldText? source "name" with
  | none => exact (follows_noted _).bind (follows_pure _)
  | some name =>
    cases hchild : n.child? "body" with
    | none => exact (follows_pure _).bind (follows_pure _)
    | some body => exact (h body (Node.mem_children_of_child? hchild)).bind (follows_pure _)

/-- The declaration at a node is that of the plain form with the budget that is left. -/
theorem follows_declarationOf (n : Node) :
    Follows maxDepth budget (declaration source maxDepth n) (declarationOf source budget n) := by
  induction budget generalizing n with
  | zero =>
    rw [declaration]
    exact follows_refuse source n _
  | succ budget ih =>
    rw [declaration, declarationOf]
    -- Both take the same step, for which the tracked form goes one level down.
    refine (follows_declarationStep source fun body hbody => ?_).descend
    have hlt := Node.height_lt_of_mem_children hbody
    -- Nested declarations are below the body, so the height falls.
    refine follows_membersOf source (fun m hm => ?_) body (Nat.le_of_lt hlt)
    rw [below_eq _ hm]
    exact ih m

/-- The members of a body are those of the plain form with the budget that is left. -/
theorem follows_members (n : Node) :
    Follows maxDepth budget (members source maxDepth n)
      (membersOf source (methodOf source budget) (declarationOf source budget) n) :=
  follows_membersOf source (fun m _ => follows_declarationOf source m) n (Nat.le_refl _)

/-- The outline of a file is that of the plain form with the budget that is left. -/
theorem follows_unitOf (root : Node) :
    Follows maxDepth budget (unit source maxDepth root) (unitOf source budget root) := by
  -- By induction on the items at the top of the file.
  have hall : ∀ ns : List Node,
      Follows maxDepth budget (topLevelOf source (declaration source maxDepth) ns)
        (topLevelOf source (declarationOf source budget) ns) := by
    intro ns
    induction ns with
    | nil => exact follows_pure _
    | cons n ns ih =>
      have hhere : Follows maxDepth budget (topLevelAt source (declaration source maxDepth) n)
          (topLevelAt source (declarationOf source budget) n) := by
        -- Only a type declaration is read deeper.
        unfold topLevelAt
        cases TopLevelForm.ofKind n.kind with
        | importName | package => exact follows_pure _
        | typeDecl => exact (follows_declarationOf source n).map _
        | unsupported => exact (follows_noted _).map _
      rw [topLevelOf_cons, topLevelOf_cons]
      exact hhere.bind (ih.bind (follows_pure _))
  exact hall root.content

end

end Tracked

end JavaOutline

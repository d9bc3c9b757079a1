import JavaOutline.Syntax.Node

/-! # Remarks made while normalizing

Normalization never fails: what has no place in an outline is left out, and each omission is
remarked on.  A computation with remarks is a `Noted` value, its remarks in the order they were
made.

* `Noted` is a lawful monad whose `value` and `remarks` compute by the `simp` lemmas here.
* `readEach` goes through a list in any monad, since the steps of a normalization are not tied to
  `Noted`.
* `unsupportedCount` counts the omitted nodes that a list of remarks tells of.
-/

namespace JavaOutline

/-- Where an unsupported construct stands. -/
inductive Category where
  | declaration
  | member
  | statement
  | expression
deriving DecidableEq

/-- The name of a category. -/
def Category.name : Category → String
  | declaration => "declaration"
  | member => "member"
  | statement => "statement"
  | expression => "expression"

/-- One remark. -/
inductive Remark where
  /-- A construct of this kind has no form in an outline. -/
  | unsupported (category : Category) (kind : String) (line : Nat)
  /-- The condition of a statement of this kind has no operand with a form in an outline. -/
  | noOperand (kind : String) (line : Nat)
  /-- A subtree is nested beyond the budget. -/
  | tooDeep (line : Nat)
deriving DecidableEq

namespace Remark

/-- Whether a remark tells of a subtree beyond the budget. -/
def isTooDeep : Remark → Bool
  | tooDeep _ => true
  | _ => false

/-- Whether a remark tells of an omitted node. -/
def isOmission : Remark → Bool
  | unsupported .. | tooDeep _ => true
  | noOperand .. => false

/-- The number of omitted nodes. -/
def unsupportedCount (remarks : List Remark) : Nat :=
  remarks.countP isOmission

end Remark

/-- A value together with the remarks made on the way to it. -/
structure Noted (α : Type) where
  value : α
  remarks : List Remark := []

namespace Noted

variable {α β : Type}

instance : Monad Noted where
  pure a := ⟨a, []⟩
  bind x f := let y := f x.value; ⟨y.value, x.remarks ++ y.remarks⟩

@[simp] theorem value_pure (a : α) : (pure a : Noted α).value = a := rfl

@[simp] theorem remarks_pure (a : α) : (pure a : Noted α).remarks = [] := rfl

@[simp] theorem value_bind (x : Noted α) (f : α → Noted β) :
    (x >>= f).value = (f x.value).value := rfl

@[simp] theorem remarks_bind (x : Noted α) (f : α → Noted β) :
    (x >>= f).remarks = x.remarks ++ (f x.value).remarks := rfl

@[simp] theorem value_map (f : α → β) (x : Noted α) : (f <$> x).value = f x.value := rfl

@[simp] theorem remarks_map (f : α → β) (x : Noted α) : (f <$> x).remarks = x.remarks := by
  show x.remarks ++ [] = x.remarks
  simp

instance : LawfulMonad Noted := LawfulMonad.mk' Noted
  (by intro α x; simp [Functor.map])
  (by intro α β x f; simp [bind, pure])
  (by intro α β γ x f g; simp [bind, List.append_assoc])

/-- A remark on its own. -/
def remark (r : Remark) : Noted Unit :=
  ⟨(), [r]⟩

@[simp] theorem remarks_remark (r : Remark) : (remark r).remarks = [r] := rfl

end Noted

/-- The results for all items of a list, joined in order. -/
def readEach {m : Type → Type} [Monad m] {α β : Type} (f : α → m (List β)) : List α → m (List β)
  | [] => pure []
  | a :: as => do return (← f a) ++ (← readEach f as)

namespace Noted

variable {α β : Type}

@[simp] theorem value_readEach (f : α → Noted (List β)) (as : List α) :
    (readEach f as).value = as.flatMap fun a => (f a).value := by
  induction as with
  | nil => rfl
  | cons a as ih => simp [readEach, ih]

@[simp] theorem remarks_readEach (f : α → Noted (List β)) (as : List α) :
    (readEach f as).remarks = as.flatMap fun a => (f a).remarks := by
  induction as with
  | nil => rfl
  | cons a as ih => simp [readEach, ih]

end Noted

/-- Leaves out a node that has no form in an outline. -/
def Syntax.Node.leaveOut (source : Bytes) (category : Category) (n : Syntax.Node) : Noted Unit :=
  .remark (.unsupported category n.kind (n.line source))

end JavaOutline

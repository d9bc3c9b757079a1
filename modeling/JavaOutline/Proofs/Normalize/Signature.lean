import JavaOutline.Normalize.Signature
import JavaOutline.Outline.Query
import Mathlib.Data.List.Forall2

/-!
# What the node of a declaration says

The parts of a declaration that are read from its node alone, told without the readers: which
children of the node count, what each of them says, and that what they say comes in their order.
The readers give exactly that, so a declaration is known by its node.

## Key results

- `DeclShape.kind_eq_iff`: the kind of a type, by the first fact about its node that applies
- `modifiersOf_eq_iff`: one modifier for each node of a modifier list that is no comment
- `fieldsOf_eq_iff`: one field for each declarator with a name
- `parametersOf_eq_iff`: one parameter for each node of a parameter list that declares one
-/

namespace JavaOutline

open Syntax (Node)

/-! ## Readings -/

/-- What the items of a list say, in their order; `R a b` tells that `a` says `b`.  An item that
    says nothing is passed over. -/
inductive Readings {α β : Type} (R : α → β → Prop) : List α → List β → Prop
  | nil : Readings R [] []
  | take {a : α} {b : β} {as : List α} {bs : List β} (here : R a b) (rest : Readings R as bs) :
      Readings R (a :: as) (b :: bs)
  | pass {a : α} {as : List α} {bs : List β} (nothing : ∀ b, ¬ R a b) (rest : Readings R as bs) :
      Readings R (a :: as) bs

namespace Readings

variable {α β γ : Type} {R : α → β → Prop} {as as' : List α} {bs bs' : List β}

/-- The readings of two lists, one after the other. -/
theorem append (h : Readings R as bs) (h' : Readings R as' bs') :
    Readings R (as ++ as') (bs ++ bs') := by
  induction h with
  | nil => exact h'
  | take here _ ih => exact .take here ih
  | pass nothing _ ih => exact .pass nothing ih

/-- The readings put in other words. -/
theorem map {S : α → γ → Prop} {f : β → γ} (h : Readings R as bs)
    (hS : ∀ a c, S a c ↔ ∃ b, R a b ∧ f b = c) : Readings S as (bs.map f) := by
  induction h with
  | nil => exact .nil
  | take here _ ih => exact .take ((hS _ _).2 ⟨_, here, rfl⟩) ih
  | pass nothing _ ih =>
    refine .pass (fun c hc => ?_) ih
    obtain ⟨b, hb, -⟩ := (hS _ c).1 hc
    exact nothing b hb

/-- As far as the items determine what they say, so do they determine the readings. -/
theorem map_eq_map {f : β → γ} (h : Readings R as bs) (hR : ∀ a b b', R a b → R a b' → f b = f b')
    (h' : Readings R as bs') : bs.map f = bs'.map f := by
  -- By induction on the first readings; an item that says something is passed over in neither.
  induction h generalizing bs' with
  | nil =>
    cases h'
    rfl
  | take here _ ih =>
    cases h' with
    | take here' rest' => rw [List.map_cons, List.map_cons, hR _ _ _ here here', ih rest']
    | pass nothing _ => exact absurd here (nothing _)
  | pass nothing _ ih =>
    cases h' with
    | take here' _ => exact absurd here' (nothing _)
    | pass _ rest' => exact ih rest'

/-- Where the items determine what they say, there is one list of readings. -/
theorem unique (h : Readings R as bs) (hR : ∀ a b b', R a b → R a b' → b = b')
    (h' : Readings R as bs') : bs = bs' := by
  simpa using h.map_eq_map (f := id) hR h'

/-- What a reader of single items finds in a list. -/
theorem iff_filterMap {f : α → Option β} (hf : ∀ a b, R a b ↔ f a = some b) :
    Readings R as bs ↔ as.filterMap f = bs := by
  -- The reader passes over exactly the items that say nothing.
  have hread : Readings R as (as.filterMap f) := by
    induction as with
    | nil => exact .nil
    | cons a as ih =>
      cases hfound : f a with
      | none =>
        rw [List.filterMap_cons_none hfound]
        exact .pass (fun b hb => nomatch hfound.symm.trans ((hf a b).1 hb)) ih
      | some b =>
        rw [List.filterMap_cons_some hfound]
        exact .take ((hf a b).2 hfound) ih
  constructor
  · intro h
    -- An item says one thing at most, so there are no other readings.
    have hsame : ∀ a b b', R a b → R a b' → b = b' := fun a b b' hb hb' =>
      Option.some.inj (((hf a b).1 hb).symm.trans ((hf a b').1 hb'))
    exact hread.unique hsame h
  · rintro rfl
    exact hread

end Readings

/-- What is read from every item of a list. -/
theorem forall₂_iff_map {α β : Type} {R : α → β → Prop} {f : α → β} (hf : ∀ a b, R a b ↔ f a = b)
    {as : List α} {bs : List β} : List.Forall₂ R as bs ↔ as.map f = bs := by
  obtain rfl : R = fun a b => f a = b := by
    funext a b
    exact propext (hf a b)
  rw [← List.forall₂_map_left_iff (R := fun b c => b = c), List.forall₂_eq_eq_eq]

/-! ## Modifiers -/

/-- The modifier that a token spells.  Keywords and visibilities are known in any case, and any
    other token stands for itself. -/
inductive Modifier.IsSpelled (token : String) : Modifier → Prop
  | keyword {k : Keyword} (spelled : Text.asciiUpper? token = some k.name) :
      IsSpelled token (.keyword k token)
  | visibility {level : Visibility} (spelled : Text.asciiUpper? token = some level.name) :
      IsSpelled token (.visibility level)
  | other (noKeyword : ∀ k : Keyword, Text.asciiUpper? token ≠ some k.name)
      (noVisibility : ∀ level : Visibility, Text.asciiUpper? token ≠ some level.name) :
      IsSpelled token (.other token)

theorem Keyword.ofName?_eq_some_iff {name : String} {k : Keyword} :
    ofName? name = some k ↔ name = k.name := by
  constructor
  · intro h
    unfold ofName? at h
    split at h <;> cases h <;> rfl
  · rintro rfl
    exact ofName?_name k

theorem Visibility.ofName?_eq_some_iff {name : String} {level : Visibility} :
    ofName? name = some level ↔ name = level.name := by
  constructor
  · intro h
    unfold ofName? at h
    split at h <;> cases h <;> rfl
  · rintro rfl
    exact ofName?_name level

/-- No name is that of a keyword and that of a visibility. -/
theorem Keyword.name_ne_visibilityName (k : Keyword) (level : Visibility) :
    k.name ≠ level.name := by
  cases k <;> cases level <;> decide

theorem Keyword.ofToken?_eq_some_iff {token : String} {k : Keyword} :
    ofToken? token = some k ↔ Text.asciiUpper? token = some k.name := by
  simp [ofToken?, Option.bind_eq_some_iff, ofName?_eq_some_iff]

theorem Visibility.ofToken?_eq_some_iff {token : String} {level : Visibility} :
    ofToken? token = some level ↔ Text.asciiUpper? token = some level.name := by
  simp [ofToken?, Option.bind_eq_some_iff, ofName?_eq_some_iff]

/-- A token is read as the modifier that it spells. -/
theorem Modifier.isSpelled_iff {token : String} {m : Modifier} :
    IsSpelled token m ↔ ofToken token = m := by
  constructor
  · rintro (hk | hlevel | ⟨hk, hlevel⟩)
    · rw [ofToken, Keyword.ofToken?_eq_some_iff.2 hk]
    · rename_i level
      -- A visibility is no keyword, so the first table has no entry for it.
      have hnone : Keyword.ofToken? token = none := Option.eq_none_iff_forall_ne_some.2 fun k hk =>
        k.name_ne_visibilityName level (Option.some.inj
          ((Keyword.ofToken?_eq_some_iff.1 hk).symm.trans hlevel))
      rw [ofToken, hnone, Visibility.ofToken?_eq_some_iff.2 hlevel]
    -- Neither table has an entry.
    · have hnone : Keyword.ofToken? token = none := Option.eq_none_iff_forall_ne_some.2 fun k h =>
        hk k (Keyword.ofToken?_eq_some_iff.1 h)
      have hnone' : Visibility.ofToken? token = none :=
        Option.eq_none_iff_forall_ne_some.2 fun level h =>
          hlevel level (Visibility.ofToken?_eq_some_iff.1 h)
      rw [ofToken, hnone, hnone']
  · rintro rfl
    unfold ofToken
    -- The tables are tried one after the other.
    split
    · rename_i k _ hk
      exact .keyword (Keyword.ofToken?_eq_some_iff.1 hk)
    · rename_i level _ hlevel
      exact .visibility (Visibility.ofToken?_eq_some_iff.1 hlevel)
    · rename_i hk hlevel
      refine .other (fun k h => ?_) (fun level h => ?_)
      · exact nomatch hk.symm.trans (Keyword.ofToken?_eq_some_iff.2 h)
      · exact nomatch hlevel.symm.trans (Visibility.ofToken?_eq_some_iff.2 h)

section

variable (source : Bytes)

/-- What an argument of an annotation says: a member and its value, with a space between them, or
    the value alone behind a space. -/
def IsArgument (argument : Node) (text : String) : Prop :=
  argument.kind = "element_value_pair" ∧
      text = (argument.fieldText? source "key").getD "" ++ " " ++
        (argument.fieldText? source "value").getD "" ∨
    argument.kind ≠ "element_value_pair" ∧ text = " " ++ argument.text source

/-- What a node of a modifier list says: the use of an annotation, with an entry for each of its
    arguments, or what the token there spells. -/
inductive IsModifier (n : Node) : Modifier → Prop
  | annotated {arguments : List String}
      (kind : n.kind = "annotation" ∨ n.kind = "marker_annotation")
      (inOrder : List.Forall₂ (IsArgument source)
        ((n.child? "arguments").toList.flatMap Node.content) arguments) :
      IsModifier n (.annotated ((n.fieldText? source "name").getD "") arguments)
  | token {m : Modifier} (kind : n.kind ≠ "annotation" ∧ n.kind ≠ "marker_annotation")
      (spelled : m.IsSpelled (n.text source)) : IsModifier n m

/-- The nodes of the modifier list of a declaration, without comments. -/
def Syntax.Node.modifierNodes (owner : Node) : List Node :=
  (owner.children.find? (·.kind == "modifiers")).toList.flatMap fun list =>
    list.children.filter (!·.isExtra)

/-- The modifiers of a declaration: one for each node of its modifier list, in this order. -/
def HasModifiers (owner : Node) (modifiers : List Modifier) : Prop :=
  List.Forall₂ (IsModifier source) owner.modifierNodes modifiers

theorem isArgument_iff {argument : Node} {text : String} :
    IsArgument source argument text ↔ annotationArgument source argument = text := by
  unfold IsArgument annotationArgument memberAndValue
  by_cases hkind : argument.kind = "element_value_pair"
  · rw [if_pos (beq_iff_eq.2 hkind)]
    simp [hkind, eq_comm (a := text)]
  · rw [if_neg (mt beq_iff_eq.1 hkind)]
    simp [hkind, eq_comm (a := text)]

/-- A node of a modifier list is read as the modifier that it says. -/
theorem isModifier_iff {n : Node} {m : Modifier} :
    IsModifier source n m ↔ modifierOf source n = m := by
  have hannotated : (n.kind == "annotation" || n.kind == "marker_annotation") = true ↔
      n.kind = "annotation" ∨ n.kind = "marker_annotation" := by simp
  -- A use without arguments has no list, and then none is read.
  have harguments : ∀ arguments, List.Forall₂ (IsArgument source)
      ((n.child? "arguments").toList.flatMap Node.content) arguments ↔
      annotationOf source n = .annotated ((n.fieldText? source "name").getD "") arguments := by
    intro arguments
    rw [forall₂_iff_map (R := IsArgument source) fun _ _ => isArgument_iff source, annotationOf]
    cases n.child? "arguments" <;> simp
  unfold modifierOf
  constructor
  · rintro (⟨hkind, h⟩ | ⟨hkind, h⟩)
    -- An annotation is read with its arguments, and any other token by its spelling.
    · rw [if_pos (hannotated.2 hkind)]
      exact (harguments _).1 h
    · rw [if_neg fun h => hannotated.1 h |>.elim hkind.1 hkind.2]
      exact Modifier.isSpelled_iff.1 h
  · rintro rfl
    split
    · rename_i hkind
      exact .annotated (hannotated.1 hkind) ((harguments _).2 rfl)
    · rename_i hkind
      rw [hannotated, not_or] at hkind
      exact .token hkind (Modifier.isSpelled_iff.2 rfl)

/-- The modifiers that are read are those of the declaration. -/
theorem modifiersOf_eq_iff {owner : Node} {modifiers : List Modifier} :
    modifiersOf source owner = modifiers ↔ HasModifiers source owner modifiers := by
  rw [HasModifiers, forall₂_iff_map (R := IsModifier source) fun _ _ => isModifier_iff source,
    modifiersOf, Node.modifierNodes]
  cases owner.children.find? (·.kind == "modifiers") <;> simp

/-! ## Fields -/

/-- The declarators of a declaration of variables, each with the declaration. -/
def Syntax.Node.declarators (n : Node) : List (Node × Node) :=
  (n.childrenAt "declarator").map fun d => (n, d)

/-- The field that a declarator declares: its type is that of the declaration, with the dimensions
    of the declarator, and its modifiers are those of the declaration. -/
structure IsField (d : Node × Node) (field : Variable) : Prop where
  name : d.2.fieldText? source "name" = some field.name
  type : ∃ type, d.1.fieldText? source "type" = some type ∧
    field.type = ⟨type ++ (d.2.fieldText? source "dimensions").getD "", .other⟩
  modifiers : HasModifiers source d.1 field.modifiers

/-- A declarator is read as the field that it declares. -/
theorem isField_iff {d : Node × Node} {field : Variable} :
    IsField source d field ↔
      ((d.1.fieldText? source "type").bind fun type => (declaratorOf? source type d.2).map
        fun found => .typed found.name found.type (modifiersOf source d.1)) = some field := by
  obtain ⟨n, declarator⟩ := d
  obtain ⟨name, type, modifiers⟩ := field
  constructor
  -- With a name and a type the reader finds the field.
  · rintro ⟨hname, ⟨t, ht, htype⟩, hmodifiers⟩
    obtain rfl := htype
    simp only at hname ht hmodifiers ⊢
    rw [(modifiersOf_eq_iff source).2 hmodifiers, ht]
    simp [declaratorOf?, hname, Variable.typed]
  · intro h
    obtain ⟨t, ht, h⟩ := Option.bind_eq_some_iff.1 h
    cases hname : declarator.fieldText? source "name" with
    -- A declarator without a name is passed over.
    | none => simp [declaratorOf?, hname] at h
    | some found =>
      simp only [declaratorOf?, hname, Variable.typed, Option.pure_def, Option.bind_eq_bind,
        Option.bind_some, Option.map_some, Option.some.injEq, Variable.mk.injEq] at h
      obtain ⟨rfl, rfl, rfl⟩ := h
      exact ⟨hname, ⟨t, ht, rfl⟩, (modifiersOf_eq_iff source).1 rfl⟩

/-- A declarator declares one field. -/
theorem IsField.unique {d : Node × Node} {field field' : Variable} (h : IsField source d field)
    (h' : IsField source d field') : field = field' :=
  Option.some.inj (((isField_iff source).1 h).symm.trans ((isField_iff source).1 h'))

/-- The fields that are read are those of the declarators. -/
theorem fieldsOf_eq_iff {n : Node} {fields : List Variable} :
    fieldsOf source n = fields ↔ Readings (IsField source) n.declarators fields := by
  rw [Readings.iff_filterMap (R := IsField source) fun _ _ => isField_iff source, Node.declarators,
    List.filterMap_map, fieldsOf, declaratorsOf]
  simp only [Function.comp_def]
  cases n.fieldText? source "type" with
  | none => simp
  | some type =>
    rw [List.map_filterMap]
    rfl

/-! ## Parameters -/

/-- The parameter that a node declares.  In `type... name` the type and the declarator stand under
    no field. -/
inductive IsParameter (n : Node) : Variable → Prop
  | formal {name type : String} {modifiers : List Modifier} (kind : n.kind = "formal_parameter")
      (hasName : n.fieldText? source "name" = some name)
      (hasType : n.fieldText? source "type" = some type)
      (hasModifiers : HasModifiers source n modifiers) :
      IsParameter n ⟨name, ⟨type ++ (n.fieldText? source "dimensions").getD "", .other⟩, modifiers⟩
  | spread {name : String} {type declarator : Node} {modifiers : List Modifier}
      (kind : n.kind = "spread_parameter")
      (hasType : n.content.find? (fun c =>
        c.kind != "modifiers" && c.kind != "variable_declarator") = some type)
      (hasDeclarator : n.content.find? (·.kind == "variable_declarator") = some declarator)
      (hasName : declarator.fieldText? source "name" = some name)
      (hasModifiers : HasModifiers source n modifiers) :
      IsParameter n ⟨name, ⟨type.text source ++ "...", .other⟩, modifiers⟩

/-- The parameters of a method: one for each node of its parameter list that declares one. -/
def HasParameters (method : Node) (parameters : List Variable) : Prop :=
  Readings (IsParameter source) ((method.child? "parameters").toList.flatMap Node.content)
    parameters

/-- A node of a parameter list is read as the parameter that it declares. -/
theorem isParameter_iff {n : Node} {v : Variable} :
    IsParameter source n v ↔ parameterOf? source n = some v := by
  constructor
  · rintro (⟨hkind, hname, htype, hmodifiers⟩ | ⟨hkind, htype, hdeclarator, hname, hmodifiers⟩)
    -- With all its parts there, a parameter of either sort is found.
    · rw [← (modifiersOf_eq_iff source).2 hmodifiers]
      simp [parameterOf?, hkind, hname, htype, Variable.typed]
    · rw [← (modifiersOf_eq_iff source).2 hmodifiers]
      simp [parameterOf?, hkind, spreadParameterOf?, htype, hdeclarator, hname, Variable.typed]
  · intro h
    unfold parameterOf? at h
    split at h
    · rename_i hkind
      obtain ⟨name, hname, h⟩ := Option.bind_eq_some_iff.1 h
      obtain ⟨type, htype, h⟩ := Option.bind_eq_some_iff.1 h
      obtain rfl := Option.some.inj h
      exact .formal hkind hname htype ((modifiersOf_eq_iff source).1 rfl)
    · rename_i hkind
      obtain ⟨type, htype, h⟩ := Option.bind_eq_some_iff.1 h
      obtain ⟨declarator, hdeclarator, h⟩ := Option.bind_eq_some_iff.1 h
      obtain ⟨name, hname, h⟩ := Option.bind_eq_some_iff.1 h
      obtain rfl := Option.some.inj h
      exact .spread hkind htype hdeclarator hname ((modifiersOf_eq_iff source).1 rfl)
    -- Any other node declares no parameter.
    · exact nomatch h

/-- The parameters that are read are those of the method. -/
theorem parametersOf_eq_iff {method : Node} {parameters : List Variable} :
    parametersOf source method = parameters ↔ HasParameters source method parameters := by
  rw [HasParameters,
    Readings.iff_filterMap (R := IsParameter source) fun _ _ => isParameter_iff source, parametersOf]
  cases method.child? "parameters" <;> simp

/-! ## Methods -/

/-- The method that a node declares, as far as the node tells it without its body. -/
structure IsMethod (n : Node) (m : Method) : Prop where
  kind : n.kind = "method_declaration" ∨ n.kind = "annotation_type_element_declaration"
  name : n.fieldText? source "name" = some m.name
  returnType : m.returnType = ⟨(n.fieldText? source "type").getD "" ++
    (n.fieldText? source "dimensions").getD "", .other⟩
  modifiers : HasModifiers source n m.modifiers
  arguments : HasParameters source n m.arguments

/-- The parameter types of a method: one for each node of its parameter list that declares a
    parameter, in this order. -/
theorem IsMethod.readings_parameterTypes {n : Node} {m : Method} (h : IsMethod source n m) :
    Readings (fun p type => ∃ v, IsParameter source p v ∧ v.type.name = type)
      ((n.child? "parameters").toList.flatMap Node.content) m.parameterTypes :=
  h.arguments.map fun _ _ => Iff.rfl

end

/-! ## Kinds of types -/

/-- Whether a node declares a type of a kind.  Type parameters count for classes and records only,
    as no interface, annotation or enum is taken for a generic type. -/
def Syntax.Node.DeclaresKind (n : Node) : DeclKind → Prop
  | .interfaceDecl => n.kind = "interface_declaration"
  | .annotationDecl => n.kind = "annotation_type_declaration"
  | .enumDecl => n.kind = "enum_declaration"
  | .generic =>
    n.kind ∉ ["interface_declaration", "annotation_type_declaration", "enum_declaration"] ∧
      ∃ c ∈ n.children, c.field = "type_parameters"
  | .classDecl =>
    n.kind = "class_declaration" ∧ ∀ c ∈ n.children, c.field ≠ "type_parameters"
  | .other =>
    n.kind ∉ ["interface_declaration", "annotation_type_declaration", "enum_declaration",
        "class_declaration"] ∧
      ∀ c ∈ n.children, c.field ≠ "type_parameters"

/-- Whether a node has type parameters. -/
theorem isGeneric_of_iff {n : Node} :
    (DeclShape.of n).isGeneric = true ↔ ∃ c ∈ n.children, c.field = "type_parameters" := by
  simp [DeclShape.of, Node.child?, List.find?_isSome]

/-- No node declares a type of two kinds. -/
theorem Syntax.Node.DeclaresKind.unique {n : Node} {j k : DeclKind} (hj : n.DeclaresKind j)
    (hk : n.DeclaresKind k) : j = k := by
  -- Two rows of the table name different kinds of nodes or disagree about type parameters.
  cases j <;> cases k <;> simp only [Node.DeclaresKind] at hj hk <;> first | rfl | grind

/-- A node declares a type of the kind that is read. -/
theorem declaresKind_kind (n : Node) : n.DeclaresKind (DeclShape.of n).kind := by
  have hplain : (DeclShape.of n).isGeneric ≠ true →
      ∀ c ∈ n.children, c.field ≠ "type_parameters" := by
    intro h c hc hfield
    exact h (isGeneric_of_iff.2 ⟨c, hc, hfield⟩)
  unfold DeclShape.kind
  by_cases hinterface : n.kind = "interface_declaration"
  · simp [DeclShape.of, hinterface, Node.DeclaresKind]
  by_cases hannotated : n.kind = "annotation_type_declaration"
  · simp [DeclShape.of, hannotated, Node.DeclaresKind]
  by_cases henum : n.kind = "enum_declaration"
  · simp [DeclShape.of, henum, Node.DeclaresKind]
  -- From here on it matters whether there are type parameters.
  have hother : n.kind ∉
      ["interface_declaration", "annotation_type_declaration", "enum_declaration"] := by
    simp [hinterface, hannotated, henum]
  rw [if_neg (by simpa [DeclShape.of] using hinterface),
    if_neg (by simpa [DeclShape.of] using hannotated),
    if_neg (by simpa [DeclShape.of] using henum)]
  by_cases hgeneric : (DeclShape.of n).isGeneric = true
  · rw [if_pos hgeneric]
    exact ⟨hother, isGeneric_of_iff.1 hgeneric⟩
  rw [if_neg hgeneric]
  by_cases hclass : n.kind = "class_declaration"
  · rw [if_pos (by simpa [DeclShape.of] using hclass)]
    exact ⟨hclass, hplain hgeneric⟩
  · rw [if_neg (by simpa [DeclShape.of] using hclass)]
    exact ⟨by simp [hinterface, hannotated, henum, hclass], hplain hgeneric⟩

/-- The kind that is read is the one that the node declares. -/
theorem DeclShape.kind_eq_iff {n : Node} {k : DeclKind} :
    (DeclShape.of n).kind = k ↔ n.DeclaresKind k :=
  ⟨fun h => h ▸ declaresKind_kind n, fun h => (declaresKind_kind n).unique h⟩

end JavaOutline

import JavaOutline.Proofs.Json.Variants

/-!
# Records read from their variants

Each kind of record has a lemma `readsAs`: its parts are read by name, so a part that varies is read
from its variant and a part that is missing refuses the record.  Records that nest in themselves are
followed along the nesting, a list beside its elements.

## Key results

- `Modifier.readsAs`, `Expression.readsAs`, `Statement.readsAs`, `TypeDecl.readsAs`: a record is
  read from its variants
- `Outline.readsAs`: so is the content of a document
-/

namespace JavaOutline

open Json (ReadsAs HasPart Varies whenWhole text readsAs_text readsAs_bool readsAs_texts)

/-! ## Flat records -/

/-- A type reference is read from its variants. -/
theorem TypeRef.readsAs (t : TypeRef) : ReadsAs TypeRef.ofJson? t.toJson t := by
  intro whole v h
  -- From here on the variant is known by its parts only, wherever they stand.
  obtain ⟨written, isWhole, rfl, rfl, hparts⟩ := Varies.hasPart (by simp) h
  simp only [List.forall_mem_cons, List.all_cons, List.all_nil] at hparts ⊢
  obtain ⟨hname, hkind, -⟩ := hparts
  rw [ofJson?]
  exact hname.read (readsAs_text _) rfl (hkind.readTag (DeclKind.ofName?_name _) rfl)

/-- The kind of a modifier, which may stand anywhere among its fields, tells what to read of it. -/
theorem Modifier.read_kindOf? {α : Type} {written : List (Bytes × Json)} {kind : String}
    {whole rest : Bool} (h : HasPart written ("kind", text kind) whole)
    {next : String → Option α} {a : α} (hnext : next kind = whenWhole rest a) :
    (do next (← kindOf? (.object written))) = whenWhole (whole && rest) a := by
  have hkind : kindOf? (.object written) =
      (Json.object written).part? 0 0 "kind" >>= Json.text? := rfl
  rw [hkind, bind_assoc]
  exact h.read (readsAs_text kind) rfl hnext

/-- A modifier is read from its variants. -/
theorem Modifier.readsAs (m : Modifier) : ReadsAs Modifier.ofJson? m.toJson m := by
  intro whole v h
  cases m with
  | visibility level =>
    obtain ⟨written, isWhole, rfl, rfl, hparts⟩ := Varies.hasPart (by simp) h
    simp only [List.forall_mem_cons, List.all_cons, List.all_nil] at hparts ⊢
    obtain ⟨hkind, hlevel, -⟩ := hparts
    rw [ofJson?]
    exact read_kindOf? hkind (hlevel.readTag (Visibility.ofName?_name level) rfl)
  | keyword k token =>
    obtain ⟨written, isWhole, rfl, rfl, hparts⟩ := Varies.hasPart (by simp) h
    simp only [List.forall_mem_cons, List.all_cons, List.all_nil] at hparts ⊢
    obtain ⟨hkind, htoken, -⟩ := hparts
    rw [ofJson?]
    refine read_kindOf? hkind ?_
    -- The kind is the name of the keyword, and the token is read for each of them.
    cases k <;> exact htoken.read (readsAs_text _) rfl rfl
  | annotated name pairs =>
    obtain ⟨written, isWhole, rfl, rfl, hparts⟩ := Varies.hasPart (by simp) h
    simp only [List.forall_mem_cons, List.all_cons, List.all_nil] at hparts ⊢
    obtain ⟨hkind, hname, hpairs, -⟩ := hparts
    rw [ofJson?]
    exact read_kindOf? hkind (hname.read (readsAs_text name) rfl
      (hpairs.read (readsAs_texts pairs) rfl rfl))
  | other token =>
    obtain ⟨written, isWhole, rfl, rfl, hparts⟩ := Varies.hasPart (by simp) h
    simp only [List.forall_mem_cons, List.all_cons, List.all_nil] at hparts ⊢
    obtain ⟨hkind, htoken, -⟩ := hparts
    rw [ofJson?]
    exact read_kindOf? hkind (htoken.read (readsAs_text token) rfl rfl)

/-- A list of modifiers is read from its variants. -/
theorem Modifier.readsAs_list (modifiers : List Modifier) :
    ReadsAs listOfJson? (.array (modifiers.map toJson)) modifiers :=
  ReadsAs.array fun m _ => m.readsAs

/-- A variable is read from its variants. -/
theorem Variable.readsAs (x : Variable) : ReadsAs Variable.ofJson? x.toJson x := by
  intro whole v h
  obtain ⟨written, isWhole, rfl, rfl, hparts⟩ := Varies.hasPart (by simp) h
  simp only [List.forall_mem_cons, List.all_cons, List.all_nil] at hparts ⊢
  obtain ⟨hname, htype, hmodifiers, -⟩ := hparts
  rw [ofJson?]
  refine hname.read (readsAs_text _) rfl ?_
  refine htype.read x.type.readsAs rfl ?_
  exact hmodifiers.read (Modifier.readsAs_list _) rfl rfl

/-- A list of variables is read from its variants. -/
theorem Variable.readsAs_list (xs : List Variable) :
    ReadsAs listOfJson? (.array (xs.map toJson)) xs :=
  ReadsAs.array fun x _ => x.readsAs

/-! ## Nested records -/

/-- The elements of an array that is part of a record are read one by one; that they are smaller
    than the record does not count. -/
theorem Json.listInside?_bind_mapM {α β : Type} (arity index : Nat) (name : String) (v : Json)
    (read : Json → Option α) (next : List α → Option β) :
    (do next (← (← listInside? arity index name v).mapM fun w => read w.1)) =
      (do next (← (← (← v.part? arity index name).elements?).mapM read)) := by
  -- The reader matches with an equation, which is what its elements need to be smaller.
  unfold listInside?
  split
  · rename_i hpart
    rw [hpart]
    rfl
  · rename_i w hpart
    split
    · rename_i hw
      simp [hpart, hw]
    · rename_i found hw
      rw [Option.bind_eq_bind, Option.bind_some, List.mapM_map]
      simp [hpart, hw]

/-- How an expression is read. -/
theorem Expression.ofJson?_eq (v : Json) : Expression.ofJson? v = (do
    let kind ← ExpressionKind.ofName? (← (← v.part? 9 0 "kind").tag? Json.isNull)
    let literal ← (← v.part? 9 1 "literal").text?
    let varName ← (← v.part? 9 2 "variable").text?
    let method ← (← v.part? 9 3 "method").text?
    let isPostfix ← (← v.part? 9 4 "isPostfix").bool?
    let arguments ← listOfJson? (← v.part? 9 5 "methodArguments")
    let declared ← Variable.listOfJson? (← v.part? 9 6 "variableDeclarations")
    let operands ← listOfJson? (← v.part? 9 7 "expressions")
    let newType ← TypeRef.ofJson? (← v.part? 9 8 "newType")
    return ⟨kind, literal, varName, method, isPostfix, arguments, declared, operands,
      newType⟩) := by
  -- The reader walks its lists with their membership at hand; without it they are plain lists.
  rw [ofJson?]
  simp only [Json.listInside?_bind_mapM, listOfJson?, bind_assoc]

/-- What is written of expressions is written one by one. -/
theorem Expression.listToJson_eq_map (es : List Expression) : listToJson es = es.map toJson := by
  induction es with
  | nil => rw [listToJson, List.map_nil]
  | cons e es ih => rw [listToJson, ih, List.map_cons]

/-- An expression is read from its variants if those in it are. -/
theorem Expression.readsAs_of_parts (e : Expression)
    (harguments : ∀ a ∈ e.methodArguments, ReadsAs ofJson? a.toJson a)
    (hoperands : ∀ a ∈ e.expressions, ReadsAs ofJson? a.toJson a) :
    ReadsAs ofJson? e.toJson e := by
  intro whole v h
  cases e
  rw [toJson, listToJson_eq_map, listToJson_eq_map] at h
  obtain ⟨written, isWhole, rfl, rfl, hparts⟩ := Varies.hasPart (by simp) h
  simp only [List.forall_mem_cons, List.all_cons, List.all_nil] at hparts ⊢
  obtain ⟨hkind, hliteral, hvarName, hmethod, hsuffix, hargument, hdeclared, hoperand, htype, -⟩ :=
    hparts
  have hlist : ∀ {es : List Expression}, (∀ e ∈ es, ReadsAs ofJson? e.toJson e) →
      ReadsAs listOfJson? (.array (es.map toJson)) es := fun hes => ReadsAs.array hes
  rw [ofJson?_eq]
  -- One step for each part, in the order in which the reader asks for them.
  refine hkind.readTag (ExpressionKind.ofName?_name _) ?_
  refine hliteral.read (readsAs_text _) rfl ?_
  refine hvarName.read (readsAs_text _) rfl ?_
  refine hmethod.read (readsAs_text _) rfl ?_
  refine hsuffix.read (readsAs_bool _) rfl ?_
  refine hargument.read (hlist harguments) rfl ?_
  refine hdeclared.read (Variable.readsAs_list _) rfl ?_
  refine hoperand.read (hlist hoperands) rfl ?_
  exact htype.read (TypeRef.readsAs _) rfl rfl

mutual

/-- An expression is read from its variants. -/
theorem Expression.readsAs (e : Expression) : ReadsAs ofJson? e.toJson e := by
  match e with
  | ⟨kind, literal, varName, method, isPostfix, arguments, declared, operands, newType⟩ =>
    exact Expression.readsAs_of_parts
      ⟨kind, literal, varName, method, isPostfix, arguments, declared, operands, newType⟩
      (Expression.readsAs_of_mem arguments) (Expression.readsAs_of_mem operands)

/-- Every expression of a list is read from its variants. -/
theorem Expression.readsAs_of_mem (es : List Expression) :
    ∀ e ∈ es, ReadsAs ofJson? e.toJson e := by
  match es with
  | [] => nofun
  | e :: es =>
    rw [List.forall_mem_cons]
    exact ⟨Expression.readsAs e, Expression.readsAs_of_mem es⟩

end

/-- A list of expressions is read from its variants. -/
theorem Expression.readsAs_list (es : List Expression) :
    ReadsAs listOfJson? (.array (listToJson es)) es := by
  rw [listToJson_eq_map]
  exact ReadsAs.array (Expression.readsAs_of_mem es)

/-- What is written of an expression is never `null`, which stands for no expression. -/
theorem Expression.toJson_ne_null (e : Expression) : e.toJson ≠ .null := by
  cases e
  rw [toJson]
  nofun

/-- The condition of a statement is read from its variants: where there is none, the field may be
    left out. -/
theorem Expression.read_optionToJson {β : Type} {written : List (Bytes × Json)}
    {e : Option Expression} {whole rest : Bool}
    (h : HasPart written ("condition", optionToJson e) whole) {arity index : Nat}
    {next : Option Expression → Option β} {b : β} (hnext : next e = whenWhole rest b) :
    (do next (← optionOfJson? ((Json.object written).part? arity index "condition"))) =
      whenWhole (whole && rest) b := by
  obtain ⟨part, hsole, hpart⟩ := h
  rw [Json.part?, hsole.lastField?_eq]
  cases e with
  | none =>
    -- The `null` that stands for no condition may be there or not.
    rw [optionToJson] at hpart
    cases hpart with
    | kept h =>
      cases h
      exact hnext
    | dropped => exact hnext
    | missing h => exact absurd rfl h
  | some e =>
    rw [optionToJson] at hpart
    generalize hv : e.toJson = v at hpart
    cases hpart with
    | @kept _ _ _ w h =>
      subst hv
      -- A variant of an object is an object, hence not the `null` that stands for none.
      rw [optionOfJson?, e.readsAs _ _ h]
      · cases whole
        · rfl
        · exact hnext
      · exact h.ne_null e.toJson_ne_null
    | dropped => exact absurd hv e.toJson_ne_null
    | missing h => exact absurd rfl h

/-- How a statement is read. -/
theorem Statement.ofJson?_eq (v : Json) : Statement.ofJson? v = (do
    let kind ← StatementKind.ofName? (← (← v.part? 6 0 "kind").tag? Json.isNull)
    let condition ← Expression.optionOfJson? (v.part? 6 1 "condition")
    let statements ← listOfJson? (← v.part? 6 2 "statements")
    let expressions ← Expression.listOfJson? (← v.part? 6 3 "expressions")
    let initializations ← Expression.listOfJson? (← v.part? 6 4 "initializations")
    let updates ← Expression.listOfJson? (← v.part? 6 5 "updates")
    return ⟨kind, condition, statements, expressions, initializations, updates⟩) := by
  rw [ofJson?]
  simp only [Json.listInside?_bind_mapM, listOfJson?, bind_assoc]

/-- What is written of statements is written one by one. -/
theorem Statement.listToJson_eq_map (ss : List Statement) : listToJson ss = ss.map toJson := by
  induction ss with
  | nil => rw [listToJson, List.map_nil]
  | cons s ss ih => rw [listToJson, ih, List.map_cons]

/-- A statement is read from its variants if those in it are. -/
theorem Statement.readsAs_of_parts (s : Statement)
    (hstatements : ∀ t ∈ s.statements, ReadsAs ofJson? t.toJson t) :
    ReadsAs ofJson? s.toJson s := by
  intro whole v h
  cases s
  rw [toJson, listToJson_eq_map] at h
  -- The varied record has a part for every part of the written one.
  obtain ⟨written, isWhole, rfl, rfl, hparts⟩ := Varies.hasPart (by simp) h
  simp only [List.forall_mem_cons, List.all_cons, List.all_nil] at hparts ⊢
  obtain ⟨hkind, hcondition, hbody, hexpressions, hinits, hupdates, -⟩ := hparts
  have hlist : ReadsAs listOfJson? _ _ := ReadsAs.array hstatements
  rw [ofJson?_eq]
  -- The parts are read in the order the reader asks for them, each by its own lemma.
  refine hkind.readTag (StatementKind.ofName?_name _) ?_
  refine Expression.read_optionToJson hcondition ?_
  refine hbody.read hlist rfl ?_
  refine hexpressions.read (Expression.readsAs_list _) rfl ?_
  refine hinits.read (Expression.readsAs_list _) rfl ?_
  exact hupdates.read (Expression.readsAs_list _) rfl rfl

mutual

/-- A statement is read from its variants. -/
theorem Statement.readsAs (s : Statement) : ReadsAs ofJson? s.toJson s := by
  match s with
  | ⟨kind, condition, statements, expressions, initializations, updates⟩ =>
    exact Statement.readsAs_of_parts
      ⟨kind, condition, statements, expressions, initializations, updates⟩
      (Statement.readsAs_of_mem statements)

/-- Every statement of a list is read from its variants. -/
theorem Statement.readsAs_of_mem (ss : List Statement) : ∀ s ∈ ss, ReadsAs ofJson? s.toJson s := by
  match ss with
  | [] => nofun
  | s :: ss =>
    rw [List.forall_mem_cons]
    exact ⟨Statement.readsAs s, Statement.readsAs_of_mem ss⟩

end

/-- A list of statements is read from its variants. -/
theorem Statement.readsAs_list (ss : List Statement) :
    ReadsAs listOfJson? (.array (listToJson ss)) ss := by
  rw [listToJson_eq_map]
  exact ReadsAs.array (Statement.readsAs_of_mem ss)

/-- A method is read from its variants. -/
theorem Method.readsAs (m : Method) : ReadsAs ofJson? m.toJson m := by
  intro whole v h
  obtain ⟨written, isWhole, rfl, rfl, hparts⟩ := Varies.hasPart (by simp) h
  simp only [List.forall_mem_cons, List.all_cons, List.all_nil] at hparts ⊢
  obtain ⟨hname, htype, hmodifiers, harguments, hbody, hstatements, -⟩ := hparts
  rw [ofJson?]
  -- Part by part, in the order of the reader.
  refine hname.read (readsAs_text _) rfl ?_
  refine htype.read (TypeRef.readsAs _) rfl ?_
  refine hmodifiers.read (Modifier.readsAs_list _) rfl ?_
  refine harguments.read (Variable.readsAs_list _) rfl ?_
  refine hbody.read (Expression.readsAs_list _) rfl ?_
  exact hstatements.read (Statement.readsAs_list _) rfl rfl

/-- A list of methods is read from its variants. -/
theorem Method.readsAs_list (methods : List Method) :
    ReadsAs listOfJson? (.array (methods.map toJson)) methods :=
  ReadsAs.array fun m _ => m.readsAs

/-- How a type declaration is read. -/
theorem TypeDecl.ofJson?_eq (v : Json) : TypeDecl.ofJson? v = (do
    let name ← (← v.part? 6 0 "name").text?
    let kind ← DeclKind.ofName? (← (← v.part? 6 1 "kind").tag? Json.isNull)
    let modifiers ← Modifier.listOfJson? (← v.part? 6 2 "modifiers")
    let fields ← Variable.listOfJson? (← v.part? 6 3 "fields")
    let methods ← Method.listOfJson? (← v.part? 6 4 "methods")
    let nested ← (← (← v.part? 6 5 "nested").elements?).mapM ofJson?
    return ⟨name, kind, modifiers, fields, methods, nested⟩) := by
  rw [ofJson?]
  simp only [Json.listInside?_bind_mapM]

/-- What is written of type declarations is written one by one. -/
theorem TypeDecl.listToJson_eq_map (ds : List TypeDecl) : listToJson ds = ds.map toJson := by
  induction ds with
  | nil => rw [listToJson, List.map_nil]
  | cons d ds ih => rw [listToJson, ih, List.map_cons]

/-- A type declaration is read from its variants if those in it are. -/
theorem TypeDecl.readsAs_of_parts (d : TypeDecl)
    (hnested : ∀ t ∈ d.nested, ReadsAs ofJson? t.toJson t) : ReadsAs ofJson? d.toJson d := by
  intro whole v h
  cases d
  rw [toJson, listToJson_eq_map] at h
  obtain ⟨written, isWhole, rfl, rfl, hparts⟩ := Varies.hasPart (by simp) h
  simp only [List.forall_mem_cons, List.all_cons, List.all_nil] at hparts ⊢
  obtain ⟨hname, hkind, hmodifiers, hfields, hmethods, hnest, -⟩ := hparts
  rw [ofJson?_eq]
  refine hname.read (readsAs_text _) rfl ?_
  refine hkind.readTag (DeclKind.ofName?_name _) ?_
  refine hmodifiers.read (Modifier.readsAs_list _) rfl ?_
  refine hfields.read (Variable.readsAs_list _) rfl ?_
  refine hmethods.read (Method.readsAs_list _) rfl ?_
  -- The nested declarations come last; they are the ones the induction is on.
  exact hnest.readList hnested rfl

mutual

/-- A type declaration is read from its variants. -/
theorem TypeDecl.readsAs (d : TypeDecl) : ReadsAs ofJson? d.toJson d := by
  match d with
  | ⟨name, kind, modifiers, fields, methods, nested⟩ =>
    exact TypeDecl.readsAs_of_parts ⟨name, kind, modifiers, fields, methods, nested⟩
      (TypeDecl.readsAs_of_mem nested)

/-- Every type declaration of a list is read from its variants. -/
theorem TypeDecl.readsAs_of_mem (ds : List TypeDecl) : ∀ d ∈ ds, ReadsAs ofJson? d.toJson d := by
  match ds with
  | [] => nofun
  | d :: ds =>
    rw [List.forall_mem_cons]
    exact ⟨TypeDecl.readsAs d, TypeDecl.readsAs_of_mem ds⟩

end

/-- The content of a document is read from its variants. -/
theorem Outline.readsAs (o : Outline) : ReadsAs ofJson? o.toJson o := by
  intro whole v h
  rw [toJson, TypeDecl.listToJson_eq_map] at h
  obtain ⟨written, isWhole, rfl, rfl, hparts⟩ := Varies.hasPart (by simp) h
  simp only [List.forall_mem_cons, List.all_cons, List.all_nil] at hparts ⊢
  obtain ⟨himports, hnamespaces, -⟩ := hparts
  rw [ofJson?]
  refine himports.read (readsAs_texts _) rfl ?_
  exact hnamespaces.readList (TypeDecl.readsAs_of_mem _) rfl

end JavaOutline

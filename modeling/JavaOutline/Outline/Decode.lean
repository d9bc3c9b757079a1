import JavaOutline.Json.Number
import JavaOutline.Outline.Encode

/-! # Reading persisted outlines

Reading is more liberal than writing.  A record may be an object with its fields in any order and
unknown fields among them, or an array of exactly its fields in order.  A modifier written as an
array has its kind first.  An enumeration value may be its tag or an object whose only field is
the tag.  Inside the content the last of several fields of one name counts.

The envelope is stricter about its own three fields, which occur exactly once, and looser about
the rest, which is not even decoded.  It is read whole before anything in it is judged: first the
schema, then the version, then the content.

* `Outline.decode` is the reader; `DecodeError` says why a document is refused.
-/

namespace JavaOutline

namespace Json

/-! ## Well-spelled values -/

mutual

/-- Whether every string of a value is a text and every number is finite. -/
def isStrict : Json → Bool
  | null | bool _ => true
  | number literal => isFinite literal
  | string body => (unescape? body).isSome
  | array elements => areStrict elements
  | object fields => fieldsAreStrict fields

/-- Whether every element is strict. -/
def areStrict : List Json → Bool
  | [] => true
  | v :: vs => v.isStrict && areStrict vs

/-- Whether every field's name is a text and every field's value is strict. -/
def fieldsAreStrict : List (Bytes × Json) → Bool
  | [] => true
  | (k, v) :: fs => (unescape? k).isSome && v.isStrict && fieldsAreStrict fs

end

/-! ## Parts of a value -/

/-- Whether a spelled field name stands for `name`. -/
def isNamed (name : String) (field : Bytes × Json) : Bool :=
  unescape? field.1 == some name

/-- The value of the last field called `name`. -/
def lastField? (name : String) : List (Bytes × Json) → Option Json
  | [] => none
  | f :: fs => (lastField? name fs).orElse fun _ => if isNamed name f then some f.2 else none

/-- The part of a record of `arity` fields that stands at `index` in an array and is called `name`
    in an object. -/
def part? (arity index : Nat) (name : String) : Json → Option Json
  | array elements => if elements.length = arity then elements[index]? else none
  | object fields => lastField? name fields
  | _ => none

/-- The elements of an array. -/
def elements? : Json → Option (List Json)
  | array elements => some elements
  | _ => none

/-- A truth value. -/
def bool? : Json → Option Bool
  | bool b => some b
  | _ => none

/-- The texts of an array of strings. -/
def texts? (v : Json) : Option (List String) := do
  (← v.elements?).mapM text?

/-- The only field of an object, repetitions of its name aside. -/
def soleField? : Json → Option (String × Json)
  | object fields => do
    let (key, _) ← fields.getLast?
    let name ← unescape? key
    if fields.all (isNamed name) then return (name, ← lastField? name fields) else none
  | _ => none

/-- The tag of an enumeration value: a string, or the only field of an object whose value passes
    `isUnit`. -/
def tag? (isUnit : Json → Bool) (v : Json) : Option String :=
  match v with
  | string body => unescape? body
  | _ => do
    let (name, inner) ← v.soleField?
    if isUnit inner then return name else none

/-- Whether a value is `null`. -/
def isNull : Json → Bool
  | null => true
  | _ => false

/-- Whether a value is `null` or an object without fields. -/
def isNullOrEmpty : Json → Bool
  | null | object [] => true
  | _ => false

/-! ## Parts are smaller -/

theorem sizeOf_lastField? {name : String} {fields : List (Bytes × Json)} {v : Json}
    (h : lastField? name fields = some v) : sizeOf v < sizeOf fields := by
  induction fields with
  | nil => simp [lastField?] at h
  | cons f fs ih =>
    obtain ⟨k, w⟩ := f
    rw [lastField?] at h
    cases hfs : lastField? name fs with
    | some u =>
      simp only [hfs, Option.orElse_some, Option.some.injEq] at h
      subst h
      have := ih hfs
      simp only [List.cons.sizeOf_spec]
      omega
    | none =>
      simp only [hfs, Option.orElse_none] at h
      split at h
      · simp only [Option.some.injEq] at h
        subst h
        simp only [List.cons.sizeOf_spec, Prod.mk.sizeOf_spec]
        omega
      · simp at h

theorem sizeOf_part? {arity index : Nat} {name : String} {v w : Json}
    (h : part? arity index name v = some w) : sizeOf w < sizeOf v := by
  cases v with
  | array elements =>
    simp only [part?] at h
    split at h
    · have := List.sizeOf_lt_of_mem (List.mem_of_getElem? h)
      simp only [array.sizeOf_spec]
      omega
    · simp at h
  | object fields =>
    have := sizeOf_lastField? h
    simp only [object.sizeOf_spec]
    omega
  | null => simp [part?] at h
  | bool b => simp [part?] at h
  | number l => simp [part?] at h
  | string b => simp [part?] at h

theorem sizeOf_elements? {v w : Json} {elements : List Json}
    (h : v.elements? = some elements) (hw : w ∈ elements) : sizeOf w < sizeOf v := by
  cases v with
  | array es =>
    simp only [elements?, Option.some.injEq] at h
    subst h
    have := List.sizeOf_lt_of_mem hw
    simp only [array.sizeOf_spec]
    omega
  | null => simp [elements?] at h
  | bool b => simp [elements?] at h
  | number l => simp [elements?] at h
  | string b => simp [elements?] at h
  | object f => simp [elements?] at h

/-- A value that is smaller than `v`. -/
abbrev Inside (v : Json) := { w : Json // sizeOf w < sizeOf v }

/-- The part of a record, known to be smaller than the record. -/
def inside? (arity index : Nat) (name : String) (v : Json) : Option (Inside v) :=
  match h : part? arity index name v with
  | some w => some ⟨w, sizeOf_part? h⟩
  | none => none

/-- The elements of an array that is part of a record, each known to be smaller than the
    record. -/
def listInside? (arity index : Nat) (name : String) (v : Json) : Option (List (Inside v)) :=
  match h : part? arity index name v with
  | none => none
  | some w =>
    match hw : w.elements? with
    | none => none
    | some elements => some (elements.attach.map fun ⟨e, he⟩ =>
        ⟨e, Nat.lt_trans (sizeOf_elements? hw he) (sizeOf_part? h)⟩)

end Json

open Json (isNull isNullOrEmpty)

/-! ## Records -/

/-- Reads a type reference. -/
def TypeRef.ofJson? (v : Json) : Option TypeRef := do
  let name ← (← v.part? 2 0 "name").text?
  let kind ← DeclKind.ofName? (← (← v.part? 2 1 "kind").tag? isNull)
  return ⟨name, kind⟩

/-- The kind of a modifier, which is always a string. -/
def Modifier.kindOf? : Json → Option String
  | .array (kind :: _) => kind.text?
  | .object fields => do (← Json.lastField? "kind" fields).text?
  | _ => none

/-- Reads a modifier. -/
def Modifier.ofJson? (v : Json) : Option Modifier := do
  match ← Modifier.kindOf? v with
  | "VISIBILITY" =>
    let level ← (← v.part? 2 1 "visibility").tag? isNullOrEmpty
    return .visibility (← Visibility.ofName? level)
  | "ANNOTATION" =>
    let name ← (← v.part? 3 1 "name").text?
    let pairs ← (← v.part? 3 2 "membersAndValues").texts?
    return .annotated name pairs
  | "OTHER" => return .other (← (← v.part? 2 1 "other").text?)
  | kind => return .keyword (← Keyword.ofName? kind) (← (← v.part? 2 1 "name").text?)

/-- Reads a list of modifiers. -/
def Modifier.listOfJson? (v : Json) : Option (List Modifier) := do
  (← v.elements?).mapM Modifier.ofJson?

/-- Reads a variable. -/
def Variable.ofJson? (v : Json) : Option Variable := do
  let name ← (← v.part? 3 0 "name").text?
  let type ← TypeRef.ofJson? (← v.part? 3 1 "type")
  let modifiers ← Modifier.listOfJson? (← v.part? 3 2 "modifiers")
  return ⟨name, type, modifiers⟩

/-- Reads a list of variables. -/
def Variable.listOfJson? (v : Json) : Option (List Variable) := do
  (← v.elements?).mapM Variable.ofJson?

/-- Reads an expression. -/
def Expression.ofJson? (v : Json) : Option Expression := do
  let kind ← ExpressionKind.ofName? (← (← v.part? 9 0 "kind").tag? isNull)
  let literal ← (← v.part? 9 1 "literal").text?
  let varName ← (← v.part? 9 2 "variable").text?
  let method ← (← v.part? 9 3 "method").text?
  let isPostfix ← (← v.part? 9 4 "isPostfix").bool?
  let arguments ← (← v.listInside? 9 5 "methodArguments").mapM fun ⟨w, _⟩ => Expression.ofJson? w
  let declared ← Variable.listOfJson? (← v.part? 9 6 "variableDeclarations")
  let operands ← (← v.listInside? 9 7 "expressions").mapM fun ⟨w, _⟩ => Expression.ofJson? w
  let newType ← TypeRef.ofJson? (← v.part? 9 8 "newType")
  return ⟨kind, literal, varName, method, isPostfix, arguments, declared, operands, newType⟩
termination_by sizeOf v

/-- Reads a list of expressions. -/
def Expression.listOfJson? (v : Json) : Option (List Expression) := do
  (← v.elements?).mapM Expression.ofJson?

/-- Reads an optional expression: one that is missing or `null` is absent. -/
def Expression.optionOfJson? : Option Json → Option (Option Expression)
  | none | some .null => some none
  | some v => (Expression.ofJson? v).map some

/-- Reads a statement. -/
def Statement.ofJson? (v : Json) : Option Statement := do
  let kind ← StatementKind.ofName? (← (← v.part? 6 0 "kind").tag? isNull)
  let condition ← Expression.optionOfJson? (v.part? 6 1 "condition")
  let statements ← (← v.listInside? 6 2 "statements").mapM fun ⟨w, _⟩ => Statement.ofJson? w
  let expressions ← Expression.listOfJson? (← v.part? 6 3 "expressions")
  let initializations ← Expression.listOfJson? (← v.part? 6 4 "initializations")
  let updates ← Expression.listOfJson? (← v.part? 6 5 "updates")
  return ⟨kind, condition, statements, expressions, initializations, updates⟩
termination_by sizeOf v

/-- Reads a list of statements. -/
def Statement.listOfJson? (v : Json) : Option (List Statement) := do
  (← v.elements?).mapM Statement.ofJson?

/-- Reads a method. -/
def Method.ofJson? (v : Json) : Option Method := do
  let name ← (← v.part? 6 0 "name").text?
  let returnType ← TypeRef.ofJson? (← v.part? 6 1 "returnType")
  let modifiers ← Modifier.listOfJson? (← v.part? 6 2 "modifiers")
  let arguments ← Variable.listOfJson? (← v.part? 6 3 "arguments")
  let bodyContent ← Expression.listOfJson? (← v.part? 6 4 "bodyContent")
  let statements ← Statement.listOfJson? (← v.part? 6 5 "statements")
  return ⟨name, returnType, modifiers, arguments, bodyContent, statements⟩

/-- Reads a list of methods. -/
def Method.listOfJson? (v : Json) : Option (List Method) := do
  (← v.elements?).mapM Method.ofJson?

/-- Reads a type declaration. -/
def TypeDecl.ofJson? (v : Json) : Option TypeDecl := do
  let name ← (← v.part? 6 0 "name").text?
  let kind ← DeclKind.ofName? (← (← v.part? 6 1 "kind").tag? isNull)
  let modifiers ← Modifier.listOfJson? (← v.part? 6 2 "modifiers")
  let fields ← Variable.listOfJson? (← v.part? 6 3 "fields")
  let methods ← Method.listOfJson? (← v.part? 6 4 "methods")
  let nested ← (← v.listInside? 6 5 "nested").mapM fun ⟨w, _⟩ => TypeDecl.ofJson? w
  return ⟨name, kind, modifiers, fields, methods, nested⟩
termination_by sizeOf v

/-- Reads the content of a document. -/
def Outline.ofJson? (v : Json) : Option Outline := do
  let imports ← (← v.part? 2 0 "imports").texts?
  let namespaces ← (← (← v.part? 2 1 "namespaces").elements?).mapM TypeDecl.ofJson?
  return ⟨imports, namespaces⟩

/-! ## Documents -/

/-- Why a document is refused. -/
inductive DecodeError where
  /-- It is no complete envelope, or its content is no outline. -/
  | malformed
  | unknownSchema (name : String)
  | unsupportedVersion (found : Nat)
deriving DecidableEq

/-- The wording of a refusal; what is wrong with a malformed document is not told. -/
def DecodeError.message : DecodeError → String
  | malformed => "malformed IR document"
  | unknownSchema name => "unknown IR schema `" ++ name ++ "`"
  | unsupportedVersion found =>
    "unsupported IR schema version " ++ found.repr ++ " (expected " ++ schemaVersion.repr ++ ")"

/-- An envelope that has been read but not judged. -/
structure Envelope where
  schema : String
  version : Nat
  root : Json

namespace Envelope

/-- The greatest version that can be written. -/
def maxVersion : Nat := 0xffffffff

/-- A version number: a plain literal of digits within 32 bits. -/
def version? : Json → Option Nat
  | .number literal => (Json.natural? literal).filter (· ≤ maxVersion)
  | _ => none

/-- An envelope from the values of its three fields. -/
def ofParts? (schema version root : Json) : Option Envelope := do
  let schema ← schema.text?
  let version ← version? version
  if root.isStrict then return ⟨schema, version, root⟩ else none

/-- The value of the only field called `name`. -/
def onlyField? (name : String) (fields : List (Bytes × Json)) : Option Json :=
  match fields.filter (Json.isNamed name) with
  | [(_, v)] => some v
  | _ => none

/-- Reads an envelope: an object whose field names are texts, or an array of three. -/
def ofJson? : Json → Option Envelope
  | .array [schema, version, root] => ofParts? schema version root
  | .object fields => do
    if fields.all fun (name, _) => (Json.unescape? name).isSome then
      ofParts? (← onlyField? "schema" fields) (← onlyField? "version" fields)
        (← onlyField? "root" fields)
    else none
  | _ => none

end Envelope

/-- The outline that a document persists. -/
def Outline.decode (bytes : Bytes) : Except DecodeError Outline :=
  match Json.parse? bytes >>= Envelope.ofJson? with
  | none => .error .malformed
  | some envelope =>
    if envelope.schema ≠ schemaName then .error (.unknownSchema envelope.schema)
    else if envelope.version ≠ schemaVersion then .error (.unsupportedVersion envelope.version)
    else
      match Outline.ofJson? envelope.root with
      | some outline => .ok outline
      | none => .error .malformed

end JavaOutline

import JavaOutline.Outline.Basic

/-! # Questions about an outline

* `Outline.declarations` lists all declarations of a file, each before the ones nested in it.  It
  works on a stack of pending declarations; `TypeDecl.preorder` is the same order by plain
  recursion.
* `Outline.benchmarks` lists the methods marked as benchmarks, with the declaration they are in.
* `Method.calls` lists the calls in a method body.
-/

namespace JavaOutline

/-! ## Declarations -/

namespace TypeDecl

mutual

/-- A declaration followed by all declarations nested in it. -/
def preorder : TypeDecl → List TypeDecl
  | d@⟨_, _, _, _, _, nested⟩ => d :: preorderList nested

/-- The declarations of a list, each followed by all declarations nested in it. -/
def preorderList : List TypeDecl → List TypeDecl
  | [] => []
  | d :: ds => d.preorder ++ preorderList ds

end

mutual

/-- The number of declarations in a declaration, itself included. -/
def count : TypeDecl → Nat
  | ⟨_, _, _, _, _, nested⟩ => 1 + countList nested

/-- The number of declarations in a list of declarations. -/
def countList : List TypeDecl → Nat
  | [] => 0
  | d :: ds => d.count + countList ds

end

theorem countList_append (ds es : List TypeDecl) :
    countList (ds ++ es) = countList ds + countList es := by
  induction ds with
  | nil => simp [countList]
  | cons d ds ih => simp [countList, ih, Nat.add_assoc]

theorem count_eq (d : TypeDecl) : d.count = 1 + countList d.nested := by
  cases d
  simp [count]

/-- The declarations that are reached from a stack of pending ones: the top is taken off and its
    nested declarations are put in its place. -/
def walkStack : List TypeDecl → List TypeDecl
  | [] => []
  | d :: stack => d :: walkStack (d.nested ++ stack)
termination_by stack => countList stack
decreasing_by
  simp only [countList, countList_append, count_eq]
  omega

/-- A declaration followed by all declarations nested in it. -/
def walk (d : TypeDecl) : List TypeDecl :=
  walkStack [d]

end TypeDecl

/-- All declarations of a file, each followed by the ones nested in it. -/
def Outline.declarations (o : Outline) : List TypeDecl :=
  TypeDecl.walkStack o.namespaces

/-! ## Annotations -/

/-- The part of a dotted name behind its last dot. -/
def simpleName (name : String) : String :=
  String.ofList (name.toList.reverse.takeWhile (· != '.')).reverse

namespace Method

/-- The names of the annotations of a method, as written. -/
def annotationNames (m : Method) : List String :=
  m.modifiers.filterMap fun
    | .annotated name _ => some name
    | _ => none

/-- Whether a method has an annotation that is called `name` in full or behind its last dot. -/
def isAnnotatedWith (m : Method) (name : String) : Bool :=
  m.annotationNames.any fun a => a == name || simpleName a == name

/-- The annotation that marks a benchmark. -/
def benchmarkMark : String := "Benchmark"

/-- Whether a method is a benchmark. -/
def isBenchmark (m : Method) : Bool :=
  m.isAnnotatedWith benchmarkMark

/-- The types of the parameters, as written. -/
def parameterTypes (m : Method) : List String :=
  m.arguments.map (·.type.name)

end Method

/-- The benchmark methods of a file, each with the name of its declaration. -/
def Outline.benchmarks (o : Outline) : List (String × Method) :=
  o.declarations.flatMap fun d => (d.methods.filter (·.isBenchmark)).map fun m => (d.name, m)

/-! ## Calls -/

mutual

/-- The names of the calls in an expression, outermost first. -/
def Expression.calls : Expression → List String
  | ⟨kind, _, _, method, _, arguments, _, operands, _⟩ =>
    (if kind = .methodCall then [method] else []) ++
      (Expression.callsIn arguments ++ Expression.callsIn operands)

/-- The names of the calls in the expressions of a list. -/
def Expression.callsIn : List Expression → List String
  | [] => []
  | e :: es => e.calls ++ Expression.callsIn es

end

mutual

/-- The names of the calls in a statement: its own expressions come before its body. -/
def Statement.calls : Statement → List String
  | ⟨_, condition, statements, expressions, initializations, updates⟩ =>
    Expression.callsIn (condition.toList ++ initializations ++ expressions ++ updates) ++
      Statement.callsIn statements

/-- The names of the calls in the statements of a list. -/
def Statement.callsIn : List Statement → List String
  | [] => []
  | s :: ss => s.calls ++ Statement.callsIn ss

end

/-- The names of all calls in the body of a method. -/
def Method.calls (m : Method) : List String :=
  Expression.callsIn m.bodyContent ++ Statement.callsIn m.statements

end JavaOutline

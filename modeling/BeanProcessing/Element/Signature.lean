import BeanProcessing.Element.Basic

/-!
# Type signatures

The signature of a class element is its name, then its type arguments in order, then a pair of
brackets for each array dimension: `java.util.Map<K=java.lang.String,V=T>[]`. A placeholder shows
the name of its variable.
-/

namespace BeanProcessing

/-- A pair of brackets for each dimension. -/
def bracketPairs (dimensions : Nat) : String :=
  String.join (List.replicate dimensions "[]")

/-- Rendered bindings in angle brackets, or nothing when there are none. -/
def angled (bindings : List String) : String :=
  if bindings.isEmpty then "" else "<" ++ ",".intercalate bindings ++ ">"

mutual

/-- The signature of a class element. -/
def ClassElement.signature : ClassElement → String
  | .declared shape arguments =>
    shape.name ++ angled arguments.signatures ++ bracketPairs shape.dimensions
  | .placeholder shape arguments typeVariable _ =>
    typeVariable.name ++ angled arguments.signatures ++ bracketPairs shape.dimensions

/-- Each binding as a name and a signature. -/
def TypeArguments.signatures : TypeArguments → List String
  | .nil => []
  | .cons name element rest => (name ++ "=" ++ element.signature) :: rest.signatures

end

instance : ToString ClassElement := ⟨ClassElement.signature⟩

end BeanProcessing

import BeanProcessing.Element.Signature

/-!
# Cache keys

A resolver remembers its answers under the symbol that was resolved and a rendering of the
substitution it was resolved under. The rendering is like a signature, but a placeholder is rendered
by the path of its type parameter and by the substitution that it captured, so that variables of one
name from two classes, or from two uses of one class, have different keys.
-/

namespace BeanProcessing

mutual

/-- The rendering of a class element within a key. -/
def ClassElement.keyText : ClassElement → String
  | .declared shape arguments =>
    shape.name ++ angled arguments.keyTexts ++ bracketPairs shape.dimensions
  | .placeholder shape arguments _ captured =>
    "?" ++ shape.symbol.path ++ "\x7b" ++ ",".intercalate captured.keyTexts ++ "\x7d"
      ++ angled arguments.keyTexts ++ bracketPairs shape.dimensions

/-- Each binding as a name and a rendering. -/
def TypeArguments.keyTexts : TypeArguments → List String
  | .nil => []
  | .cons name element rest => (name ++ "=" ++ element.keyText) :: rest.keyTexts

end

/-- The rendering of a substitution. -/
def TypeArguments.keyText (bindings : TypeArguments) : String :=
  ",".intercalate bindings.keyTexts

/-- What an answer is remembered under. -/
structure CacheKey where
  symbol : Symbol
  bindings : String
deriving DecidableEq

/-- The key of a symbol resolved under a substitution. -/
def CacheKey.of (symbol : Symbol) (bindings : TypeArguments) : CacheKey :=
  ⟨symbol, bindings.keyText⟩

end BeanProcessing

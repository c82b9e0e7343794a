import BeanProcessing.Symbol

/-!
# Type uses

A type use is a type as a declaration mentions it: a declared class with arguments, a type variable,
an array, or a type that the host could not resolve. What it stands for depends on the declarations
around it and is found by the resolver.
-/

namespace BeanProcessing

/-- A type as a declaration mentions it. -/
inductive TypeUse where
  /-- A declared class applied to type arguments, which may be too few or too many. -/
  | declared (symbol : Symbol) (arguments : List TypeUse)
  /-- A use of a type parameter. -/
  | typeVariable (symbol : Symbol)
  /-- An array of the element type, with a number of dimensions. -/
  | array (element : TypeUse) (dimensions : Nat)
  /-- A type that could not be resolved. -/
  | unresolved
deriving Inhabited

namespace TypeUse

/-- The symbol that the type is built on, found beneath any arrays. -/
def symbol? : TypeUse → Option Symbol
  | declared symbol _ => some symbol
  | typeVariable symbol => some symbol
  | array element _ => element.symbol?
  | unresolved => none

/-- Whether the type is the unresolved one, which also stands for a type left out. -/
def isUnresolved : TypeUse → Bool
  | unresolved => true
  | _ => false

end TypeUse

end BeanProcessing

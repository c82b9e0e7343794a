import BeanProcessing.Resolver.Basic

/-!
# Resolving type uses

A type use is resolved under a substitution, a map from names of type parameters to class elements.

* A declared class has each of its type parameters bound to the argument in the same position,
  resolved under the substitution; a parameter without an argument is bound to its own placeholder,
  and arguments beyond the last parameter are not looked at.
* A type variable is its binding under the substitution, or else its placeholder.
* An array is its element with more dimensions.
* An unresolved type is the top type.
-/

namespace BeanProcessing.Resolver

/-! ## Classes without arguments -/

/-- Binds type parameters to their own placeholders. -/
def bindToPlaceholders (r : Resolver) (generics bindings : TypeArguments) :
    List Symbol → ResolveM TypeArguments
  | [] => pure bindings
  | parameter :: rest => do
    let d ← r.typeParameter parameter
    let element ← r.placeholder parameter d generics
    r.bindToPlaceholders generics (bindings.insert d.name element) rest

/-- The element of a declared class with its own type parameters left open. -/
def elementOf (r : Resolver) (s : Symbol) : ResolveM ClassElement := do
  let d ← r.classDeclaration s
  let bindings ← r.bindToPlaceholders ∅ ∅ d.typeParameters
  r.classElement s d bindings

/-- The element of the first class with a qualified name. -/
def elementNamed? (r : Resolver) (qualifiedName : String) : ResolveM (Option ClassElement) :=
  match r.graph.findClass? qualifiedName with
  | some s => some <$> r.elementOf s
  | none => pure none

/-- A class element that knows its name only. -/
def bareElement (name : String) : ClassElement :=
  .declared { symbol := .ofClass name, name } ∅

/-- The element of the top type: that of its class if there is one and it can be resolved, and one
that knows its name only otherwise. -/
def topType (r : Resolver) : StateM Memory ClassElement := do
  match r.graph.findClass? r.settings.topType with
  | none => return bareElement r.settings.topType
  | some s =>
    match ← (r.elementOf s).run with
    | .ok element => return element
    | .error _ => return bareElement r.settings.topType

/-- The placeholder of a type parameter under a substitution. -/
def placeholderOf (r : Resolver) (s : Symbol) (generics : TypeArguments) :
    ResolveM ClassElement := do
  let d ← r.typeParameter s
  r.placeholder s d generics

/-! ## Type uses -/

mutual

/-- The class element that a type use stands for under a substitution. -/
def resolve (r : Resolver) (generics : TypeArguments) : TypeUse → ResolveM ClassElement
  | .declared s arguments => do
    let d ← r.classDeclaration s
    let bindings ← r.bindArguments generics ∅ d.typeParameters arguments
    r.classElement s d bindings
  | .typeVariable s => do
    let d ← r.typeParameter s
    r.bound s d generics
  | .array element dimensions => do
    let element ← r.resolve generics element
    return element.withDimensions (element.dimensions + dimensions)
  | .unresolved => r.topType

/-- Binds type parameters to the arguments in the same positions. -/
def bindArguments (r : Resolver) (generics bindings : TypeArguments) (parameters : List Symbol) :
    List TypeUse → ResolveM TypeArguments
  | [] => r.bindToPlaceholders generics bindings parameters
  | argument :: rest =>
    match parameters with
    | [] => pure bindings
    | parameter :: parameters => do
      let d ← r.typeParameter parameter
      let element ← r.resolve generics argument
      r.bindArguments generics (bindings.insert d.name element) parameters rest

end

/-! ## Declaring classes -/

/-- Binds type parameters to what they stand for under a substitution. -/
def bindToBounds (r : Resolver) (generics bindings : TypeArguments) :
    List Symbol → ResolveM TypeArguments
  | [] => pure bindings
  | parameter :: rest => do
    let d ← r.typeParameter parameter
    let element ← r.bound parameter d generics
    r.bindToBounds generics (bindings.insert d.name element) rest

/-- The nearest class around a symbol, with its type parameters bound by a substitution as far as it
binds them. -/
def declaringClass? (r : Resolver) (s : Symbol) (generics : TypeArguments) :
    ResolveM (Option ClassElement) :=
  match r.graph.encounter s with
  | .outside => pure none
  | .repetition repeated => throw (.cyclicContext repeated s)
  | .nearestClass outer => do
    let d ← r.classDeclaration outer
    let bindings ← r.bindToBounds generics ∅ d.typeParameters
    return some (← r.classElement outer d bindings)

/-! ## What an element leads to -/

/-- The nearest class around a class. -/
def enclosingClass? (r : Resolver) (e : ClassElement) : ResolveM (Option ClassElement) :=
  r.declaringClass? e.symbol ∅

/-- The bounds of a type variable under the substitution that its placeholder captured. -/
def boundsOf (r : Resolver) (typeVariable : TypeVariable) (captured : TypeArguments) :
    ResolveM (List ClassElement) :=
  typeVariable.bounds.mapM (r.resolve captured)

end BeanProcessing.Resolver

import BeanProcessing.Element.Member
import BeanProcessing.Resolver.TypeUse

/-!
# Resolving members

A member of a class is resolved with the class it is looked at from: every type of it is resolved
once as it was declared, under no substitution, and once under the type arguments of that class.
-/

namespace BeanProcessing.Resolver

/-- A value parameter under a substitution; it has to have a name. -/
def parameterElement (r : Resolver) (generics : TypeArguments) (s : Symbol) :
    ResolveM ParameterElement := do
  let d ← r.valueParameter s
  match d.name.filter (!·.isEmpty) with
  | none => throw (.missingIdentifier s)
  | some name =>
    let type ← r.resolve ∅ d.type
    let genericType ← r.resolve generics d.type
    return { symbol := s, name, type, genericType, annotations := r.graph.annotations s }

/-- A declared function as a method of a class. -/
def buildMethod (r : Resolver) (declaringType : ClassElement) (s : Symbol)
    (d : FunctionDeclaration) : ResolveM MethodElement := do
  let returnType ← r.resolve ∅ d.returnType
  let genericReturnType ← r.resolve declaringType.arguments d.returnType
  let parameters ← d.parameters.mapM (r.parameterElement declaringType.arguments)
  return {
    symbol := s
    name := d.name
    declaringType, returnType, genericReturnType, parameters
    modifiers := d.modifiers
    annotations := r.graph.annotations s
  }

/-- A declared function as a constructor of a class. -/
def buildConstructor (r : Resolver) (declaringType : ClassElement) (s : Symbol)
    (d : FunctionDeclaration) : ResolveM ConstructorElement := do
  let parameters ← d.parameters.mapM (r.parameterElement declaringType.arguments)
  return {
    symbol := s
    declaringType, parameters
    modifiers := d.modifiers
    annotations := r.graph.annotations s
  }

/-- The function that a symbol names, as a method of a class. -/
def methodElement (r : Resolver) (declaringType : ClassElement) (s : Symbol) :
    ResolveM MethodElement := do
  r.buildMethod declaringType s (← r.functionDeclaration s)

/-- The function that a symbol names, as a constructor of a class. -/
def constructorElement (r : Resolver) (declaringType : ClassElement) (s : Symbol) :
    ResolveM ConstructorElement := do
  r.buildConstructor declaringType s (← r.functionDeclaration s)

/-- Those of some members that `build` wants, built in order; all of them have to be functions. -/
def membersWhere {α : Type} (r : Resolver) (wanted : FunctionDeclaration → Bool)
    (build : Symbol → FunctionDeclaration → ResolveM α) : List Symbol → ResolveM (List α)
  | [] => pure []
  | s :: rest => do
    let d ← r.functionDeclaration s
    if wanted d then
      let member ← build s d
      return member :: (← r.membersWhere wanted build rest)
    else
      r.membersWhere wanted build rest

/-- The constructors of a class, in order of declaration. -/
def constructors (r : Resolver) (e : ClassElement) : ResolveM (List ConstructorElement) := do
  let d ← r.classDeclaration e.symbol
  r.membersWhere (·.isConstructor) (r.buildConstructor e) d.members

/-- The methods of a class, in order of declaration. -/
def methods (r : Resolver) (e : ClassElement) : ResolveM (List MethodElement) := do
  let d ← r.classDeclaration e.symbol
  r.membersWhere (!·.isConstructor) (r.buildMethod e) d.members

/-- The class that an element is declared in: the nearest one around it, for a placeholder under the
substitution that it captured, and for a method or constructor the one it was looked at from. -/
def declaringElement? (r : Resolver) : Element → ResolveM (Option ClassElement)
  | .ofClass e => r.enclosingClass? e
  | .ofMethod m => pure (some m.declaringType)
  | .ofConstructor c => pure (some c.declaringType)
  | .ofParameter p => r.declaringClass? p.symbol ∅
  | .ofPlaceholder p => r.declaringClass? p.symbol p.captured

end BeanProcessing.Resolver

import BeanProcessing.BeanDefinition
import BeanProcessing.Visitor

/-!
# The definition visitor

The definition visitor makes one bean definition of each bean.

* Every interface that is visited is implemented at run time, so it has no constructor.
* Any other class is a bean if it carries one of the bean stereotypes.
* An abstract bean cannot be made, which is worth a warning.
* A bean is made by the first constructor that declares the inject annotation, or else by its only
  constructor, or else by the first one that is not private. Without any of these it is an error.
-/

namespace BeanProcessing

/-- Whether a class carries a bean stereotype. -/
def Settings.isBean (settings : Settings) (e : ClassElement) : Bool :=
  settings.beanStereotypes.any e.annotations.hasStereotype

/-- The constructor that makes a bean. -/
def Settings.chooseCreator? (settings : Settings) (constructors : List ConstructorElement) :
    Option ConstructorElement :=
  match constructors.find? (·.annotations.hasDeclared settings.injectMarker) with
  | some c => some c
  | none =>
    match constructors with
    | [c] => some c
    | _ => constructors.find? (!·.isPrivate)

/-- Whether the declaration of a class is abstract. -/
def Resolver.isAbstract (r : Resolver) (s : Symbol) : Bool :=
  (r.graph.classDeclaration? s).any (·.modifiers.contains .abstract)

namespace BeanDefinition

variable {σ : Type}

/-- The methods of a class that are processed at run time. -/
def executableMethodsOf (r : Resolver) (e : ClassElement) : VisitM σ (List MethodElement) := do
  let methods ← VisitM.resolving (r.methods e)
  return methods.filter (·.annotations.hasStereotype r.settings.executableStereotype)

/-- Adds the executable methods to the definition of a class, which is then complete. -/
def complete (r : Resolver) (d : BeanDefinition) : VisitM σ (List BeanDefinition) := do
  let executableMethods ← executableMethodsOf r d.beanType
  VisitM.tell ⟨.debug, "bean definition for " ++ d.beanType.name ++ " ("
    ++ toString d.injectionPoints.length ++ " injection points)"⟩
  return [{ d with executableMethods }]

/-- The visitor that makes bean definitions. -/
def visitor : Visitor σ BeanDefinition := fun r e =>
  let d := ofClass e
  if e.kind == .interface then
    complete r { d with isIntroduction := true }
  else if !r.settings.isBean e then do
    VisitM.tell ⟨.debug, e.name ++ " carries no bean stereotype"⟩
    return []
  else if r.isAbstract e.symbol then do
    VisitM.report ⟨.warning, "abstract class cannot be instantiated", e.symbol⟩
    return []
  else do
    let constructors ← VisitM.resolving (r.constructors e)
    match r.settings.chooseCreator? constructors with
    | some c => complete r { d with creator := some c }
    | none => do
      VisitM.report ⟨.error, "no accessible constructor", e.symbol⟩
      return []

end BeanDefinition

end BeanProcessing

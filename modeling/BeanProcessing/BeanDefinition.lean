import BeanProcessing.Artifact
import BeanProcessing.Element.Member
import BeanProcessing.Failure

/-!
# Bean definitions

A bean definition says how a bean is made and which of its methods are processed at run time. It can
be changed until it is frozen.
-/

namespace BeanProcessing

/-- How a bean is made. -/
structure BeanDefinition where
  beanType : ClassElement
  /-- The constructor that makes the bean. -/
  creator : Option ConstructorElement := none
  /-- The methods that are processed at run time. -/
  executableMethods : List MethodElement := []
  /-- Whether the bean is implemented at run time instead of constructed. -/
  isIntroduction : Bool := false
  isFrozen : Bool := false

namespace BeanDefinition

/-- The definition that says nothing yet about a class. -/
def ofClass (e : ClassElement) : BeanDefinition := { beanType := e }

/-- The names of the parameters of the constructor. -/
def injectionPoints (d : BeanDefinition) : List String :=
  match d.creator with
  | some c => c.parameters.map (·.name)
  | none => []

/-! ## Changes -/

/-- Changes a definition unless it is frozen. -/
def change (f : BeanDefinition → BeanDefinition) (d : BeanDefinition) :
    Except Failure BeanDefinition :=
  if d.isFrozen then .error (.frozen d.beanType.name) else .ok (f d)

/-- Chooses the constructor. -/
def setCreator (c : ConstructorElement) : BeanDefinition → Except Failure BeanDefinition :=
  change fun d => { d with creator := some c }

/-- Adds a method that is processed at run time. -/
def addExecutable (m : MethodElement) : BeanDefinition → Except Failure BeanDefinition :=
  change fun d => { d with executableMethods := d.executableMethods ++ [m] }

/-- Says whether the bean is implemented at run time. -/
def setIntroduction (on : Bool) : BeanDefinition → Except Failure BeanDefinition :=
  change fun d => { d with isIntroduction := on }

instance : Artifact BeanDefinition where
  beanType d := d.beanType.name
  requiresMethodProcessing d := !d.executableMethods.isEmpty
  annotations d := d.beanType.annotations
  freeze d := { d with isFrozen := true }

end BeanDefinition

end BeanProcessing

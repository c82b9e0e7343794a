import BeanProcessing.Element.Equality

/-!
# Members

The members of a class with their types looked up. Every type of a member comes twice: as it was
declared, and with the type arguments of the declaring class put in.

Like class elements, members are compared without their annotations; modifiers do not matter either.
-/

namespace BeanProcessing

/-- A parameter of a method or constructor. -/
structure ParameterElement where
  symbol : Symbol
  name : String
  /-- The type as declared. -/
  type : ClassElement
  /-- The type under the arguments of the declaring class. -/
  genericType : ClassElement
  annotations : AnnotationSet

/-- Whether two parameters have the same symbol, name and types. -/
def ParameterElement.same (p q : ParameterElement) : Bool :=
  p.symbol == q.symbol && p.name == q.name && p.type == q.type && p.genericType == q.genericType

instance : BEq ParameterElement := ⟨ParameterElement.same⟩

/-- A method. -/
structure MethodElement where
  symbol : Symbol
  name : String
  declaringType : ClassElement
  /-- The return type as declared. -/
  returnType : ClassElement
  /-- The return type under the arguments of the declaring class. -/
  genericReturnType : ClassElement
  parameters : List ParameterElement
  modifiers : List Modifier
  annotations : AnnotationSet

/-- Whether two methods have the same symbol, name, types and parameters. -/
def MethodElement.same (m n : MethodElement) : Bool :=
  m.symbol == n.symbol && m.name == n.name && m.declaringType == n.declaringType
    && m.returnType == n.returnType && m.genericReturnType == n.genericReturnType
    && m.parameters == n.parameters

instance : BEq MethodElement := ⟨MethodElement.same⟩

/-- A constructor, which returns its declaring type. -/
structure ConstructorElement where
  symbol : Symbol
  declaringType : ClassElement
  parameters : List ParameterElement
  modifiers : List Modifier
  annotations : AnnotationSet

namespace ConstructorElement

/-- The constructor as a method. -/
def asMethod (c : ConstructorElement) : MethodElement where
  symbol := c.symbol
  name := constructorName
  declaringType := c.declaringType
  returnType := c.declaringType
  genericReturnType := c.declaringType
  parameters := c.parameters
  modifiers := c.modifiers
  annotations := c.annotations

/-- The type that the constructor makes. -/
def returnType (c : ConstructorElement) : ClassElement := c.declaringType

/-- Whether the constructor is private. -/
def isPrivate (c : ConstructorElement) : Bool := c.modifiers.contains .privateAccess

instance : BEq ConstructorElement := ⟨fun c d => c.asMethod == d.asMethod⟩

end ConstructorElement

/-- Whether the method is private. -/
def MethodElement.isPrivate (m : MethodElement) : Bool := m.modifiers.contains .privateAccess

/-! ## Elements of any sort -/

/-- A class element, a placeholder or a member. -/
inductive Element where
  | ofClass (e : ClassElement)
  | ofMethod (m : MethodElement)
  | ofConstructor (c : ConstructorElement)
  | ofParameter (p : ParameterElement)
  | ofPlaceholder (p : PlaceholderElement)

/-- The class element as an element of any sort: placeholders have a sort of their own. -/
def ClassElement.toElement (e : ClassElement) : Element :=
  match e.asPlaceholder? with
  | some p => .ofPlaceholder p
  | none => .ofClass e

namespace Element

/-- The symbol of the declaration. -/
def symbol : Element → Symbol
  | ofClass e => e.symbol
  | ofMethod m => m.symbol
  | ofConstructor c => c.symbol
  | ofParameter p => p.symbol
  | ofPlaceholder p => p.symbol

/-- The name. -/
def name : Element → String
  | ofClass e => e.name
  | ofMethod m => m.name
  | ofConstructor _ => constructorName
  | ofParameter p => p.name
  | ofPlaceholder p => p.name

/-- The annotations. -/
def annotations : Element → AnnotationSet
  | ofClass e => e.annotations
  | ofMethod m => m.annotations
  | ofConstructor c => c.annotations
  | ofParameter p => p.annotations
  | ofPlaceholder p => p.annotations

/-- Whether two elements are of one sort and the same. -/
def same : Element → Element → Bool
  | ofClass e, ofClass f => e == f
  | ofMethod m, ofMethod n => m == n
  | ofConstructor c, ofConstructor d => c == d
  | ofParameter p, ofParameter q => p == q
  | ofPlaceholder p, ofPlaceholder q => p == q
  | _, _ => false

instance : BEq Element := ⟨same⟩

end Element

end BeanProcessing

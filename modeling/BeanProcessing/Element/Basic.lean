import BeanProcessing.AnnotationSet
import BeanProcessing.Declaration
import BeanProcessing.Text.Dotted

/-!
# Class elements

A class element is a type use with everything looked up: a declared class with its type arguments,
or a placeholder for a type variable that nothing was bound to. A placeholder keeps the bounds of
its variable, unresolved, and the substitution that was in force where it was met, so that the
bounds can be resolved later under that same substitution.

Type arguments are a map from names to class elements that remembers the order of insertion.
Elements and arguments are defined by mutual recursion, and so are the functions on them.

A placeholder element is a placeholder by itself. It is a view of a class element, and has what that
has.
-/

namespace BeanProcessing

/-- What every class element has apart from its type arguments. -/
structure ClassShape where
  symbol : Symbol
  /-- The qualified name; for a placeholder, that of its first bound. -/
  name : String
  kind : ClassKind := .plain
  /-- Whether the class is declared in another. -/
  isInner : Bool := false
  /-- Whether the class can be constructed without an instance of the class around it. -/
  isStatic : Bool := false
  /-- The number of array dimensions. -/
  dimensions : Nat := 0
  annotations : AnnotationSet := ∅
deriving DecidableEq

/-- A type variable: its name, and its bounds as they were declared. -/
structure TypeVariable where
  name : String
  bounds : List TypeUse

mutual

/-- A type with everything looked up. -/
inductive ClassElement where
  /-- A declared class. -/
  | declared (shape : ClassShape) (arguments : TypeArguments)
  /-- A type variable that nothing was bound to, under the substitution where it was met. -/
  | placeholder (shape : ClassShape) (arguments : TypeArguments) (typeVariable : TypeVariable)
    (captured : TypeArguments)

/-- Class elements by name, in the order of insertion. -/
inductive TypeArguments where
  | nil
  | cons (name : String) (element : ClassElement) (rest : TypeArguments)

end

/-! ## Type arguments -/

namespace TypeArguments

instance : EmptyCollection TypeArguments := ⟨nil⟩

instance : Inhabited TypeArguments := ⟨nil⟩

/-- Induction over the bindings themselves, apart from the elements in them. -/
@[elab_as_elim, induction_eliminator]
theorem inductionOn {motive : TypeArguments → Prop} (nil : motive .nil)
    (cons : ∀ name element rest, motive rest → motive (.cons name element rest)) :
    ∀ bindings, motive bindings
  | .nil => nil
  | .cons name element rest => cons name element rest (inductionOn nil cons rest)

/-- The names with their elements, in order. -/
def toList : TypeArguments → List (String × ClassElement)
  | nil => []
  | cons name element rest => (name, element) :: rest.toList

/-- The names, in order. -/
def names : TypeArguments → List String
  | nil => []
  | cons name _ rest => name :: rest.names

/-- The number of names. -/
def size : TypeArguments → Nat
  | nil => 0
  | cons _ _ rest => rest.size + 1

/-- Whether there are no names. -/
def isEmpty : TypeArguments → Bool
  | nil => true
  | cons _ _ _ => false

/-- The element under a name. -/
def get? (name : String) : TypeArguments → Option ClassElement
  | nil => none
  | cons name' element rest => if name' = name then some element else rest.get? name

/-- Puts an element under a name, in the place of the one that was there or else at the end. -/
def insert (name : String) (element : ClassElement) : TypeArguments → TypeArguments
  | nil => cons name element nil
  | cons name' element' rest =>
    if name' = name then cons name' element rest
    else cons name' element' (rest.insert name element)

@[simp] theorem get?_insert (bindings : TypeArguments) (name name' : String)
    (element : ClassElement) :
    (bindings.insert name element).get? name'
      = if name = name' then some element else bindings.get? name' := by
  induction bindings with
  | nil => rfl
  | cons name'' element' rest ih =>
    by_cases hname : name'' = name
    · subst hname
      by_cases h : name'' = name' <;> simp [insert, get?, h]
    · by_cases h : name'' = name'
      · subst h
        have hne : ¬ name = name'' := fun h => hname h.symm
        simp [insert, get?, hname, hne]
      · simp [insert, get?, hname, h, ih]

/-- Inserts elements one after the other, so that a later one under the same name wins. -/
def ofList (entries : List (String × ClassElement)) : TypeArguments :=
  entries.foldl (fun arguments entry => arguments.insert entry.1 entry.2) nil

end TypeArguments

/-! ## Class elements -/

namespace ClassElement

instance : Inhabited ClassElement := ⟨declared { symbol := .ofClass "", name := "" } ∅⟩

/-- What the element has apart from its type arguments. -/
def shape : ClassElement → ClassShape
  | declared shape _ => shape
  | placeholder shape _ _ _ => shape

/-- The type arguments. -/
def arguments : ClassElement → TypeArguments
  | declared _ arguments => arguments
  | placeholder _ arguments _ _ => arguments

/-- The type variable that a placeholder stands for. -/
def typeVariable? : ClassElement → Option TypeVariable
  | declared _ _ => none
  | placeholder _ _ typeVariable _ => some typeVariable

/-- The substitution that a placeholder was met under; a declared class has none. -/
def captured : ClassElement → TypeArguments
  | declared _ _ => ∅
  | placeholder _ _ _ captured => captured

/-- Whether the element is a placeholder. -/
def isPlaceholder (e : ClassElement) : Bool := e.typeVariable?.isSome

/-- The symbol of the class or type parameter. -/
def symbol (e : ClassElement) : Symbol := e.shape.symbol

/-- The qualified name. -/
def name (e : ClassElement) : String := e.shape.name

/-- The part of the name after its last dot. -/
def simpleName (e : ClassElement) : String := Dotted.lastSegment e.name

/-- The kind of class. -/
def kind (e : ClassElement) : ClassKind := e.shape.kind

/-- The number of array dimensions. -/
def dimensions (e : ClassElement) : Nat := e.shape.dimensions

/-- Whether the element is an array. -/
def isArray (e : ClassElement) : Bool := 0 < e.dimensions

/-- The annotations. -/
def annotations (e : ClassElement) : AnnotationSet := e.shape.annotations

/-! ### Rebuilt elements -/

/-- The element with another shape. -/
def withShape (shape : ClassShape) : ClassElement → ClassElement
  | declared _ arguments => declared shape arguments
  | placeholder _ arguments typeVariable captured =>
    placeholder shape arguments typeVariable captured

/-- The element with another number of array dimensions. -/
def withDimensions (e : ClassElement) (dimensions : Nat) : ClassElement :=
  e.withShape { e.shape with dimensions }

@[simp] theorem dimensions_withDimensions (e : ClassElement) (n : Nat) :
    (e.withDimensions n).dimensions = n := by
  cases e <;> rfl

@[simp] theorem withDimensions_withDimensions (e : ClassElement) (m n : Nat) :
    (e.withDimensions m).withDimensions n = e.withDimensions n := by
  cases e <;> rfl

/-- The element with other annotations. -/
def withAnnotations (e : ClassElement) (annotations : AnnotationSet) : ClassElement :=
  e.withShape { e.shape with annotations }

/-- The element with other type arguments. -/
def withArguments (arguments : TypeArguments) : ClassElement → ClassElement
  | declared shape _ => declared shape arguments
  | placeholder shape _ typeVariable captured => placeholder shape arguments typeVariable captured

end ClassElement

/-! ## Placeholders by themselves -/

/-- A class element that stands for a type variable. -/
structure PlaceholderElement where
  shape : ClassShape
  arguments : TypeArguments
  typeVariable : TypeVariable
  /-- The substitution that the type variable was met under. -/
  captured : TypeArguments

namespace PlaceholderElement

/-- The placeholder as a class element. -/
def asClass (p : PlaceholderElement) : ClassElement :=
  .placeholder p.shape p.arguments p.typeVariable p.captured

/-- The symbol of the type parameter. -/
def symbol (p : PlaceholderElement) : Symbol := p.shape.symbol

/-- The qualified name of the first bound. -/
def name (p : PlaceholderElement) : String := p.shape.name

/-- The annotations. -/
def annotations (p : PlaceholderElement) : AnnotationSet := p.shape.annotations

/-- The placeholder with another number of array dimensions. -/
def withDimensions (p : PlaceholderElement) (dimensions : Nat) : PlaceholderElement :=
  { p with shape := { p.shape with dimensions } }

/-- The placeholder with other annotations. -/
def withAnnotations (p : PlaceholderElement) (annotations : AnnotationSet) : PlaceholderElement :=
  { p with shape := { p.shape with annotations } }

@[simp] theorem asClass_withDimensions (p : PlaceholderElement) (n : Nat) :
    (p.withDimensions n).asClass = p.asClass.withDimensions n := rfl

end PlaceholderElement

/-- The class element as a placeholder, if it is one. -/
def ClassElement.asPlaceholder? : ClassElement → Option PlaceholderElement
  | declared _ _ => none
  | placeholder shape arguments typeVariable captured =>
    some { shape, arguments, typeVariable, captured }

end BeanProcessing

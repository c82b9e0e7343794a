import BeanProcessing.NameSet

/-!
# Annotation sets

The annotations of one declaration: those declared on it, and the stereotypes it has through them. A
declared annotation counts as a stereotype too.
-/

namespace BeanProcessing

/-- The annotations that a declaration carries. -/
structure AnnotationSet where
  declared : NameSet := ∅
  stereotypes : NameSet := ∅
deriving DecidableEq, Inhabited

namespace AnnotationSet

/-- The set without annotations. -/
def empty : AnnotationSet := {}

instance : EmptyCollection AnnotationSet := ⟨empty⟩

/-- Adds a declared annotation. -/
def declare (s : AnnotationSet) (name : String) : AnnotationSet :=
  { s with declared := s.declared.insert name }

/-- Adds a stereotype. -/
def addStereotype (s : AnnotationSet) (name : String) : AnnotationSet :=
  { s with stereotypes := s.stereotypes.insert name }

/-- Whether the annotation is declared. -/
def hasDeclared (s : AnnotationSet) (name : String) : Bool :=
  name ∈ s.declared

/-- Whether the annotation is a stereotype, declared annotations included. -/
def hasStereotype (s : AnnotationSet) (name : String) : Bool :=
  name ∈ s.stereotypes || name ∈ s.declared

/-- Whether no annotation is declared. -/
def isEmpty (s : AnnotationSet) : Bool := s.declared.isEmpty

end AnnotationSet

end BeanProcessing

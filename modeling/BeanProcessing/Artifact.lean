import BeanProcessing.AnnotationSet

/-!
# Artifacts

An artifact is what a visitor makes of a class. What it holds is the visitor's business; all that is
asked of it is what it takes to write it, and to freeze it before it is written.
-/

namespace BeanProcessing

/-- A type whose values can be written as artifacts. -/
class Artifact (α : Type) where
  /-- The qualified name of the class that the artifact is for. -/
  beanType : α → String
  /-- Whether methods of the class have to be processed at run time. -/
  requiresMethodProcessing : α → Bool
  /-- The annotations of the class. -/
  annotations : α → AnnotationSet
  /-- The artifact as it is written, after which it does not change. -/
  freeze : α → α

/-- Artifacts of two types, written side by side. -/
instance {α β : Type} [Artifact α] [Artifact β] : Artifact (α ⊕ β) where
  beanType := Sum.elim Artifact.beanType Artifact.beanType
  requiresMethodProcessing :=
    Sum.elim Artifact.requiresMethodProcessing Artifact.requiresMethodProcessing
  annotations := Sum.elim Artifact.annotations Artifact.annotations
  freeze := Sum.map Artifact.freeze Artifact.freeze

end BeanProcessing

import BeanProcessing.Element.Basic
import BeanProcessing.Settings

/-!
# Exclusions

Why a declaration is passed over although nothing is wrong with it. What a class element alone
decides is decided here; the other reasons concern the declaration and belong to the survey.
-/

namespace BeanProcessing

/-- A reason to pass over a declaration. -/
inductive Exclusion where
  /-- It is marked as generated code. -/
  | generated
  /-- It is no class. -/
  | notAClass
  /-- It is a nested class that cannot be constructed on its own. -/
  | nonStaticInner
  /-- It is an annotation type. -/
  | annotationType
  /-- It is an interface that nobody implements at run time. -/
  | plainInterface
deriving DecidableEq, Repr

namespace Exclusion

/-- The name of the reason. -/
def name : Exclusion → String
  | generated => "generated"
  | notAClass => "not_a_class"
  | nonStaticInner => "non_static_inner"
  | annotationType => "annotation"
  | plainInterface => "plain_interface"

/-- The reason in words. -/
def words : Exclusion → String
  | generated => "generated code"
  | notAClass => "not a class"
  | nonStaticInner => "non-static inner class"
  | annotationType => "annotation type"
  | plainInterface => "interface without introduction advice"

instance : ToString Exclusion := ⟨words⟩

end Exclusion

/-- Whether an interface carries a stereotype for which it is implemented at run time. -/
def Settings.implementsInterface (settings : Settings) (e : ClassElement) : Bool :=
  e.annotations.hasStereotype settings.introductionStereotype
    || e.annotations.hasStereotype settings.configurationReaderStereotype

/-- The reason to pass over a class, if there is one. -/
def Settings.exclusion? (settings : Settings) (e : ClassElement) : Option Exclusion :=
  if e.shape.isInner && !e.shape.isStatic then
    some .nonStaticInner
  else
    match e.kind with
    | .annotationType => some .annotationType
    | .interface => if settings.implementsInterface e then none else some .plainInterface
    | .plain => none
    | .enumeration => none

end BeanProcessing

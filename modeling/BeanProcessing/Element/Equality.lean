import BeanProcessing.Element.Basic

/-!
# Equality of class elements

Two class elements are the same type when their symbols, names, kinds, flags, dimensions and type
arguments agree and both or neither are placeholders, of variables with one name. Annotations do not
matter, nor do the bounds and the captured substitution of a placeholder, and type arguments are
compared as maps, without regard to order.

This is coarser than `=`, and it is what `==` means for elements.
-/

namespace BeanProcessing

/-- Whether two shapes agree in everything but annotations. -/
def ClassShape.sameType (s t : ClassShape) : Bool :=
  { s with annotations := ∅ } = { t with annotations := ∅ }

mutual

/-- Whether two class elements are the same type. -/
def ClassElement.sameType : ClassElement → ClassElement → Bool
  | .declared s as, .declared t bs =>
    s.sameType t && as.size == bs.size && as.boundAlikeIn bs
  | .placeholder s as v _, .placeholder t bs w _ =>
    s.sameType t && as.size == bs.size && as.boundAlikeIn bs && v.name == w.name
  | .declared _ _, .placeholder _ _ _ _ => false
  | .placeholder _ _ _ _, .declared _ _ => false

/-- Whether every name of the first is bound in the second, to the same type. -/
def TypeArguments.boundAlikeIn : TypeArguments → TypeArguments → Bool
  | .nil, _ => true
  | .cons name element rest, bs =>
    (match bs.get? name with
      | some other => element.sameType other
      | none => false)
      && rest.boundAlikeIn bs

end

instance : BEq ClassElement := ⟨ClassElement.sameType⟩

instance : BEq PlaceholderElement := ⟨fun p q => p.asClass == q.asClass⟩

end BeanProcessing

import BeanProcessing.Proofs.Resolver.Conversation

/-!
# Skeletons of elements

Equality of elements leaves out annotations and what placeholders captured. The skeleton of an
element is the rest: elements are of one type when their skeletons are.

What a resolver makes of the classes and type parameters of a graph is `Sound`, and so are copies
with other annotations, dimensions and arguments. Where names can be read back from keys, the key
text of such an element tells its skeleton.
-/

namespace BeanProcessing

/-! ## What equality looks at -/

mutual

/-- The element without annotations, and without what placeholders captured. -/
def ClassElement.skeleton : ClassElement → ClassElement
  | .declared shape arguments => .declared { shape with annotations := ∅ } arguments.skeleton
  | .placeholder shape arguments v _ =>
    .placeholder { shape with annotations := ∅ } arguments.skeleton v ∅

/-- The substitution of the skeletons. -/
def TypeArguments.skeleton : TypeArguments → TypeArguments
  | .nil => .nil
  | .cons name element rest => .cons name element.skeleton rest.skeleton

end

namespace TypeArguments

theorem size_skeleton (bindings : TypeArguments) : bindings.skeleton.size = bindings.size := by
  induction bindings with
  | nil => rfl
  | cons name e rest ih => rw [skeleton, size, size, ih]

theorem get?_skeleton (bindings : TypeArguments) (name : String) :
    bindings.skeleton.get? name = (bindings.get? name).map ClassElement.skeleton := by
  induction bindings with
  | nil => rfl
  | cons name' e rest ih =>
    rw [skeleton, get?, get?, ih]
    split <;> rfl

end TypeArguments

mutual

/-- Two elements are of one type when their skeletons are. -/
theorem ClassElement.sameType_skeleton : ∀ e f : ClassElement,
    e.skeleton.sameType f.skeleton = e.sameType f
  | .declared s as, .declared t bs => by
    rw [ClassElement.skeleton, ClassElement.skeleton, ClassElement.sameType,
      ClassElement.sameType, TypeArguments.size_skeleton, TypeArguments.size_skeleton,
      TypeArguments.boundAlikeIn_skeleton as bs]
    rfl
  | .placeholder s as v cs, .placeholder t bs w ds => by
    rw [ClassElement.skeleton, ClassElement.skeleton, ClassElement.sameType,
      ClassElement.sameType, TypeArguments.size_skeleton, TypeArguments.size_skeleton,
      TypeArguments.boundAlikeIn_skeleton as bs]
    rfl
  | .declared _ _, .placeholder _ _ _ _ => rfl
  | .placeholder _ _ _ _, .declared _ _ => rfl

theorem TypeArguments.boundAlikeIn_skeleton : ∀ as bs : TypeArguments,
    as.skeleton.boundAlikeIn bs.skeleton = as.boundAlikeIn bs
  | .nil, _ => rfl
  | .cons name e rest, bs => by
    rw [TypeArguments.skeleton, TypeArguments.boundAlikeIn, TypeArguments.boundAlikeIn,
      TypeArguments.get?_skeleton, TypeArguments.boundAlikeIn_skeleton rest bs]
    cases bs.get? name with
    | none => rfl
    | some f =>
      rw [Option.map_some]
      dsimp only
      rw [ClassElement.sameType_skeleton e f]

end

/-! ## Elements of a graph -/

namespace Resolver

/-- Whether two shapes agree in all but dimensions and annotations. -/
def ShapedAs (s t : ClassShape) : Prop :=
  { s with dimensions := 0, annotations := ∅ } = { t with dimensions := 0, annotations := ∅ }

theorem ShapedAs.withoutAnnotations_eq {s t u : ClassShape} (hs : ShapedAs s u)
    (ht : ShapedAs t u) (hdimensions : s.dimensions = t.dimensions) :
    { s with annotations := ∅ } = { t with annotations := ∅ } := by
  have heq := congrArg (fun shape : ClassShape => { shape with dimensions := s.dimensions })
    (Eq.trans hs (Eq.symm ht))
  exact heq.trans (by rw [hdimensions])

/-- Whether a shape is that of a class of the graph all of whose type parameters are declared. -/
def ShapedByClass (r : Resolver) (shape : ClassShape) : Prop :=
  ∃ d, r.graph.classDeclaration? shape.symbol = some d ∧ DeclaresAll r.graph d.typeParameters ∧
    ShapedAs shape (r.declaredElement shape.symbol d ∅).shape

/-- Whether a shape is that of a top type without a class that can be made. -/
def ShapedBare (r : Resolver) (shape : ClassShape) : Prop :=
  (∀ s d, r.graph.classDeclaration? s = some d → d.qualifiedName = r.settings.topType →
    ¬ DeclaresAll r.graph d.typeParameters) ∧
  ShapedAs shape (bareElement r.settings.topType).shape

/-- Whether a shape and a variable are those of a type parameter of the graph. -/
def ShapedByParameter (r : Resolver) (shape : ClassShape) (v : TypeVariable) : Prop :=
  ∃ d, r.graph.typeParameter? shape.symbol = some d ∧ v = ⟨d.name, d.bounds⟩ ∧
    ShapedAs shape (r.placeholderElement shape.symbol d ∅).shape

end Resolver

open Resolver

mutual

/-- Whether an element is shaped by the graph, as are the elements in it, under names without
marks. No name is repeated in arguments. -/
def ClassElement.Sound (r : Resolver) : ClassElement → Prop
  | .declared shape arguments =>
    (ShapedByClass r shape ∨ ShapedBare r shape) ∧ arguments.Sound r ∧ arguments.names.Nodup
  | .placeholder shape arguments v captured =>
    ShapedByParameter r shape v ∧ (arguments.Sound r ∧ arguments.names.Nodup) ∧ captured.Sound r

/-- Whether a substitution binds names without marks to sound elements. -/
def TypeArguments.Sound (r : Resolver) : TypeArguments → Prop
  | .nil => True
  | .cons name element rest => PlainName name ∧ element.Sound r ∧ rest.Sound r

end

variable {r : Resolver}

theorem TypeArguments.sound_empty : (∅ : TypeArguments).Sound r := trivial

theorem TypeArguments.sound_iff {bindings : TypeArguments} :
    bindings.Sound r ↔ bindings.Each PlainName (ClassElement.Sound r) := by
  induction bindings with
  | nil => exact iff_of_true trivial TypeArguments.each_empty
  | cons name e rest ih => rw [TypeArguments.Sound, TypeArguments.each_cons, ih, and_assoc]

mutual

theorem ClassElement.Sound.uniqueNames : ∀ e : ClassElement, e.Sound r → e.UniqueNames
  | .declared _ arguments => fun h =>
    TypeArguments.Sound.uniqueNames arguments h.2.1 h.2.2
  | .placeholder _ arguments _ _ => fun h =>
    TypeArguments.Sound.uniqueNames arguments h.2.1.1 h.2.1.2

theorem TypeArguments.Sound.uniqueNames : ∀ bindings : TypeArguments, bindings.Sound r →
    bindings.names.Nodup → bindings.UniqueNames
  | .nil => fun _ _ => trivial
  | .cons _ e rest => fun h hnodup =>
    ⟨(List.nodup_cons.1 hnodup).1, ClassElement.Sound.uniqueNames e h.2.1,
      TypeArguments.Sound.uniqueNames rest h.2.2 (List.nodup_cons.1 hnodup).2⟩

end

theorem ClassElement.Sound.sameType_refl {e : ClassElement} (h : e.Sound r) :
    e.sameType e = true :=
  ClassElement.sameType_refl e (ClassElement.Sound.uniqueNames e h)

namespace Resolver

theorem ShapedByClass.name_eq {shape : ClassShape} (h : ShapedByClass r shape) :
    ∃ d, r.graph.classDeclaration? shape.symbol = some d ∧
      DeclaresAll r.graph d.typeParameters ∧ shape.name = d.qualifiedName := by
  obtain ⟨d, hd, hdeclares, hshape⟩ := h
  exact ⟨d, hd, hdeclares, congrArg ClassShape.name hshape⟩

theorem ShapedBare.name_eq {shape : ClassShape} (h : ShapedBare r shape) :
    shape.name = r.settings.topType :=
  congrArg ClassShape.name h.2

/-- Elements are made of the graph, and stay so whatever is done to them. -/
theorem inherited_sound (hr : r.Readable) : Inherited r PlainName (ClassElement.Sound r) where
  name := hr.plain_parameterName
  declared hs h := ⟨Or.inl ⟨_, hs, h.declares, rfl⟩, TypeArguments.sound_iff.2 h.each, h.nodup⟩
  placeholder hs h :=
    ⟨⟨_, hs, rfl, rfl⟩, ⟨trivial, List.nodup_nil⟩, TypeArguments.sound_iff.2 h⟩
  bare h := by
    refine ⟨Or.inr ⟨fun s d hs hname => ?_, rfl⟩, trivial, List.nodup_nil⟩
    -- the class of a name is the one that is found
    cases hfind : r.graph.findClass? r.settings.topType with
    | none => exact absurd (hname ▸ hfind) (SymbolGraph.findClass?_ne_none hs)
    | some t =>
      obtain ⟨d', ht, hname'⟩ := SymbolGraph.qualifiedName_of_findClass? hfind
      obtain rfl := hr.symbol_eq hs ht (hname.trans hname'.symm)
      exact h s d hfind hs
  withDimensions {e} h _ := by cases e <;> exact h
  withAnnotations {e} h _ := by cases e <;> exact h
  withArguments {e} h arguments hnodup harguments := by
    cases e with
    | declared shape _ => exact ⟨h.1, TypeArguments.sound_iff.2 harguments, hnodup⟩
    | placeholder shape _ v captured =>
      exact ⟨h.1, ⟨TypeArguments.sound_iff.2 harguments, hnodup⟩, h.2.2⟩
  arguments {e} h := by
    cases e with
    | declared shape _ => exact TypeArguments.sound_iff.1 h.2.1
    | placeholder shape _ v captured => exact TypeArguments.sound_iff.1 h.2.1.1
  captured {e} h := by
    cases e with
    | declared shape _ => exact TypeArguments.each_empty
    | placeholder shape _ v captured => exact TypeArguments.sound_iff.1 h.2.2

end Resolver

/-! ## What the key text of an element tells -/

/-- Where no two classes have one name, the name and the dimensions of a shape tell the rest. -/
theorem Resolver.withoutAnnotations_eq_of_name_eq (hr : r.Readable) {s t : ClassShape}
    (hs : ShapedByClass r s ∨ ShapedBare r s) (ht : ShapedByClass r t ∨ ShapedBare r t)
    (hname : s.name = t.name) (hdimensions : s.dimensions = t.dimensions) :
    { s with annotations := ∅ } = { t with annotations := ∅ } := by
  have hapart : ∀ {s t : ClassShape}, ShapedByClass r s → ShapedBare r t → s.name ≠ t.name := by
    intro s t hs ht hname
    -- a bare top type has no class of its name that could be made
    obtain ⟨d, hd, hdeclares, hclass⟩ := hs.name_eq
    exact ht.1 _ d hd (hclass.symm.trans (hname.trans ht.name_eq)) hdeclares
  rcases hs with hs | hs
  · rcases ht with ht | ht
    · obtain ⟨d, hd, -, hnames⟩ := hs.name_eq
      obtain ⟨d', hd', -, hnamet⟩ := ht.name_eq
      have hsymbol := hr.symbol_eq hd hd' (hnames.symm.trans (hname.trans hnamet))
      obtain ⟨d₁, hd₁, -, hs⟩ := hs
      obtain ⟨d₂, hd₂, -, ht⟩ := ht
      rw [hsymbol] at hd₁ hs
      obtain rfl := Option.some.inj (hd₁.symm.trans hd₂)
      exact hs.withoutAnnotations_eq ht hdimensions
    · exact absurd hname (hapart hs ht)
  · rcases ht with ht | ht
    · exact absurd hname.symm (hapart ht hs)
    · exact hs.2.withoutAnnotations_eq ht.2 hdimensions

mutual

theorem ClassElement.Sound.legible (hr : r.Readable) : ∀ e : ClassElement, e.Sound r → e.Legible
  | .declared shape arguments => fun h => by
    refine ⟨?_, TypeArguments.Sound.legible hr arguments h.2.1⟩
    rcases h.1 with hclass | hbare
    · obtain ⟨d, hd, -, hname⟩ := hclass.name_eq
      rw [hname]
      exact hr.plain_className hd
    · rw [hbare.name_eq]
      exact hr.plain_topType
  | .placeholder shape arguments v captured => fun h => by
    obtain ⟨⟨d, hd, -⟩, ⟨harguments, -⟩, hcaptured⟩ := h
    exact ⟨hr.open_parameterPath hd, TypeArguments.Sound.legible hr arguments harguments,
      TypeArguments.Sound.legible hr captured hcaptured⟩

theorem TypeArguments.Sound.legible (hr : r.Readable) : ∀ bindings : TypeArguments,
    bindings.Sound r → bindings.Legible
  | .nil => fun _ => trivial
  | .cons _ e rest => fun h =>
    ⟨h.1, ClassElement.Sound.legible hr e h.2.1, TypeArguments.Sound.legible hr rest h.2.2⟩

end

mutual

/-- Sound elements that agree in all that shows in a key text have one skeleton. -/
theorem ClassElement.Sound.skeleton_eq (hr : r.Readable) : ∀ e f : ClassElement,
    e.Sound r → f.Sound r → e.KeyAlike f → e.skeleton = f.skeleton
  | .declared s as, .declared t bs => fun he hf h => by
    obtain ⟨hname, hdimensions, hargs⟩ := h
    rw [ClassElement.skeleton, ClassElement.skeleton,
      withoutAnnotations_eq_of_name_eq hr he.1 hf.1 hname hdimensions,
      TypeArguments.Sound.skeleton_eq hr as bs he.2.1 hf.2.1 hargs]
  | .placeholder s as v cs, .placeholder t bs w ds => fun he hf h => by
    obtain ⟨hpath, hdimensions, hargs, -⟩ := h
    obtain ⟨⟨d, hd, rfl, hs⟩, ⟨has, -⟩, -⟩ := he
    obtain ⟨⟨d', hd', rfl, ht⟩, ⟨hbs, -⟩, -⟩ := hf
    have hsymbol : s.symbol = t.symbol := parameterSymbol_eq hd hd' hpath
    rw [hsymbol] at hd hs
    obtain rfl := Option.some.inj (hd.symm.trans hd')
    rw [ClassElement.skeleton, ClassElement.skeleton, hs.withoutAnnotations_eq ht hdimensions,
      TypeArguments.Sound.skeleton_eq hr as bs has hbs hargs]
  | .declared _ _, .placeholder _ _ _ _ => fun _ _ h => h.elim
  | .placeholder _ _ _ _, .declared _ _ => fun _ _ h => h.elim

theorem TypeArguments.Sound.skeleton_eq (hr : r.Readable) : ∀ as bs : TypeArguments,
    as.Sound r → bs.Sound r → as.KeyAlike bs → as.skeleton = bs.skeleton
  | .nil, .nil => fun _ _ _ => rfl
  | .cons name e as, .cons name' f bs => fun has hbs h => by
    rw [TypeArguments.skeleton, TypeArguments.skeleton, h.1,
      ClassElement.Sound.skeleton_eq hr e f has.2.1 hbs.2.1 h.2.1,
      TypeArguments.Sound.skeleton_eq hr as bs has.2.2 hbs.2.2 h.2.2]
  | .nil, .cons _ _ _ => fun _ _ h => h.elim
  | .cons _ _ _, .nil => fun _ _ h => h.elim

end

end BeanProcessing

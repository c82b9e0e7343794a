import BeanProcessing.Proofs.Resolver.Preservation
import BeanProcessing.Proofs.Resolver.Substitution

/-!
# Names that substitutions bind

A substitution goes by names: a type variable that is declared by a class is what is bound to its
name, whichever class the substitution comes from. If nothing is bound to the name then the variable
stays open, as a placeholder of its own.

So the bindings of one class reach the type variables of another exactly where the names meet. Where
they do not, a placeholder leads to the same bounds and to the same declaring class as under no
substitution at all, although it has captured the one that it was met under.
-/

namespace BeanProcessing

namespace TypeUse

mutual

/-- A use in which nothing is replaced stays as it is. -/
theorem substitute_none : ∀ use : TypeUse, use.substitute (fun _ => none) = use
  | declared s arguments => by rw [substitute, substituteAll_none arguments]
  | typeVariable s => rfl
  | array element dimensions => by rw [substitute, substitute_none element]
  | unresolved => rfl

theorem substituteAll_none : ∀ uses : List TypeUse, substituteAll (fun _ => none) uses = uses
  | [] => rfl
  | use :: rest => by rw [substituteAll, substitute_none use, substituteAll_none rest]

end

end TypeUse

namespace Resolver

variable {r : Resolver}

/-! ## Type variables of classes -/

/-- A type variable that is declared by a class is looked up by its name. -/
theorem binding?_eq_get? {v D : Symbol} (hv : r.graph.enclosing? v = some D)
    (hD : D.isClass = true) (name : String) (generics : TypeArguments) :
    r.binding? v name generics = generics.get? name := by
  rw [binding?, hv, Option.all_some, if_pos hD]

/-- A type variable is resolved to what is bound to it, and to its placeholder if nothing is. -/
theorem run_resolve_typeVariable {v : Symbol} {d : TypeParameterDeclaration}
    (hv : r.graph.typeParameter? v = some d) (generics : TypeArguments) (m : Memory) :
    ((r.resolve generics (.typeVariable v)).run.run m).1
      = .ok ((r.bound v d generics).run m).1 := by
  rw [resolve, typeParameter, hv]
  rfl

theorem run_resolve_of_get?_eq_some {v D : Symbol} {d : TypeParameterDeclaration}
    (hv : r.graph.typeParameter? v = some d) (henclosing : r.graph.enclosing? v = some D)
    (hD : D.isClass = true) {generics : TypeArguments} {e : ClassElement}
    (he : generics.get? d.name = some e) (m : Memory) :
    ((r.resolve generics (.typeVariable v)).run.run m).1 = .ok e := by
  rw [run_resolve_typeVariable hv, bound, binding?_eq_get? henclosing hD, he]
  rfl

/-- In any memory, a type variable whose name is not bound is resolved to its own placeholder. -/
theorem run_resolve_of_get?_eq_none {v D : Symbol} {d : TypeParameterDeclaration}
    (hv : r.graph.typeParameter? v = some d) (henclosing : r.graph.enclosing? v = some D)
    (hD : D.isClass = true) {generics : TypeArguments} (hnone : generics.get? d.name = none)
    {m : Memory} (hm : Keyed r m) :
    ∃ captured, captured.keyText = generics.keyText ∧
      ((r.resolve generics (.typeVariable v)).run.run m).1
        = .ok (r.placeholderElement v d captured) := by
  obtain ⟨captured, htext, hrun⟩ := run_placeholder hm hv generics
  refine ⟨captured, htext, ?_⟩
  rw [run_resolve_typeVariable hv, bound, binding?_eq_get? henclosing hD, hnone]
  exact congrArg Except.ok hrun

/-- The class that declares a type variable is the nearest around it. -/
theorem encounter_eq_nearestClass {g : SymbolGraph} {v D : Symbol} {d : TypeParameterDeclaration}
    (hv : g.typeParameter? v = some d) (henclosing : g.enclosing? v = some D)
    (hD : D.isClass = true) : g.encounter v = .nearestClass D := by
  have hne : D ≠ v := by
    rintro rfl
    rw [Symbol.isClass, kind_of_typeParameter? hv] at hD
    cases hD
  rw [SymbolGraph.encounter, SymbolGraph.outward, SymbolGraph.enclosingChain, henclosing]
  dsimp only
  rw [SymbolGraph.encounterAlong, if_neg (by simpa using hne), if_pos hD]

/-! ## Substitutions that bind none of some variables -/

/-- Whether a substitution leaves a type variable open: its name is not bound, or it is not declared
by a class. -/
def LeavesOpen (g : SymbolGraph) (generics : TypeArguments) (v : Symbol) : Prop :=
  ∀ d, g.typeParameter? v = some d →
    generics.get? d.name = none ∨ ∃ f, g.enclosing? v = some f ∧ f.isClass = false

variable {generics : TypeArguments}

theorem LeavesOpen.binding?_eq_none {v : Symbol} {d : TypeParameterDeclaration}
    (h : LeavesOpen r.graph generics v) (hv : r.graph.typeParameter? v = some d) :
    r.binding? v d.name generics = none := by
  unfold binding?
  rcases h d hv with hname | ⟨f, hf, hclass⟩
  · rw [hname, ite_self]
  · rw [hf, Option.all_some, hclass]
    rfl

theorem LeavesOpen.bound_eq {v : Symbol} {d : TypeParameterDeclaration}
    (h : LeavesOpen r.graph generics v) (hv : r.graph.typeParameter? v = some d) :
    Direct.bound r v d generics = r.placeholderElement v d generics := by
  rw [Direct.bound, h.binding?_eq_none hv]

theorem leavesOpen_empty (g : SymbolGraph) (v : Symbol) : LeavesOpen g ∅ v :=
  fun _ _ => Or.inl rfl

theorem LeavesOpen.sameType_bound {v : Symbol} {d : TypeParameterDeclaration}
    (h : LeavesOpen r.graph generics v) (hv : r.graph.typeParameter? v = some d) :
    (Direct.bound r v d generics).sameType (Direct.bound r v d ∅) = true := by
  rw [h.bound_eq hv, (leavesOpen_empty r.graph v).bound_eq hv]
  exact sameType_placeholderElement v d

/-- A use all of whose variables are left open resolves as under no substitution. -/
theorem sameOutcome_resolve_of_leavesOpen (hr : r.Readable) {use : TypeUse}
    (h : ∀ v ∈ use.typeVariables, LeavesOpen r.graph generics v) :
    SameTypeOutcome (Direct.resolve r generics use) (Direct.resolve r ∅ use) := by
  have hvariables : ∀ v ∈ use.typeVariables,
      SameTypeOutcome (Direct.resolve r generics (.typeVariable v))
        (Direct.resolve r ∅ (TypeUse.typeVariable v |>.substitute fun _ => none)) := by
    intro v hv
    rw [TypeUse.substitute_none, Direct.resolve, Direct.resolve]
    cases hd : r.graph.typeParameter? v with
    | none => exact rfl
    | some d => exact (h v hv).sameType_bound hd
  have hsame := sameOutcome_resolve_substitute hr use hvariables
  rwa [TypeUse.substitute_none] at hsame

theorem SameOutcome.mapM {α β γ : Type} {R : β → γ → Prop} {f : α → Except Failure β}
    {g : α → Except Failure γ} {l : List α} (h : ∀ a ∈ l, SameOutcome R (f a) (g a)) :
    SameOutcome (List.Forall₂ R) (l.mapM f) (l.mapM g) := by
  induction l with
  | nil => exact List.Forall₂.nil
  | cons a rest ih =>
    rw [List.mapM_cons, List.mapM_cons]
    refine SameOutcome.bind (h a List.mem_cons_self) fun b c hbc => ?_
    have hrest := ih fun a' ha' => h a' (List.mem_cons_of_mem a ha')
    exact SameOutcome.bind hrest fun bs cs hbcs => List.Forall₂.cons hbc hbcs

theorem sameOutcome_boundsOf_of_leavesOpen (hr : r.Readable) {typeVariable : TypeVariable}
    (h : ∀ use ∈ typeVariable.bounds, ∀ v ∈ use.typeVariables, LeavesOpen r.graph generics v) :
    SameOutcome (List.Forall₂ fun e f => e.sameType f = true)
      (Direct.boundsOf r typeVariable generics) (Direct.boundsOf r typeVariable ∅) :=
  SameOutcome.mapM fun use huse => sameOutcome_resolve_of_leavesOpen hr (h use huse)

theorem sameOutcome_bindToBounds_of_leavesOpen {parameters : List Symbol}
    (h : ∀ p ∈ parameters, LeavesOpen r.graph generics p) {as bs : TypeArguments}
    (hsame : SameBindings as bs) :
    SameOutcome SameBindings (Direct.bindToBounds r generics as parameters)
      (Direct.bindToBounds r ∅ bs parameters) := by
  induction parameters generalizing as bs with
  | nil => exact hsame
  | cons p rest ih =>
    obtain ⟨hp, hrest⟩ := List.forall_mem_cons.1 h
    unfold Direct.bindToBounds
    cases hd : r.graph.typeParameter? p with
    | none => exact rfl
    | some d => exact ih hrest (hsame.insert d.name (hp.sameType_bound hd))

/-- The class around a type variable is bound as under no substitution if all its type parameters
are left open. -/
theorem sameOutcome_declaringClass?_of_leavesOpen {v D : Symbol}
    (hencounter : r.graph.encounter v = .nearestClass D)
    (h : ∀ dD, r.graph.classDeclaration? D = some dD →
      ∀ p ∈ dD.typeParameters, LeavesOpen r.graph generics p) :
    SameOutcome (Option.Rel fun e f => e.sameType f = true)
      (Direct.declaringClass? r v generics) (Direct.declaringClass? r v ∅) := by
  unfold Direct.declaringClass?
  rw [hencounter]
  dsimp only
  cases hd : r.graph.classDeclaration? D with
  | none => exact rfl
  | some dD =>
    have hbindings := sameOutcome_bindToBounds_of_leavesOpen (h dD hd) SameBindings.empty
    exact hbindings.bind fun as bs hsame => Option.Rel.some (sameType_declaredElement D dD hsame)

/-! ## The arguments of a class -/

/-- A type variable that is declared by a class is resolved, under the arguments of any class, to
its own placeholder if these do not bind its name, and else to what they bind it to. This holds of
every graph and whatever was asked before.

In a readable graph the placeholder has captured these arguments. Where they leave open the
variables in its bounds, the bounds are those under no substitution, and where they leave open the
type parameters of the class that declares it, the declaring class is the one under no substitution.
-/
theorem resolve_typeVariable_arguments {m : Memory} (hm : LeftByCalls r m) (c : ClassElement)
    {v D : Symbol} {d : TypeParameterDeclaration} (hv : r.graph.typeParameter? v = some d)
    (henclosing : r.graph.enclosing? v = some D) (hD : D.isClass = true) :
    (∀ e, c.arguments.get? d.name = some e →
      ((r.resolve c.arguments (.typeVariable v)).run.run m).1 = .ok e) ∧
    (c.arguments.get? d.name = none →
      ∃ captured, captured.keyText = c.arguments.keyText ∧
        ((r.resolve c.arguments (.typeVariable v)).run.run m).1
          = .ok (r.placeholderElement v d captured)) ∧
    ∀ exchanges, r.Readable → Transcript r exchanges m → Supplied (returnedIn exchanges) c →
      (c.arguments.get? d.name = none →
        ((r.resolve c.arguments (.typeVariable v)).run.run m).1
          = .ok (r.placeholderElement v d c.arguments)) ∧
      ((∀ use ∈ d.bounds, ∀ w ∈ use.typeVariables, LeavesOpen r.graph c.arguments w) →
        SameOutcome (List.Forall₂ fun e f => (e == f) = true)
          ((r.boundsOf ⟨d.name, d.bounds⟩ c.arguments).run.run m).1
          ((r.boundsOf ⟨d.name, d.bounds⟩ ∅).run.run m).1) ∧
      ((∀ dD, r.graph.classDeclaration? D = some dD →
          ∀ p ∈ dD.typeParameters, LeavesOpen r.graph c.arguments p) →
        SameOutcome (Option.Rel fun e f => (e == f) = true)
          ((r.declaringElement? (r.placeholderElement v d c.arguments).toElement).run.run m).1
          ((r.declaringElement? (r.placeholderElement v d ∅).toElement).run.run m).1) := by
  refine ⟨fun e he => run_resolve_of_get?_eq_some hv henclosing hD he m,
    fun hnone => run_resolve_of_get?_eq_none hv henclosing hD hnone hm.keyed, ?_⟩
  intro exchanges hr htranscript hc
  have hreached : Reached r m := ⟨exchanges, htranscript⟩
  have hempty : (∅ : TypeArguments).Canonical r := TypeArguments.canonical_empty
  have harguments : c.arguments.Canonical r :=
    (canonical_of_supplied (htranscript.invariant hr).2.1 hc).arguments
  -- in a readable graph every answer is the direct one
  have hbounds : ∀ {generics : TypeArguments}, generics.Canonical r →
      ((r.boundsOf ⟨d.name, d.bounds⟩ generics).run.run m).1
        = Direct.boundsOf r ⟨d.name, d.bounds⟩ generics := fun hgenerics =>
    (Agrees.mapM fun use _ => agrees_resolve hr hgenerics use).eq_of_reached hr hreached
  have hdeclaring : ∀ {generics : TypeArguments}, generics.Canonical r →
      ((r.declaringElement? (r.placeholderElement v d generics).toElement).run.run m).1
        = Direct.declaringClass? r v generics := fun hgenerics =>
    (agrees_declaringClass? hr hgenerics v).eq_of_reached hr hreached
  refine ⟨fun hnone => ?_, fun hopen => ?_, fun hopen => ?_⟩
  · rw [(agrees_resolve hr harguments (.typeVariable v)).eq_of_reached hr hreached, Direct.resolve,
      hv, ← LeavesOpen.bound_eq _ hv]
    · rfl
    · intro d' hd'
      obtain rfl := Option.some.inj (hv.symm.trans hd')
      exact Or.inl hnone
  · rw [hbounds harguments, hbounds hempty]
    exact sameOutcome_boundsOf_of_leavesOpen hr hopen
  · rw [hdeclaring harguments, hdeclaring hempty]
    exact sameOutcome_declaringClass?_of_leavesOpen
      (encounter_eq_nearestClass hv henclosing hD) hopen

/-- A class with a type parameter whose bound refers to itself, another class nested in it whose
type parameter has the same name, and a class with a type parameter of another name. -/
def nestGraph : SymbolGraph :=
  .ofEdits [
    .addClass "Text" .plain,
    .addClass "Box" .plain,
    .addTypeParameter (.ofClass "Box") "E" [],
    .addClass "Outer" .plain,
    .addTypeParameter (.ofClass "Outer") "T"
      [.declared (.ofClass "Box") [.typeVariable (.ofTypeParameter "Outer<T>")]],
    .addNested "Outer" "Inner" .plain [],
    .addTypeParameter (.ofClass "Inner") "T" []]

/-- A resolver of these classes. -/
def nestResolver : Resolver := .ofUnits nestGraph {} []

theorem readable_nestResolver : nestResolver.Readable where
  nodup_classNames := by decide
  plain_classNames := by decide
  plain_parameterNames := by decide
  open_parameterPaths := by decide
  plain_topType := by decide

/-- A use of a class with an argument, and the element that it stands for. -/
def boxOfText : TypeUse := .declared (.ofClass "Box") [.declared (.ofClass "Text") []]

def boxOfTextElement : ClassElement :=
  .declared { symbol := .ofClass "Box", name := "Box" } (.cons "E" textElement .nil)

/-- The one call that this element is returned by, and the memory that it leaves behind. -/
def boxExchanges : List Exchange := [(.resolve boxOfText ∅, .ok (.element boxOfTextElement))]

def boxMemory : Memory := ((nestResolver.answer (.resolve boxOfText ∅)).run.run {}).2

theorem transcript_boxMemory : Transcript nestResolver boxExchanges boxMemory :=
  Transcript.call (.start []) fun _ hentry => absurd hentry List.not_mem_nil

/-- The type variable of the outer class, as it is declared. -/
def outerParameter : TypeParameterDeclaration where
  name := "T"
  bounds := [.declared (.ofClass "Box") [.typeVariable (.ofTypeParameter "Outer<T>")]]

/-- Under the arguments of a class whose type parameter has another name, the type variable stays
open, and so do its bounds and the class that declares it. -/
theorem resolve_typeVariable_arguments_nestResolver :
    LeftByCalls nestResolver boxMemory ∧ nestResolver.Readable ∧
      Transcript nestResolver boxExchanges boxMemory ∧
      Supplied (returnedIn boxExchanges) boxOfTextElement ∧
      nestGraph.typeParameter? (.ofTypeParameter "Outer<T>") = some outerParameter ∧
      nestGraph.enclosing? (.ofTypeParameter "Outer<T>") = some (.ofClass "Outer") ∧
      boxOfTextElement.arguments.get? "T" = none ∧
      ((nestResolver.resolve boxOfTextElement.arguments
          (.typeVariable (.ofTypeParameter "Outer<T>"))).run.run boxMemory).1
        = .ok (nestResolver.placeholderElement (.ofTypeParameter "Outer<T>") outerParameter
            boxOfTextElement.arguments) ∧
      SameOutcome (List.Forall₂ fun e f => (e == f) = true)
        ((nestResolver.boundsOf ⟨outerParameter.name, outerParameter.bounds⟩
          boxOfTextElement.arguments).run.run boxMemory).1
        ((nestResolver.boundsOf ⟨outerParameter.name, outerParameter.bounds⟩ ∅).run.run
          boxMemory).1 ∧
      SameOutcome (Option.Rel fun e f => (e == f) = true)
        ((nestResolver.declaringElement? (nestResolver.placeholderElement
          (.ofTypeParameter "Outer<T>") outerParameter
            boxOfTextElement.arguments).toElement).run.run boxMemory).1
        ((nestResolver.declaringElement? (nestResolver.placeholderElement
          (.ofTypeParameter "Outer<T>") outerParameter ∅).toElement).run.run boxMemory).1 := by
  have hleft := transcript_boxMemory.leftByCalls
  have hsupplied : Supplied (returnedIn boxExchanges) boxOfTextElement :=
    .returned List.mem_cons_self
  have hv : nestResolver.graph.typeParameter? (.ofTypeParameter "Outer<T>")
      = some outerParameter := rfl
  have hopen : LeavesOpen nestGraph boxOfTextElement.arguments (.ofTypeParameter "Outer<T>") := by
    intro d hd
    obtain rfl := Option.some.inj (hv.symm.trans hd)
    exact Or.inl rfl
  obtain ⟨-, -, hreadable⟩ :=
    resolve_typeVariable_arguments hleft boxOfTextElement hv rfl rfl
  obtain ⟨hplaceholder, hbounds, hdeclaring⟩ :=
    hreadable boxExchanges readable_nestResolver transcript_boxMemory hsupplied
  refine ⟨hleft, readable_nestResolver, transcript_boxMemory, hsupplied, hv, rfl, rfl,
    hplaceholder rfl, hbounds ?_, hdeclaring ?_⟩
  · intro use huse w hw
    obtain rfl := List.mem_singleton.1 huse
    obtain rfl := List.mem_singleton.1 hw
    exact hopen
  · intro dD hdD p hp
    cases hdD
    obtain rfl := List.mem_singleton.1 hp
    exact hopen

/-- Two classes with one qualified name, two classes with a type parameter, and one with a type
parameter whose bound has one of the first two in it. -/
def twinGraph : SymbolGraph :=
  (SymbolGraph.ofEdits [
    .addClass "Left" .plain,
    .addClass "Right" .plain,
    .addClass "Box" .plain,
    .addTypeParameter (.ofClass "Box") "E" [],
    .addClass "Crate" .plain,
    .addTypeParameter (.ofClass "Crate") "T" [],
    .addClass "Rack" .plain,
    .addTypeParameter (.ofClass "Rack") "U"
      [.declared (.ofClass "Box") [.declared (.ofClass "Right") []]]]).modifyClass "Left"
    fun d => { d with qualifiedName := "Right" }

/-- A resolver of these classes. -/
def twinResolver : Resolver := .ofUnits twinGraph {} []

/-- Arguments reach the type variables of another class in two ways. In the one graph, the variable
of the outer class is bound by the arguments of the inner class, whose type parameter has the same
name. In the other, the argument is taken for a class of its qualified name in a bound, since a use
with the argument was resolved before; no name is bound there. -/
theorem arguments_reach_other_class :
    (∃ c e, ((nestResolver.resolve ∅
        (.declared (.ofClass "Inner") [.declared (.ofClass "Text") []])).run.run {}).1 = .ok c ∧
      nestGraph.enclosing? (.ofTypeParameter "Outer<T>") = some (.ofClass "Outer") ∧
      c.symbol = .ofClass "Inner" ∧
      ((nestResolver.resolve c.arguments
        (.typeVariable (.ofTypeParameter "Outer<T>"))).run.run {}).1 = .ok e ∧
      e.symbol ≠ .ofTypeParameter "Outer<T>" ∧ c.arguments.get? "T" = some e) ∧
    ∃ c m bound bound' e,
      (twinResolver.resolve ∅
        (.declared (.ofClass "Crate") [.declared (.ofClass "Left") []])).run.run {} = (.ok c, m) ∧
      twinGraph.enclosing? (.ofTypeParameter "Rack<U>") = some (.ofClass "Rack") ∧
      twinGraph.typeParameter? (.ofTypeParameter "Rack<U>") = some ⟨"U", [bound]⟩ ∧
      c.arguments.get? "T" = some e ∧ e.symbol = .ofClass "Left" ∧ bound.typeVariables = [] ∧
      ((twinResolver.boundsOf ⟨"U", [bound]⟩ c.arguments).run.run
        ((twinResolver.resolve c.arguments
          (.declared (.ofClass "Box") [.typeVariable (.ofTypeParameter "Crate<T>")])).run.run
            m).2).1 = .ok [bound'] ∧
      bound'.arguments.get? "E" = some e := by
  refine ⟨⟨_, _, rfl, rfl, rfl, rfl, ?_, rfl⟩, ?_⟩
  · decide
  · exact ⟨_, _, _, _, _, rfl, rfl, rfl, rfl, rfl, rfl, rfl, rfl⟩

end Resolver

end BeanProcessing

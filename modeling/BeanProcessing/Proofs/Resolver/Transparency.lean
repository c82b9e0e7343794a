import BeanProcessing.Proofs.Resolver.Canonical

/-!
# Transparency of the memory

Each operation of a resolver agrees with direct resolution on canonical substitutions: from every
faithful memory it comes to the same element or the same failure, and what it remembers is faithful
again. There is one statement for each operation, and it follows the operation step by step.
-/

namespace BeanProcessing

namespace Resolver

variable {r : Resolver} {generics bindings : TypeArguments}

/-! ## Type uses -/

section

variable (hr : r.Readable)
include hr

theorem agrees_elementOf_canonical (s : Symbol) :
    Agrees r (r.canonicalRequests hr) (r.elementOf s).run (Direct.elementOf r s) := by
  have hempty : (∅ : TypeArguments).Canonical r := TypeArguments.canonical_empty
  refine agrees_elementOf (fun _ _ _ _ _ _ => hempty) fun d bindings _ hb => ?_
  exact (binds_bindToPlaceholders hempty hb).canonical hempty

theorem agrees_topType : Agrees r (r.canonicalRequests hr) r.topType (Direct.topType r) := by
  unfold topType Direct.topType
  cases r.graph.findClass? r.settings.topType with
  | none => exact Agrees.pure _
  | some s =>
    dsimp only
    refine Agrees.bind (agrees_elementOf_canonical hr s) ?_
    cases Direct.elementOf r s with
    | ok e => exact Agrees.pure _
    | error failure => exact Agrees.pure _

mutual

theorem agrees_resolve (hgenerics : generics.Canonical r) : ∀ use : TypeUse,
    Agrees r (r.canonicalRequests hr) (r.resolve generics use).run (Direct.resolve r generics use)
  | .declared s arguments => by
    rw [resolve, Direct.resolve]
    refine Agrees.bindOk (Agrees.known s _) fun d hd => ?_
    refine Agrees.bindOk (agrees_bindArguments hgenerics arguments _ _) fun bindings hb => ?_
    -- the class is asked for under bindings that are canonical again
    have hbindings : bindings.Canonical r :=
      (binds_bindArguments hr hgenerics arguments _ _ _ hb).canonical TypeArguments.canonical_empty
    exact (agrees_classElement (Direct.known_eq_ok.1 hd) hbindings).liftM
  | .typeVariable s => by
    rw [resolve, Direct.resolve]
    refine Agrees.bindOk (Agrees.known s _) fun d hd => ?_
    exact (agrees_bound (Direct.known_eq_ok.1 hd) hgenerics).liftM
  | .array element dimensions => by
    rw [resolve, Direct.resolve]
    exact Agrees.bindOk (agrees_resolve hgenerics element) fun e _ => Agrees.pure _
  | .unresolved => by
    rw [resolve, Direct.resolve]
    exact (agrees_topType hr).liftM

theorem agrees_bindArguments (hgenerics : generics.Canonical r) : ∀ (arguments : List TypeUse)
    (parameters : List Symbol) (bindings : TypeArguments),
    Agrees r (r.canonicalRequests hr) (r.bindArguments generics bindings parameters arguments).run
      (Direct.bindArguments r generics bindings parameters arguments)
  | [] => by
    intro parameters bindings
    rw [bindArguments, Direct.bindArguments]
    exact agrees_bindToPlaceholders (fun _ _ _ _ => hgenerics) bindings
  | argument :: rest => by
    intro parameters bindings
    cases parameters with
    | nil =>
      rw [bindArguments, Direct.bindArguments]
      exact Agrees.pure _
    | cons p parameters =>
      rw [bindArguments, Direct.bindArguments]
      refine Agrees.bindOk (Agrees.known p _) fun d _ => ?_
      refine Agrees.bindOk (agrees_resolve hgenerics argument) fun e _ => ?_
      exact agrees_bindArguments hgenerics rest parameters _

end

theorem agrees_bindToBounds (hgenerics : generics.Canonical r) (parameters : List Symbol)
    (bindings : TypeArguments) :
    Agrees r (r.canonicalRequests hr) (r.bindToBounds generics bindings parameters).run
      (Direct.bindToBounds r generics bindings parameters) := by
  induction parameters generalizing bindings with
  | nil => exact Agrees.pure _
  | cons p rest ih =>
    refine Agrees.bindOk (Agrees.known p _) fun d hd => ?_
    exact Agrees.lift (agrees_bound (Direct.known_eq_ok.1 hd) hgenerics) (ih _)

theorem agrees_declaringClass? (hgenerics : generics.Canonical r) (s : Symbol) :
    Agrees r (r.canonicalRequests hr) (r.declaringClass? s generics).run
      (Direct.declaringClass? r s generics) := by
  unfold declaringClass? Direct.declaringClass?
  cases r.graph.encounter s with
  | outside => exact Agrees.pure _
  | repetition repeated => exact Agrees.pure _
  | nearestClass outer =>
    refine Agrees.bindOk (Agrees.known outer _) fun d hd => ?_
    refine Agrees.bindOk (agrees_bindToBounds hr hgenerics _ _) fun bindings hb => ?_
    have hbindings : bindings.Canonical r :=
      (binds_bindToBounds hgenerics hb).canonical TypeArguments.canonical_empty
    exact Agrees.lift (agrees_classElement (Direct.known_eq_ok.1 hd) hbindings) (Agrees.pure _)

/-! ## Members -/

theorem agrees_parameterElement (hgenerics : generics.Canonical r) (s : Symbol) :
    Agrees r (r.canonicalRequests hr) (r.parameterElement generics s).run
      (Direct.parameterElement r generics s) := by
  unfold parameterElement Direct.parameterElement
  refine Agrees.bindOk (Agrees.known s _) fun d _ => ?_
  cases d.name.filter (!·.isEmpty) with
  | none => exact Agrees.pure _
  | some name =>
    refine Agrees.bindOk (agrees_resolve hr TypeArguments.canonical_empty d.type) fun type _ => ?_
    exact Agrees.bindOk (agrees_resolve hr hgenerics d.type) fun genericType _ => Agrees.pure _

theorem agrees_buildMethod {e : ClassElement} (he : e.arguments.Canonical r) (s : Symbol)
    (d : FunctionDeclaration) :
    Agrees r (r.canonicalRequests hr) (r.buildMethod e s d).run (Direct.buildMethod r e s d) := by
  unfold buildMethod Direct.buildMethod
  refine Agrees.bindOk (agrees_resolve hr TypeArguments.canonical_empty _) fun returnType _ => ?_
  refine Agrees.bindOk (agrees_resolve hr he _) fun genericReturnType _ => ?_
  refine Agrees.bindOk (Agrees.mapM fun p _ => agrees_parameterElement hr he p) fun ps _ => ?_
  exact Agrees.pure _

theorem agrees_buildConstructor {e : ClassElement} (he : e.arguments.Canonical r) (s : Symbol)
    (d : FunctionDeclaration) :
    Agrees r (r.canonicalRequests hr) (r.buildConstructor e s d).run
      (Direct.buildConstructor r e s d) := by
  unfold buildConstructor Direct.buildConstructor
  refine Agrees.bindOk (Agrees.mapM fun p _ => agrees_parameterElement hr he p) fun ps _ => ?_
  exact Agrees.pure _

theorem agrees_methodElement {e : ClassElement} (he : e.arguments.Canonical r) (s : Symbol) :
    Agrees r (r.canonicalRequests hr) (r.methodElement e s).run (Direct.methodElement r e s) := by
  unfold methodElement Direct.methodElement
  exact Agrees.bindOk (Agrees.known s _) fun d _ => agrees_buildMethod hr he s d

theorem agrees_constructorElement {e : ClassElement} (he : e.arguments.Canonical r)
    (s : Symbol) :
    Agrees r (r.canonicalRequests hr) (r.constructorElement e s).run
      (Direct.constructorElement r e s) := by
  unfold constructorElement Direct.constructorElement
  exact Agrees.bindOk (Agrees.known s _) fun d _ => agrees_buildConstructor hr he s d

omit hr in
theorem agrees_membersWhere {Q : Requests} {α : Type} {wanted : FunctionDeclaration → Bool}
    {build : Symbol → FunctionDeclaration → ResolveM α}
    {make : Symbol → FunctionDeclaration → Except Failure α}
    (h : ∀ s d, Agrees r Q (build s d).run (make s d)) (members : List Symbol) :
    Agrees r Q (r.membersWhere wanted build members).run
      (Direct.membersWhere r wanted make members) := by
  induction members with
  | nil => exact Agrees.pure _
  | cons s rest ih =>
    refine Agrees.bindOk (Agrees.known s _) fun d _ => ?_
    by_cases hwanted : wanted d = true
    · simp only [hwanted, if_true]
      refine Agrees.bindOk (h s d) fun member _ => ?_
      exact Agrees.bindOk ih fun members _ => Agrees.pure _
    · simp only [hwanted]
      exact ih

theorem agrees_constructors {e : ClassElement} (he : e.arguments.Canonical r) :
    Agrees r (r.canonicalRequests hr) (r.constructors e).run (Direct.constructors r e) := by
  unfold constructors Direct.constructors
  refine Agrees.bindOk (Agrees.known e.symbol _) fun d _ => ?_
  exact agrees_membersWhere (agrees_buildConstructor hr he) d.members

theorem agrees_methods {e : ClassElement} (he : e.arguments.Canonical r) :
    Agrees r (r.canonicalRequests hr) (r.methods e).run (Direct.methods r e) := by
  unfold methods Direct.methods
  refine Agrees.bindOk (Agrees.known e.symbol _) fun d _ => ?_
  exact agrees_membersWhere (agrees_buildMethod hr he) d.members

end

end Resolver

end BeanProcessing

import BeanProcessing.Proofs.Resolver.Transcript

/-!
# What every call is composed of

A resolver uses its memory in two ways: it asks for the element of a class under some bindings, and
for the placeholder of a type parameter under a substitution. Every other operation is put together
of these two. So what holds of both, and of computations that are put together of computations it
holds of, holds of every call.

`Composed` says so for a computation, and `composed_answer` for every call, whatever graph there is
and whatever the call passes on.
-/

namespace BeanProcessing.Resolver

variable {r : Resolver} {β γ : Type}

/-- Whether a computation is put together of requests for class elements and placeholders. -/
inductive Composed (r : Resolver) : {β : Type} → StateM Memory β → Prop
  | pure {β : Type} (b : β) : Composed r (pure b)
  | bind {β γ : Type} {action : StateM Memory β} {next : β → StateM Memory γ}
    (h : Composed r action) (hnext : ∀ b, Composed r (next b)) : Composed r (action >>= next)
  | classElement {s : Symbol} {d : ClassDeclaration} (hs : r.graph.classDeclaration? s = some d)
    (bindings : TypeArguments) : Composed r (r.classElement s d bindings)
  | placeholder {s : Symbol} {d : TypeParameterDeclaration}
    (hs : r.graph.typeParameter? s = some d) (generics : TypeArguments) :
    Composed r (r.placeholder s d generics)

/-! ## Computations that may fail -/

namespace Composed

theorem bindOk {action : ResolveM β} {next : β → ResolveM γ} (h : Composed r action.run)
    (hnext : ∀ b, Composed r (next b).run) : Composed r (action >>= next).run := by
  rw [ExceptT.run_bind]
  refine h.bind fun result => ?_
  cases result with
  | ok b => exact hnext b
  | error failure => exact Composed.pure _

theorem lift {action : StateM Memory β} {next : β → ResolveM γ} (h : Composed r action)
    (hnext : ∀ b, Composed r (next b).run) :
    Composed r ((liftM action : ResolveM β) >>= next).run :=
  h.bind hnext

theorem liftM {action : StateM Memory β} (h : Composed r action) :
    Composed r (liftM action : ResolveM β).run :=
  h.bind fun b => Composed.pure (Except.ok b)

theorem map {f : β → γ} {action : ResolveM β} (h : Composed r action.run) :
    Composed r (f <$> action).run := by
  rw [map_eq_pure_bind]
  exact h.bindOk fun b => Composed.pure (Except.ok (f b))

theorem mapM {f : β → ResolveM γ} {l : List β} (h : ∀ b ∈ l, Composed r (f b).run) :
    Composed r (l.mapM f).run := by
  induction l with
  | nil => exact Composed.pure _
  | cons b rest ih =>
    rw [List.mapM_cons]
    refine (h b List.mem_cons_self).bindOk fun c => ?_
    exact (ih fun b' hb' => h b' (List.mem_cons_of_mem b hb')).bindOk fun cs => Composed.pure _

/-- What follows a lookup runs only if something was found. -/
theorem known {s : Symbol} {found : Option β} {next : β → ResolveM γ}
    (hnext : ∀ b, found = some b → Composed r (next b).run) :
    Composed r (known s found >>= next).run := by
  cases found with
  | none => exact Composed.pure _
  | some b => exact hnext b rfl

end Composed

/-! ## Operations -/

theorem composed_bound {s : Symbol} {d : TypeParameterDeclaration}
    (hs : r.graph.typeParameter? s = some d) (generics : TypeArguments) :
    Composed r (r.bound s d generics) := by
  unfold bound
  cases r.binding? s d.name generics with
  | none => exact Composed.placeholder hs generics
  | some e => exact Composed.pure e

theorem composed_bindToPlaceholders (generics : TypeArguments) (parameters : List Symbol)
    (bindings : TypeArguments) :
    Composed r (r.bindToPlaceholders generics bindings parameters).run := by
  induction parameters generalizing bindings with
  | nil => exact Composed.pure _
  | cons p rest ih =>
    exact Composed.known fun d hd => (Composed.placeholder hd generics).lift fun e => ih _

theorem composed_bindToBounds (generics : TypeArguments) (parameters : List Symbol)
    (bindings : TypeArguments) :
    Composed r (r.bindToBounds generics bindings parameters).run := by
  induction parameters generalizing bindings with
  | nil => exact Composed.pure _
  | cons p rest ih =>
    exact Composed.known fun d hd => (composed_bound hd generics).lift fun e => ih _

theorem composed_elementOf (s : Symbol) : Composed r (r.elementOf s).run :=
  Composed.known fun _ hd =>
    (composed_bindToPlaceholders ∅ _ ∅).bindOk fun bindings =>
      (Composed.classElement hd bindings).liftM

theorem composed_topType : Composed r r.topType := by
  unfold topType
  cases r.graph.findClass? r.settings.topType with
  | none => exact Composed.pure _
  | some s =>
    refine (composed_elementOf s).bind fun result => ?_
    cases result with
    | ok e => exact Composed.pure _
    | error failure => exact Composed.pure _

mutual

theorem composed_resolve (generics : TypeArguments) : ∀ use : TypeUse,
    Composed r (r.resolve generics use).run
  | .declared s arguments => by
    rw [resolve]
    refine Composed.known fun d hd => ?_
    exact (composed_bindArguments generics arguments d.typeParameters ∅).bindOk fun bindings =>
      (Composed.classElement hd bindings).liftM
  | .typeVariable s => by
    rw [resolve]
    exact Composed.known fun d hd => (composed_bound hd generics).liftM
  | .array element dimensions => by
    rw [resolve]
    exact (composed_resolve generics element).bindOk fun e => Composed.pure _
  | .unresolved => by
    rw [resolve]
    exact composed_topType.liftM

theorem composed_bindArguments (generics : TypeArguments) : ∀ (arguments : List TypeUse)
    (parameters : List Symbol) (bindings : TypeArguments),
    Composed r (r.bindArguments generics bindings parameters arguments).run
  | [] => by
    intro parameters bindings
    rw [bindArguments]
    exact composed_bindToPlaceholders generics parameters bindings
  | argument :: rest => by
    intro parameters bindings
    cases parameters with
    | nil =>
      rw [bindArguments]
      exact Composed.pure _
    | cons p parameters =>
      rw [bindArguments]
      refine Composed.known fun d _ => ?_
      exact (composed_resolve generics argument).bindOk fun e =>
        composed_bindArguments generics rest parameters _

end

theorem composed_declaringClass? (s : Symbol) (generics : TypeArguments) :
    Composed r (r.declaringClass? s generics).run := by
  unfold declaringClass?
  cases r.graph.encounter s with
  | outside => exact Composed.pure _
  | repetition repeated => exact Composed.pure _
  | nearestClass outer =>
    refine Composed.known fun d hd => ?_
    refine (composed_bindToBounds generics _ _).bindOk fun bindings => ?_
    exact (Composed.classElement hd bindings).lift fun e => Composed.pure _

/-! ## Members -/

theorem composed_parameterElement (generics : TypeArguments) (s : Symbol) :
    Composed r (r.parameterElement generics s).run := by
  unfold parameterElement
  refine Composed.known fun d _ => ?_
  cases d.name.filter (!·.isEmpty) with
  | none => exact Composed.pure _
  | some name =>
    refine (composed_resolve ∅ d.type).bindOk fun type => ?_
    exact (composed_resolve generics d.type).bindOk fun genericType => Composed.pure _

theorem composed_buildMethod (e : ClassElement) (s : Symbol) (d : FunctionDeclaration) :
    Composed r (r.buildMethod e s d).run := by
  unfold buildMethod
  refine (composed_resolve _ _).bindOk fun returnType => ?_
  refine (composed_resolve _ _).bindOk fun genericReturnType => ?_
  refine (Composed.mapM fun p _ => composed_parameterElement _ p).bindOk fun ps => ?_
  exact Composed.pure _

theorem composed_buildConstructor (e : ClassElement) (s : Symbol) (d : FunctionDeclaration) :
    Composed r (r.buildConstructor e s d).run := by
  unfold buildConstructor
  refine (Composed.mapM fun p _ => composed_parameterElement _ p).bindOk fun ps => ?_
  exact Composed.pure _

theorem composed_membersWhere {wanted : FunctionDeclaration → Bool}
    {build : Symbol → FunctionDeclaration → ResolveM β} (h : ∀ s d, Composed r (build s d).run)
    (members : List Symbol) : Composed r (r.membersWhere wanted build members).run := by
  induction members with
  | nil => exact Composed.pure _
  | cons s rest ih =>
    refine Composed.known fun d _ => ?_
    by_cases hwanted : wanted d = true
    · simp only [hwanted, if_true]
      exact (h s d).bindOk fun member => ih.bindOk fun members => Composed.pure _
    · simp only [hwanted]
      exact ih

theorem composed_constructors (e : ClassElement) : Composed r (r.constructors e).run :=
  Composed.known fun d _ => composed_membersWhere (composed_buildConstructor e) d.members

theorem composed_methods (e : ClassElement) : Composed r (r.methods e).run :=
  Composed.known fun d _ => composed_membersWhere (composed_buildMethod e) d.members

/-- Every call is put together of requests for class elements and placeholders. -/
theorem composed_answer (c : Call) : Composed r (r.answer c).run := by
  cases c with
  | elementOf s => exact (composed_elementOf s).map
  | elementNamed qualifiedName =>
    refine Composed.map ?_
    unfold elementNamed?
    cases r.graph.findClass? qualifiedName with
    | none => exact Composed.pure _
    | some s => exact (composed_elementOf s).map
  | resolve use generics => exact (composed_resolve generics use).map
  | placeholder s generics =>
    refine Composed.map (Composed.known fun d hd => ?_)
    exact (Composed.placeholder hd generics).liftM
  | topType => exact composed_topType.liftM.map
  | declaringClass s generics => exact (composed_declaringClass? s generics).map
  | constructors e => exact (composed_constructors e).map
  | methods e => exact (composed_methods e).map
  | method s declaringType =>
    exact Composed.map (Composed.known fun d _ => composed_buildMethod declaringType s d)
  | constructor s declaringType =>
    exact Composed.map (Composed.known fun d _ => composed_buildConstructor declaringType s d)
  | parameter s generics => exact (composed_parameterElement generics s).map
  | bounds e =>
    cases e with
    | declared shape arguments => exact Composed.pure _
    | placeholder shape arguments v captured =>
      exact Composed.map (Composed.mapM fun bound _ => composed_resolve captured bound)
  | declaringElement e =>
    cases e with
    | declared shape arguments => exact (composed_declaringClass? shape.symbol ∅).map
    | placeholder shape arguments v captured =>
      exact (composed_declaringClass? shape.symbol captured).map

end BeanProcessing.Resolver

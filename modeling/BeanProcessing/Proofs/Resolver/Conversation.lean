import BeanProcessing.Proofs.Resolver.Arguments

/-!
# Conversations with a resolver

Whoever asks a resolver passes on elements that it returned before, their parts, and copies of them
with other dimensions, annotations or arguments. A `Conversation` is the record of such calls. It is
about any graph; only the names in substitutions may have to satisfy a predicate.

A property of elements is `Inherited` when every element has it that is made of elements that have
it. Such a property holds of all that a resolver keeps and of all that it returns
(`Conversation.invariant`).

Each operation is followed once, for all inherited properties: `Yields` says what holds of the value
of a computation, if everything that was kept before has the property.
-/

namespace BeanProcessing

variable {N : String → Prop} {Q : ClassElement → Prop}

/-! ## Substitutions -/

namespace TypeArguments

/-- Whether every name and every element in a substitution has a property. -/
def Each (N : String → Prop) (Q : ClassElement → Prop) (bindings : TypeArguments) : Prop :=
  ∀ entry ∈ bindings.toList, N entry.1 ∧ Q entry.2

theorem each_empty : (∅ : TypeArguments).Each N Q :=
  fun _ hentry => absurd hentry List.not_mem_nil

theorem each_cons {name : String} {e : ClassElement} {rest : TypeArguments} :
    (cons name e rest).Each N Q ↔ (N name ∧ Q e) ∧ rest.Each N Q :=
  List.forall_mem_cons

theorem Each.mono {N' : String → Prop} {Q' : ClassElement → Prop} {bindings : TypeArguments}
    (h : bindings.Each N Q) (hN : ∀ name, N name → N' name) (hQ : ∀ e, Q e → Q' e) :
    bindings.Each N' Q' :=
  fun entry hentry => ⟨hN _ (h entry hentry).1, hQ _ (h entry hentry).2⟩

theorem Each.insert {bindings : TypeArguments} (h : bindings.Each N Q) {name : String}
    (hname : N name) {e : ClassElement} (he : Q e) : (bindings.insert name e).Each N Q := by
  induction bindings with
  | nil => exact each_cons.2 ⟨⟨hname, he⟩, each_empty⟩
  | cons name' e' rest ih =>
    obtain ⟨hfirst, hrest⟩ := each_cons.1 h
    unfold TypeArguments.insert
    split
    · exact each_cons.2 ⟨⟨hfirst.1, he⟩, hrest⟩
    · exact each_cons.2 ⟨hfirst, ih hrest⟩

theorem Each.of_get? {bindings : TypeArguments} (h : bindings.Each N Q) {name : String}
    {e : ClassElement} (he : bindings.get? name = some e) : Q e :=
  (h _ (mem_toList_of_get? he)).2

end TypeArguments

namespace Resolver

variable {r : Resolver} {β γ : Type}

/-! ## Calls that pass on what was returned -/

/-- Whether an element can be had from those returned: it is one of them or a part of one, perhaps
with other dimensions, annotations or arguments. -/
inductive Obtained (N : String → Prop) (returned : List ClassElement) : ClassElement → Prop
  | returned {e : ClassElement} (h : e ∈ returned) : Obtained N returned e
  | withDimensions {e : ClassElement} (h : Obtained N returned e) (dimensions : Nat) :
    Obtained N returned (e.withDimensions dimensions)
  | withAnnotations {e : ClassElement} (h : Obtained N returned e) (annotations : AnnotationSet) :
    Obtained N returned (e.withAnnotations annotations)
  | withArguments {e : ClassElement} (h : Obtained N returned e) {arguments : TypeArguments}
    (hnodup : arguments.names.Nodup) (hnames : ∀ entry ∈ arguments.toList, N entry.1)
    (harguments : ∀ entry ∈ arguments.toList, Obtained N returned entry.2) :
    Obtained N returned (e.withArguments arguments)
  | argument {e f : ClassElement} {name : String} (h : Obtained N returned e)
    (hf : (name, f) ∈ e.arguments.toList) : Obtained N returned f
  | captured {e f : ClassElement} {name : String} (h : Obtained N returned e)
    (hf : (name, f) ∈ e.captured.toList) : Obtained N returned f

namespace Call

/-- The substitution that a call passes on. -/
def substitution : Call → TypeArguments
  | resolve _ generics => generics
  | placeholder _ generics => generics
  | declaringClass _ generics => generics
  | parameter _ generics => generics
  | _ => ∅

/-- The element that a call is about. -/
def subject? : Call → Option ClassElement
  | constructors e => some e
  | methods e => some e
  | method _ declaringType => some declaringType
  | constructor _ declaringType => some declaringType
  | bounds e => some e
  | declaringElement e => some e
  | _ => none

/-- Whether everything that a call passes on has a property. -/
def Passes (N : String → Prop) (Q : ClassElement → Prop) (c : Call) : Prop :=
  c.substitution.Each N Q ∧ ∀ e ∈ c.subject?, Q e

end Call

/-- The exchanges on one resolver, each of which passes on what was obtained before, and the memory
that they leave behind. -/
inductive Conversation (r : Resolver) (N : String → Prop) : List Exchange → Memory → Prop
  | start (log : Log) : Conversation r N [] { log }
  | call {exchanges : List Exchange} {m : Memory} (h : Conversation r N exchanges m) {c : Call}
    (hc : c.Passes N (Obtained N (returnedIn exchanges))) :
    Conversation r N (exchanges ++ [(c, ((r.answer c).run.run m).1)])
      ((r.answer c).run.run m).2

theorem Conversation.leftByCalls {exchanges : List Exchange} {m : Memory}
    (h : Conversation r N exchanges m) : LeftByCalls r m := by
  induction h with
  | start log => exact .start log
  | @call _ _ _ c _ ih => exact ih.call c

theorem Obtained.mono {N' : String → Prop} (hN : ∀ name, N name → N' name)
    {returned : List ClassElement} {e : ClassElement} (h : Obtained N returned e) :
    Obtained N' returned e := by
  induction h with
  | returned h => exact .returned h
  | withDimensions _ dimensions ih => exact ih.withDimensions dimensions
  | withAnnotations _ annotations ih => exact ih.withAnnotations annotations
  | withArguments _ hnodup hnames _ ih iharguments =>
    exact ih.withArguments hnodup (fun entry hentry => hN _ (hnames entry hentry)) iharguments
  | argument _ hf ih => exact ih.argument hf
  | captured _ hf ih => exact ih.captured hf

/-- A conversation stays one when more names are allowed in substitutions. -/
theorem Conversation.mono {N' : String → Prop} (hN : ∀ name, N name → N' name)
    {exchanges : List Exchange} {m : Memory} (h : Conversation r N exchanges m) :
    Conversation r N' exchanges m := by
  induction h with
  | start log => exact .start log
  | call _ hc ih =>
    exact ih.call ⟨hc.1.mono hN fun _ he => he.mono hN, fun e he => (hc.2 e he).mono hN⟩

/-! ## Inherited properties -/

/-- Whether a graph declares some type parameters. -/
def DeclaresAll (g : SymbolGraph) (parameters : List Symbol) : Prop :=
  ∀ p ∈ parameters, (g.typeParameter? p).isSome

/-- Whether bindings for some type parameters are of elements with a property, under names with
another of which none is repeated, and all these type parameters are declared. -/
structure BindsEach (r : Resolver) (N : String → Prop) (Q : ClassElement → Prop)
    (parameters : List Symbol) (bindings : TypeArguments) : Prop where
  each : bindings.Each N Q
  nodup : bindings.names.Nodup
  declares : DeclaresAll r.graph parameters

theorem BindsEach.nil {r : Resolver} {bindings : TypeArguments} (heach : bindings.Each N Q)
    (hnodup : bindings.names.Nodup) : BindsEach r N Q [] bindings :=
  ⟨heach, hnodup, fun _ hp => absurd hp List.not_mem_nil⟩

/-- Whether every element that is made of elements with a property, under names with another, has
the property too, and so have its parts. A class is made if all its type parameters are declared,
and the top type is bare if it has no class that can be made. -/
structure Inherited (r : Resolver) (N : String → Prop) (Q : ClassElement → Prop) : Prop where
  name {s : Symbol} {d : TypeParameterDeclaration} (hs : r.graph.typeParameter? s = some d) :
    N d.name
  declared {s : Symbol} {d : ClassDeclaration} {bindings : TypeArguments}
    (hs : r.graph.classDeclaration? s = some d) (h : BindsEach r N Q d.typeParameters bindings) :
    Q (r.declaredElement s d bindings)
  placeholder {s : Symbol} {d : TypeParameterDeclaration} {generics : TypeArguments}
    (hs : r.graph.typeParameter? s = some d) (h : generics.Each N Q) :
    Q (r.placeholderElement s d generics)
  bare (h : ∀ s d, r.graph.findClass? r.settings.topType = some s →
    r.graph.classDeclaration? s = some d → ¬ DeclaresAll r.graph d.typeParameters) :
    Q (bareElement r.settings.topType)
  withDimensions {e : ClassElement} (h : Q e) (dimensions : Nat) : Q (e.withDimensions dimensions)
  withAnnotations {e : ClassElement} (h : Q e) (annotations : AnnotationSet) :
    Q (e.withAnnotations annotations)
  withArguments {e : ClassElement} (h : Q e) {arguments : TypeArguments}
    (hnodup : arguments.names.Nodup) (harguments : arguments.Each N Q) :
    Q (e.withArguments arguments)
  arguments {e : ClassElement} (h : Q e) : e.arguments.Each N Q
  captured {e : ClassElement} (h : Q e) : e.captured.Each N Q

/-- Whether every element that a resolver makes of elements with a property, under names with
another, has the property too, and so have its parts. A resolver binds the type parameters of a
class in the order in which their names were met first, and copies with other annotations or
arguments are not made by it. -/
structure Produced (r : Resolver) (N : String → Prop) (Q : ClassElement → Prop) : Prop where
  name {s : Symbol} {d : TypeParameterDeclaration} (hs : r.graph.typeParameter? s = some d) :
    N d.name
  declared {s : Symbol} {d : ClassDeclaration} {bindings : TypeArguments}
    (hs : r.graph.classDeclaration? s = some d) (h : BindsEach r N Q d.typeParameters bindings)
    (hnames : bindings.names = parameterNames r.graph d.typeParameters) :
    Q (r.declaredElement s d bindings)
  placeholder {s : Symbol} {d : TypeParameterDeclaration} {generics : TypeArguments}
    (hs : r.graph.typeParameter? s = some d) (h : generics.Each N Q) :
    Q (r.placeholderElement s d generics)
  bare (h : ∀ s d, r.graph.findClass? r.settings.topType = some s →
    r.graph.classDeclaration? s = some d → ¬ DeclaresAll r.graph d.typeParameters) :
    Q (bareElement r.settings.topType)
  withDimensions {e : ClassElement} (h : Q e) (dimensions : Nat) : Q (e.withDimensions dimensions)
  arguments {e : ClassElement} (h : Q e) : e.arguments.Each N Q
  captured {e : ClassElement} (h : Q e) : e.captured.Each N Q

theorem Inherited.produced (h : Inherited r N Q) : Produced r N Q where
  name := h.name
  declared hs hbindings _ := h.declared hs hbindings
  placeholder := h.placeholder
  bare := h.bare
  withDimensions := h.withDimensions
  arguments := h.arguments
  captured := h.captured

theorem Obtained.of_returned (hQ : Inherited r N Q) {returned : List ClassElement}
    (hreturned : ∀ e ∈ returned, Q e) {e : ClassElement} (h : Obtained N returned e) : Q e := by
  induction h with
  | returned h => exact hreturned _ h
  | withDimensions _ dimensions ih => exact hQ.withDimensions ih dimensions
  | withAnnotations _ annotations ih => exact hQ.withAnnotations ih annotations
  | withArguments _ hnodup hnames _ ih iharguments =>
    exact hQ.withArguments ih hnodup fun entry hentry =>
      ⟨hnames entry hentry, iharguments entry hentry⟩
  | argument _ hf ih => exact (hQ.arguments ih _ hf).2
  | captured _ hf ih => exact (hQ.captured ih _ hf).2

/-! ## Computations -/

/-- Whether every answer in a memory has a property. -/
def HoldsOnly (Q : ClassElement → Prop) (m : Memory) : Prop :=
  ∀ key e, m.answers.get? key = some e → Q e

theorem HoldsOnly.insert {m : Memory} (hm : HoldsOnly Q m) {e : ClassElement} (he : Q e)
    (key : CacheKey) (log : Log) : HoldsOnly Q ⟨m.answers.insert key e, log⟩ := by
  intro key' e' he'
  have hget : (m.answers.insert key e).get? key' = some e' := he'
  rw [Table.get?_insert] at hget
  split at hget
  · cases hget
    exact he
  · exact hm key' e' hget

/-- Whether what a computation came to, unless it failed, has a property. -/
def OfOk (P : β → Prop) (result : Except Failure β) : Prop := ∀ b, result = .ok b → P b

/-- Whether a computation comes to something with a property, and keeps answers with a property
only, in every memory of such answers. -/
def Yields (Q : ClassElement → Prop) (P : β → Prop) (action : StateM Memory β) : Prop :=
  ∀ m, HoldsOnly Q m → P (action.run m).1 ∧ HoldsOnly Q (action.run m).2

namespace Yields

variable {P : β → Prop} {R : γ → Prop}

theorem pure {b : β} (hb : P b) : Yields Q P (pure b) := fun _ hm => ⟨hb, hm⟩

theorem ok {b : β} (hb : P b) : Yields Q (OfOk P) (Pure.pure (Except.ok b)) :=
  Yields.pure fun _ h => Except.ok.inj h ▸ hb

theorem error (failure : Failure) : Yields Q (OfOk P) (Pure.pure (Except.error failure)) :=
  Yields.pure nofun

theorem mono {P' : β → Prop} {action : StateM Memory (Except Failure β)}
    (h : Yields Q (OfOk P) action) (hP : ∀ b, P b → P' b) : Yields Q (OfOk P') action :=
  fun m hm => ⟨fun b hb => hP b ((h m hm).1 b hb), (h m hm).2⟩

/-- What a computation comes to has every property besides that all its successful runs have. -/
theorem along {P' : β → Prop} {action : ResolveM β} (h : Yields Q (OfOk P) action.run)
    (hP : ∀ {m m' : Memory} {b : β}, action.run.run m = (.ok b, m') → P' b) :
    Yields Q (OfOk fun b => P b ∧ P' b) action.run :=
  fun m hm => ⟨fun b hb => ⟨(h m hm).1 b hb, hP (Prod.ext hb rfl)⟩, (h m hm).2⟩

theorem bind {action : StateM Memory β} {next : β → StateM Memory γ} (h : Yields Q P action)
    (hnext : ∀ b, P b → Yields Q R (next b)) : Yields Q R (action >>= next) := by
  intro m hm
  obtain ⟨hb, hm'⟩ := h m hm
  exact hnext _ hb _ hm'

theorem bindOk {action : ResolveM β} {next : β → ResolveM γ} (h : Yields Q (OfOk P) action.run)
    (hnext : ∀ b, P b → Yields Q (OfOk R) (next b).run) :
    Yields Q (OfOk R) (action >>= next).run := by
  rw [ExceptT.run_bind]
  refine h.bind fun result hresult => ?_
  cases result with
  | ok b => exact hnext b (hresult b rfl)
  | error failure => exact Yields.error failure

theorem lift {action : StateM Memory β} {next : β → ResolveM γ} (h : Yields Q P action)
    (hnext : ∀ b, P b → Yields Q (OfOk R) (next b).run) :
    Yields Q (OfOk R) ((liftM action : ResolveM β) >>= next).run :=
  h.bind hnext

theorem liftM {action : StateM Memory β} (h : Yields Q P action) :
    Yields Q (OfOk P) (liftM action : ResolveM β).run :=
  h.bind fun _ hb => Yields.ok hb

theorem map {f : β → γ} {action : ResolveM β} (h : Yields Q (OfOk P) action.run)
    (hf : ∀ b, P b → R (f b)) : Yields Q (OfOk R) (f <$> action).run := by
  rw [map_eq_pure_bind]
  exact h.bindOk fun b hb => Yields.ok (hf b hb)

theorem mapM {f : β → ResolveM γ} {l : List β} (h : ∀ b ∈ l, Yields Q (OfOk R) (f b).run) :
    Yields Q (OfOk fun cs => ∀ c ∈ cs, R c) (l.mapM f).run := by
  induction l with
  | nil => exact Yields.ok fun _ hc => absurd hc List.not_mem_nil
  | cons b rest ih =>
    rw [List.mapM_cons]
    refine (h b List.mem_cons_self).bindOk fun c hc => ?_
    refine (ih fun b' hb' => h b' (List.mem_cons_of_mem b hb')).bindOk fun cs hcs => ?_
    exact Yields.ok (List.forall_mem_cons.2 ⟨hc, hcs⟩)

/-- What follows a lookup runs only if something was found. -/
theorem known {s : Symbol} {found : Option β} {next : β → ResolveM γ}
    (hnext : ∀ b, found = some b → Yields Q (OfOk R) (next b).run) :
    Yields Q (OfOk R) (known s found >>= next).run := by
  cases found with
  | none => exact Yields.error _
  | some b => exact hnext b rfl

end Yields

/-! ## Operations -/

theorem yields_classElement {s : Symbol} {d : ClassDeclaration} {bindings : TypeArguments}
    (hmade : Q (r.declaredElement s d bindings)) : Yields Q Q (r.classElement s d bindings) := by
  intro m hm
  obtain ⟨e, hget, hrun⟩ | ⟨-, event, hrun⟩ := run_classElement_cases r s d bindings m
  · rw [hrun]
    exact ⟨hm _ e hget, hm⟩
  · rw [hrun]
    exact ⟨hmade, hm.insert hmade _ _⟩

section

variable (hQ : Produced r N Q)
include hQ

theorem yields_placeholder {s : Symbol} {d : TypeParameterDeclaration}
    (hs : r.graph.typeParameter? s = some d) {generics : TypeArguments}
    (hgenerics : generics.Each N Q) : Yields Q Q (r.placeholder s d generics) := by
  intro m hm
  have hmade := hQ.placeholder hs hgenerics
  obtain ⟨e, hfound, hrun⟩ | ⟨-, ⟨event, hrun⟩ | hrun⟩ := run_placeholder_cases r s d generics m
  · rw [hrun]
    exact ⟨hm _ e (Option.filter_eq_some_iff.1 hfound).1, hm⟩
  · rw [hrun]
    exact ⟨hmade, hm.insert hmade _ _⟩
  · rw [hrun]
    exact ⟨hmade, hm.insert hmade _ _⟩

theorem yields_bound {s : Symbol} {d : TypeParameterDeclaration}
    (hs : r.graph.typeParameter? s = some d) {generics : TypeArguments}
    (hgenerics : generics.Each N Q) : Yields Q Q (r.bound s d generics) := by
  unfold bound binding?
  split
  · next e he =>
    split at he
    · exact Yields.pure (hgenerics.of_get? he)
    · cases he
  · exact yields_placeholder hQ hs hgenerics

omit hQ in
/-- Bindings of some type parameters are bindings of one more that is declared. -/
theorem BindsEach.cons {p : Symbol} {d : TypeParameterDeclaration}
    (hp : r.graph.typeParameter? p = some d) {parameters : List Symbol} {bindings : TypeArguments}
    (h : BindsEach r N Q parameters bindings) : BindsEach r N Q (p :: parameters) bindings :=
  ⟨h.each, h.nodup, List.forall_mem_cons.2 ⟨Option.isSome_of_eq_some hp, h.declares⟩⟩

theorem yields_bindToPlaceholders {generics : TypeArguments} (hgenerics : generics.Each N Q)
    (parameters : List Symbol) {bindings : TypeArguments} (hbindings : bindings.Each N Q)
    (hnodup : bindings.names.Nodup) :
    Yields Q (OfOk (BindsEach r N Q parameters))
      (r.bindToPlaceholders generics bindings parameters).run := by
  induction parameters generalizing bindings with
  | nil => exact Yields.ok (.nil hbindings hnodup)
  | cons p rest ih =>
    refine Yields.known fun d hd => ?_
    refine (yields_placeholder hQ hd hgenerics).lift fun e he => ?_
    exact (ih (hbindings.insert (hQ.name hd) he) (nodup_insert_names hnodup _ _)).mono
      fun _ h => h.cons hd

theorem yields_bindToBounds {generics : TypeArguments} (hgenerics : generics.Each N Q)
    (parameters : List Symbol) {bindings : TypeArguments} (hbindings : bindings.Each N Q)
    (hnodup : bindings.names.Nodup) :
    Yields Q (OfOk (BindsEach r N Q parameters))
      (r.bindToBounds generics bindings parameters).run := by
  induction parameters generalizing bindings with
  | nil => exact Yields.ok (.nil hbindings hnodup)
  | cons p rest ih =>
    refine Yields.known fun d hd => ?_
    refine (yields_bound hQ hd hgenerics).lift fun e he => ?_
    exact (ih (hbindings.insert (hQ.name hd) he) (nodup_insert_names hnodup _ _)).mono
      fun _ h => h.cons hd

theorem yields_elementOf (s : Symbol) : Yields Q (OfOk Q) (r.elementOf s).run := by
  refine Yields.known fun d hd => ?_
  have hbind := yields_bindToPlaceholders hQ TypeArguments.each_empty d.typeParameters
    TypeArguments.each_empty List.nodup_nil
  refine (hbind.along names_of_run_bindToPlaceholders).bindOk fun bindings hbindings => ?_
  obtain ⟨heach, hnames⟩ := hbindings
  exact (yields_classElement (hQ.declared hd heach hnames)).liftM

omit hQ in
/-- A class whose type parameters are declared can be made in every memory. -/
theorem exists_run_elementOf {s : Symbol} {d : ClassDeclaration}
    (hs : r.graph.classDeclaration? s = some d)
    (hdeclares : DeclaresAll r.graph d.typeParameters) (m : Memory) :
    ∃ e, ((r.elementOf s).run.run m).1 = .ok e := by
  have hbind : ∀ (parameters : List Symbol) (bindings : TypeArguments) (m : Memory),
      DeclaresAll r.graph parameters →
      ∃ bindings' m', (r.bindToPlaceholders ∅ bindings parameters).run.run m
        = (.ok bindings', m') := by
    intro parameters
    induction parameters with
    | nil => exact fun bindings m _ => ⟨bindings, m, rfl⟩
    | cons p rest ih =>
      intro bindings m hall
      obtain ⟨hp, hrest⟩ := List.forall_mem_cons.1 hall
      obtain ⟨dp, hdp⟩ := Option.isSome_iff_exists.1 hp
      obtain ⟨bindings', m', hrun⟩ := ih (bindings.insert dp.name ((r.placeholder p dp ∅).run m).1)
        ((r.placeholder p dp ∅).run m).2 hrest
      refine ⟨bindings', m', ?_⟩
      rw [bindToPlaceholders, typeParameter, hdp]
      exact hrun
  obtain ⟨bindings, m', hrun⟩ := hbind d.typeParameters ∅ m hdeclares
  refine ⟨((r.classElement s d bindings).run m').1, ?_⟩
  rw [elementOf, classDeclaration, hs, Resolver.known, pure_bind, run_bind_of_eq_ok hrun]
  rfl

theorem yields_topType : Yields Q Q r.topType := by
  unfold topType
  cases hfind : r.graph.findClass? r.settings.topType with
  | none => exact Yields.pure (hQ.bare fun _ _ h => by rw [hfind] at h; cases h)
  | some s =>
    -- if the class cannot be made in one memory, not all its type parameters are declared
    have hfails : ∀ m failure, ((r.elementOf s).run.run m).1 = .error failure →
        ∀ s' d, r.graph.findClass? r.settings.topType = some s' →
        r.graph.classDeclaration? s' = some d → ¬ DeclaresAll r.graph d.typeParameters := by
      intro m failure hfailure s' d hs' hd hdeclares
      obtain rfl := Option.some.inj (hfind.symm.trans hs')
      obtain ⟨e, he⟩ := exists_run_elementOf hd hdeclares m
      rw [hfailure] at he
      cases he
    have helement : Yields Q (fun result => OfOk Q result ∧
        ∀ failure, result = .error failure → Q (bareElement r.settings.topType))
        (r.elementOf s).run := fun m hm =>
      ⟨⟨(yields_elementOf hQ s m hm).1, fun failure h => hQ.bare (hfails m failure h)⟩,
        (yields_elementOf hQ s m hm).2⟩
    refine helement.bind fun result ⟨hok, hbare⟩ => ?_
    cases result with
    | ok e => exact Yields.pure (hok e rfl)
    | error failure => exact Yields.pure (hbare failure rfl)

mutual

theorem yields_resolve {generics : TypeArguments} (hgenerics : generics.Each N Q) :
    ∀ use : TypeUse, Yields Q (OfOk Q) (r.resolve generics use).run
  | .declared s arguments => by
    rw [resolve]
    refine Yields.known fun d hd => ?_
    have hbind := yields_bindArguments hgenerics arguments d.typeParameters
      TypeArguments.each_empty List.nodup_nil
    refine (hbind.along names_of_run_bindArguments).bindOk fun bindings hbindings => ?_
    obtain ⟨heach, hnames⟩ := hbindings
    exact (yields_classElement (hQ.declared hd heach hnames)).liftM
  | .typeVariable s => by
    rw [resolve]
    exact Yields.known fun d hd => (yields_bound hQ hd hgenerics).liftM
  | .array element dimensions => by
    rw [resolve]
    exact (yields_resolve hgenerics element).bindOk fun e he => Yields.ok (hQ.withDimensions he _)
  | .unresolved => by
    rw [resolve]
    exact (yields_topType hQ).liftM

theorem yields_bindArguments {generics : TypeArguments} (hgenerics : generics.Each N Q) :
    ∀ (arguments : List TypeUse) (parameters : List Symbol) {bindings : TypeArguments},
      bindings.Each N Q → bindings.names.Nodup →
      Yields Q (OfOk (BindsEach r N Q parameters))
        (r.bindArguments generics bindings parameters arguments).run
  | [] => by
    intro parameters bindings hbindings hnodup
    rw [bindArguments]
    exact yields_bindToPlaceholders hQ hgenerics parameters hbindings hnodup
  | argument :: rest => by
    intro parameters bindings hbindings hnodup
    cases parameters with
    | nil =>
      rw [bindArguments]
      exact Yields.ok (.nil hbindings hnodup)
    | cons p parameters =>
      rw [bindArguments]
      refine Yields.known fun d hd => ?_
      refine (yields_resolve hgenerics argument).bindOk fun e he => ?_
      exact (yields_bindArguments hgenerics rest parameters (hbindings.insert (hQ.name hd) he)
        (nodup_insert_names hnodup _ _)).mono fun _ h => h.cons hd

end

theorem yields_declaringClass? (s : Symbol) {generics : TypeArguments}
    (hgenerics : generics.Each N Q) :
    Yields Q (OfOk fun found : Option ClassElement => ∀ e ∈ found.toList, Q e)
      (r.declaringClass? s generics).run := by
  unfold declaringClass?
  cases r.graph.encounter s with
  | outside => exact Yields.ok fun _ he => absurd he List.not_mem_nil
  | repetition repeated => exact Yields.error _
  | nearestClass outer =>
    refine Yields.known fun d hd => ?_
    have hbind := yields_bindToBounds hQ hgenerics d.typeParameters TypeArguments.each_empty
      List.nodup_nil
    refine (hbind.along names_of_run_bindToBounds).bindOk fun bindings hbindings => ?_
    obtain ⟨heach, hnames⟩ := hbindings
    refine (yields_classElement (hQ.declared hd heach hnames)).lift fun e he => ?_
    exact Yields.ok (List.forall_mem_singleton.2 he)

/-! ## Members -/

theorem yields_parameterElement {generics : TypeArguments} (hgenerics : generics.Each N Q)
    (s : Symbol) :
    Yields Q (OfOk fun p => ∀ e ∈ typesOfParameter p, Q e) (r.parameterElement generics s).run := by
  unfold parameterElement
  refine Yields.known fun d _ => ?_
  cases d.name.filter (!·.isEmpty) with
  | none => exact Yields.error _
  | some name =>
    refine (yields_resolve hQ TypeArguments.each_empty d.type).bindOk fun type htype => ?_
    refine (yields_resolve hQ hgenerics d.type).bindOk fun genericType hgenericType => ?_
    exact Yields.ok (List.forall_mem_cons.2 ⟨htype, List.forall_mem_singleton.2 hgenericType⟩)

theorem yields_parameters {generics : TypeArguments} (hgenerics : generics.Each N Q)
    (symbols : List Symbol) :
    Yields Q (OfOk fun ps => ∀ e ∈ ps.flatMap typesOfParameter, Q e)
      (symbols.mapM (r.parameterElement generics)).run := by
  have heach := Yields.mapM (l := symbols) fun s _ => yields_parameterElement hQ hgenerics s
  intro m hm
  obtain ⟨hps, hm'⟩ := heach m hm
  refine ⟨fun ps hok e he => ?_, hm'⟩
  obtain ⟨p, hp, he⟩ := List.mem_flatMap.1 he
  exact hps ps hok p hp e he

theorem yields_buildMethod {e : ClassElement} (he : Q e) (s : Symbol) (d : FunctionDeclaration) :
    Yields Q (OfOk fun m => ∀ f ∈ typesOfMethod m, Q f) (r.buildMethod e s d).run := by
  unfold buildMethod
  refine (yields_resolve hQ TypeArguments.each_empty _).bindOk fun returnType hreturn => ?_
  refine (yields_resolve hQ (hQ.arguments he) _).bindOk fun genericReturnType hgeneric => ?_
  refine (yields_parameters hQ (hQ.arguments he) _).bindOk fun ps hps => ?_
  exact Yields.ok (List.forall_mem_cons.2 ⟨he, List.forall_mem_cons.2 ⟨hreturn,
    List.forall_mem_cons.2 ⟨hgeneric, hps⟩⟩⟩)

theorem yields_buildConstructor {e : ClassElement} (he : Q e) (s : Symbol)
    (d : FunctionDeclaration) :
    Yields Q (OfOk fun c => ∀ f ∈ typesOfConstructor c, Q f) (r.buildConstructor e s d).run := by
  unfold buildConstructor
  refine (yields_parameters hQ (hQ.arguments he) _).bindOk fun ps hps => ?_
  exact Yields.ok (List.forall_mem_cons.2 ⟨he, hps⟩)

omit hQ in
theorem yields_membersWhere {P : β → Prop} {wanted : FunctionDeclaration → Bool}
    {build : Symbol → FunctionDeclaration → ResolveM β}
    (h : ∀ s d, Yields Q (OfOk P) (build s d).run) (members : List Symbol) :
    Yields Q (OfOk fun built => ∀ b ∈ built, P b) (r.membersWhere wanted build members).run := by
  induction members with
  | nil => exact Yields.ok fun _ hb => absurd hb List.not_mem_nil
  | cons s rest ih =>
    refine Yields.known fun d _ => ?_
    by_cases hwanted : wanted d = true
    · simp only [hwanted, if_true]
      refine (h s d).bindOk fun member hmember => ih.bindOk fun members hmembers => ?_
      exact Yields.ok (List.forall_mem_cons.2 ⟨hmember, hmembers⟩)
    · simp only [hwanted]
      exact ih

/-- A call that passes on elements with an inherited property is answered with such elements. -/
theorem yields_answer {c : Call} (hc : c.Passes N Q) :
    Yields Q (OfOk fun a : Answer => ∀ e ∈ a.types, Q e) (r.answer c).run := by
  obtain ⟨hsubstitution, hsubject⟩ := hc
  cases c with
  | elementOf s => exact (yields_elementOf hQ s).map fun e he => List.forall_mem_singleton.2 he
  | elementNamed qualifiedName =>
    refine Yields.map (P := fun found : Option ClassElement => ∀ e ∈ found.toList, Q e) ?_
      fun _ hfound => hfound
    unfold elementNamed?
    cases r.graph.findClass? qualifiedName with
    | none => exact Yields.ok fun _ he => absurd he List.not_mem_nil
    | some s => exact (yields_elementOf hQ s).map fun e he => List.forall_mem_singleton.2 he
  | resolve use generics =>
    exact (yields_resolve hQ hsubstitution use).map fun e he => List.forall_mem_singleton.2 he
  | placeholder s generics =>
    refine Yields.map (P := Q) ?_ fun e he => List.forall_mem_singleton.2 he
    exact Yields.known fun d hd => (yields_placeholder hQ hd hsubstitution).liftM
  | topType => exact (yields_topType hQ).liftM.map fun e he => List.forall_mem_singleton.2 he
  | declaringClass s generics =>
    exact (yields_declaringClass? hQ s hsubstitution).map fun _ hfound => hfound
  | constructors e =>
    refine Yields.map (P := fun cs => ∀ c ∈ cs, ∀ f ∈ typesOfConstructor c, Q f) ?_
      fun cs hcs => List.forall_mem_flatMap.2 hcs
    refine Yields.known fun d _ => ?_
    exact yields_membersWhere (yields_buildConstructor hQ (hsubject e rfl)) d.members
  | methods e =>
    refine Yields.map (P := fun ms => ∀ m ∈ ms, ∀ f ∈ typesOfMethod m, Q f) ?_
      fun ms hms => List.forall_mem_flatMap.2 hms
    refine Yields.known fun d _ => ?_
    exact yields_membersWhere (yields_buildMethod hQ (hsubject e rfl)) d.members
  | method s declaringType =>
    refine Yields.map (P := fun m => ∀ f ∈ typesOfMethod m, Q f) ?_ fun _ hm => hm
    exact Yields.known fun d _ => yields_buildMethod hQ (hsubject declaringType rfl) s d
  | constructor s declaringType =>
    refine Yields.map (P := fun c => ∀ f ∈ typesOfConstructor c, Q f) ?_ fun _ hc => hc
    exact Yields.known fun d _ => yields_buildConstructor hQ (hsubject declaringType rfl) s d
  | parameter s generics =>
    exact (yields_parameterElement hQ hsubstitution s).map fun _ hp => hp
  | bounds e =>
    cases e with
    | declared shape arguments => exact Yields.ok fun _ he => absurd he List.not_mem_nil
    | placeholder shape arguments v captured =>
      have hcaptured : captured.Each N Q := hQ.captured (hsubject _ rfl)
      refine Yields.map (P := fun es => ∀ e ∈ es, Q e) ?_ fun _ hes => hes
      exact Yields.mapM fun use _ => yields_resolve hQ hcaptured use
  | declaringElement e =>
    cases e with
    | declared shape arguments =>
      exact (yields_declaringClass? hQ _ TypeArguments.each_empty).map fun _ hfound => hfound
    | placeholder shape arguments v captured =>
      have hcaptured : captured.Each N Q := hQ.captured (hsubject _ rfl)
      exact (yields_declaringClass? hQ _ hcaptured).map fun _ hfound => hfound

/-- Whatever is kept or was returned after one call more has a property, if that holds of what was
kept and returned before and of what the call passes on. -/
theorem HoldsOnly.call {exchanges : List Exchange} {m : Memory} (hm : HoldsOnly Q m)
    (hreturned : ∀ e ∈ returnedIn exchanges, Q e) {c : Call} (hc : c.Passes N Q) :
    HoldsOnly Q ((r.answer c).run.run m).2 ∧
      ∀ e ∈ returnedIn (exchanges ++ [(c, ((r.answer c).run.run m).1)]), Q e := by
  obtain ⟨hanswer, hm'⟩ := yields_answer hQ hc m hm
  refine ⟨hm', fun e he => ?_⟩
  rw [returnedIn, List.flatMap_append, List.mem_append] at he
  rcases he with he | he
  · exact hreturned e he
  -- it is in the answer to the last call
  · rw [List.flatMap_singleton] at he
    cases hresult : ((r.answer c).run.run m).1 with
    | error failure =>
      rw [hresult] at he
      cases he
    | ok a =>
      rw [hresult] at he
      exact hanswer a hresult e he

end

/-! ## Whole conversations -/

section

variable (hQ : Inherited r N Q)
include hQ

theorem Call.Passes.of_returned {returned : List ClassElement} (hreturned : ∀ e ∈ returned, Q e)
    {c : Call} (hc : c.Passes N (Obtained N returned)) : c.Passes N Q :=
  ⟨hc.1.mono (fun _ h => h) fun _ he => he.of_returned hQ hreturned,
    fun e he => (hc.2 e he).of_returned hQ hreturned⟩

/-- Whatever is kept or returned in a conversation has every inherited property. -/
theorem Conversation.invariant {exchanges : List Exchange} {m : Memory}
    (h : Conversation r N exchanges m) :
    HoldsOnly Q m ∧ ∀ e ∈ returnedIn exchanges, Q e := by
  induction h with
  | start log => exact ⟨nofun, fun e he => absurd he List.not_mem_nil⟩
  | call _ hc ih => exact ih.1.call hQ.produced ih.2 (hc.of_returned hQ ih.2)

theorem Conversation.of_obtained {exchanges : List Exchange} {m : Memory}
    (h : Conversation r N exchanges m) {e : ClassElement}
    (he : Obtained N (returnedIn exchanges) e) : Q e :=
  he.of_returned hQ (h.invariant hQ).2

end

end Resolver

end BeanProcessing

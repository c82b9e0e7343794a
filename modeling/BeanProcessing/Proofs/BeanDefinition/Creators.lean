import BeanProcessing.BeanDefinition.Visitor
import BeanProcessing.Proofs.Resolver.Failures
import Mathlib.Data.List.Forall2
import Mathlib.Data.Option.Basic

/-!
# Choosing the constructor of a bean

The constructor that makes a bean is chosen among the constructors that its class declares. The
choice looks at their annotations and modifiers and at how many there are, which are all in the
graph, and not at their parameters. `Chosen` says which one it is, for declarations and for elements
alike; since a member that was built has the annotations and modifiers that it was declared with,
what is chosen among elements is the element of what is chosen among declarations.
-/

namespace BeanProcessing

/-! ## Members that are declared -/

namespace SymbolGraph

/-- The functions among some members that are wanted, with their declarations. -/
def functionsAmong (g : SymbolGraph) (wanted : FunctionDeclaration → Bool)
    (members : List Symbol) : List (Symbol × FunctionDeclaration) :=
  (members.filterMap fun s => (g.functionDeclaration? s).map fun d => (s, d)).filter (wanted ·.2)

/-- The members of a class that are wanted, in order of declaration. -/
def functionsOf (g : SymbolGraph) (wanted : FunctionDeclaration → Bool) (s : Symbol) :
    List (Symbol × FunctionDeclaration) :=
  ((g.classDeclaration? s).map fun d => g.functionsAmong wanted d.members).getD []

/-- The constructors that a class declares. -/
def constructorsOf (g : SymbolGraph) : Symbol → List (Symbol × FunctionDeclaration) :=
  g.functionsOf (·.isConstructor)

/-- The methods that a class declares. -/
def methodsOf (g : SymbolGraph) : Symbol → List (Symbol × FunctionDeclaration) :=
  g.functionsOf (!·.isConstructor)

/-- The names that the parameters of a function are declared with. -/
def parameterNamesOf (g : SymbolGraph) (d : FunctionDeclaration) : List (Option String) :=
  d.parameters.map fun p => (g.valueParameter? p).bind (·.name)

variable {g : SymbolGraph} {wanted : FunctionDeclaration → Bool} {s : Symbol}
  {d : FunctionDeclaration} {members : List Symbol}

theorem functionsAmong_cons_of_wanted (hs : g.functionDeclaration? s = some d)
    (hwanted : wanted d = true) :
    g.functionsAmong wanted (s :: members) = (s, d) :: g.functionsAmong wanted members := by
  simp [functionsAmong, hs, hwanted]

theorem functionsAmong_cons_of_not_wanted (hs : g.functionDeclaration? s = some d)
    (hwanted : ¬ wanted d = true) :
    g.functionsAmong wanted (s :: members) = g.functionsAmong wanted members := by
  simp [functionsAmong, hs, hwanted]

theorem functionsOf_eq {d : ClassDeclaration} (hs : g.classDeclaration? s = some d) :
    g.functionsOf wanted s = g.functionsAmong wanted d.members := by
  rw [functionsOf, hs]
  rfl

theorem functionDeclaration?_of_mem_functionsOf {x : Symbol × FunctionDeclaration}
    (h : x ∈ g.functionsOf wanted s) : g.functionDeclaration? x.1 = some x.2 := by
  cases hd : g.classDeclaration? s with
  | none =>
    rw [functionsOf, hd] at h
    cases h
  | some d =>
    rw [functionsOf_eq hd] at h
    obtain ⟨s, -, hx⟩ := List.mem_filterMap.1 (List.mem_filter.1 h).1
    obtain ⟨d, hd, rfl⟩ := Option.map_eq_some_iff.1 hx
    exact hd

/-- If all members are functions, building some of them fails over the first of these to fail. -/
theorem membersFailure?_eq_findSome? {failure? : FunctionDeclaration → Option Failure}
    (h : ∀ s ∈ members, (g.functionDeclaration? s).isSome) :
    g.membersFailure? wanted failure? members
      = (g.functionsAmong wanted members).findSome? (failure? ·.2) := by
  induction members with
  | nil => rfl
  | cons s rest ih =>
    obtain ⟨hs, hrest⟩ := List.forall_mem_cons.1 h
    obtain ⟨d, hd⟩ := Option.isSome_iff_exists.1 hs
    rw [membersFailure?_cons, hd, Option.elim_some, ih hrest]
    by_cases hwanted : wanted d = true
    · rw [if_pos hwanted, functionsAmong_cons_of_wanted hd hwanted, findSome?_cons_or]
    · rw [if_neg hwanted, functionsAmong_cons_of_not_wanted hd hwanted, Option.none_or]

/-- Members that can be built are functions, those that are not wanted too. -/
theorem isSome_of_membersFailure?_eq_none {failure? : FunctionDeclaration → Option Failure}
    (h : g.membersFailure? wanted failure? members = none) :
    ∀ s ∈ members, (g.functionDeclaration? s).isSome := by
  intro s hs
  have hmember := List.findSome?_eq_none_iff.1 h s hs
  cases hd : g.functionDeclaration? s with
  | some d => rfl
  | none =>
    rw [hd] at hmember
    cases hmember

end SymbolGraph

/-! ## Members that were built -/

namespace Resolver

variable {r : Resolver} {β γ : Type} {m m' : Memory} {e : ClassElement} {s : Symbol}
  {d : FunctionDeclaration}

/-- What is built of members is built in order, each from its own declaration, and is settled from
then on. -/
theorem settled_of_run_membersWhere {wanted : FunctionDeclaration → Bool}
    {build : Symbol → FunctionDeclaration → ResolveM β}
    (hbuild : ∀ s d, Composed r (build s d).run) {members : List Symbol} {built : List β}
    (hm : Keyed r m) (h : (r.membersWhere wanted build members).run.run m = (.ok built, m')) :
    List.Forall₂
      (fun x b => r.graph.functionDeclaration? x.1 = some x.2 ∧ Settled (build x.1 x.2) m' b)
      (r.graph.functionsAmong wanted members) built := by
  induction members generalizing built m with
  | nil =>
    cases h
    exact List.Forall₂.nil
  | cons s rest ih =>
    obtain ⟨d, between, hknown, hnext⟩ := run_bind_eq_ok h
    obtain ⟨hs, rfl⟩ := run_known_eq_ok hknown
    by_cases hwanted : wanted d = true
    · rw [if_pos hwanted] at hnext
      obtain ⟨b, between, hfirst, hnext⟩ := run_bind_eq_ok hnext
      obtain ⟨others, between', hothers, hpure⟩ := run_bind_eq_ok hnext
      cases hpure
      have hkeyed := ((hbuild s d).keyed_and_within_of_run hm hfirst).1
      have hcomposed : Composed r (r.membersWhere wanted build rest).run :=
        composed_membersWhere hbuild rest
      have hwithin := (hcomposed.keyed_and_within_of_run hkeyed hothers).2
      rw [SymbolGraph.functionsAmong_cons_of_wanted hs hwanted]
      exact .cons ⟨hs, ((hbuild s d).settled hm hfirst).mono hwithin⟩ (ih hkeyed hothers)
    · rw [if_neg hwanted] at hnext
      rw [SymbolGraph.functionsAmong_cons_of_not_wanted hs hwanted]
      exact ih hm hnext

theorem constructorElement_eq (hs : r.graph.functionDeclaration? s = some d) (e : ClassElement) :
    r.constructorElement e s = r.buildConstructor e s d := by
  rw [constructorElement, functionDeclaration, hs, known, pure_bind]

theorem methodElement_eq (hs : r.graph.functionDeclaration? s = some d) (e : ClassElement) :
    r.methodElement e s = r.buildMethod e s d := by
  rw [methodElement, functionDeclaration, hs, known, pure_bind]

/-- A parameter has the name that it is declared with. -/
theorem name_of_run_parameterElement {generics : TypeArguments} {p : Symbol}
    {parameter : ParameterElement}
    (h : (r.parameterElement generics p).run.run m = (.ok parameter, m')) :
    some parameter.name = (r.graph.valueParameter? p).bind (·.name) := by
  obtain ⟨d, between, hknown, hnext⟩ := run_bind_eq_ok h
  obtain ⟨hp, rfl⟩ := run_known_eq_ok hknown
  cases hname : d.name.filter (!·.isEmpty) with
  | none =>
    rw [hname] at hnext
    cases hnext
  | some name =>
    rw [hname] at hnext
    obtain ⟨type, between, -, hnext⟩ := run_bind_eq_ok hnext
    obtain ⟨genericType, between', -, hpure⟩ := run_bind_eq_ok hnext
    cases hpure
    rw [hp, Option.bind_some]
    exact (Option.eq_some_of_filter_eq_some hname).symm

theorem names_of_run_parameters {generics : TypeArguments} {symbols : List Symbol}
    {parameters : List ParameterElement}
    (h : (symbols.mapM (r.parameterElement generics)).run.run m = (.ok parameters, m')) :
    (parameters.map (·.name)).map some
      = symbols.map fun p => (r.graph.valueParameter? p).bind (·.name) := by
  induction symbols generalizing parameters m with
  | nil =>
    cases h
    rfl
  | cons p rest ih =>
    rw [List.mapM_cons] at h
    obtain ⟨parameter, between, hfirst, hnext⟩ := run_bind_eq_ok h
    obtain ⟨others, between', hothers, hpure⟩ := run_bind_eq_ok hnext
    cases hpure
    rw [List.map_cons, List.map_cons, List.map_cons, name_of_run_parameterElement hfirst,
      ih hothers]

/-- Whether a constructor element is what a declared constructor is, looked at from a class. -/
structure MadeFrom (r : Resolver) (e : ClassElement) (x : Symbol × FunctionDeclaration)
    (k : ConstructorElement) : Prop where
  symbol : k.symbol = x.1
  declaringType : k.declaringType = e
  modifiers : k.modifiers = x.2.modifiers
  annotations : k.annotations = r.graph.annotations x.1
  names : (k.parameters.map (·.name)).map some = r.graph.parameterNamesOf x.2

theorem madeFrom_of_run_buildConstructor {k : ConstructorElement}
    (h : (r.buildConstructor e s d).run.run m = (.ok k, m')) : MadeFrom r e (s, d) k := by
  obtain ⟨parameters, between, hparameters, hpure⟩ := run_bind_eq_ok h
  cases hpure
  exact ⟨rfl, rfl, rfl, rfl, names_of_run_parameters hparameters⟩

/-- A method has its own symbol and annotations. -/
theorem symbol_of_run_buildMethod {method : MethodElement}
    (h : (r.buildMethod e s d).run.run m = (.ok method, m')) :
    method.symbol = s ∧ method.annotations = r.graph.annotations s := by
  obtain ⟨returnType, between, -, hnext⟩ := run_bind_eq_ok h
  obtain ⟨genericReturnType, between, -, hnext⟩ := run_bind_eq_ok hnext
  obtain ⟨parameters, between, -, hpure⟩ := run_bind_eq_ok hnext
  cases hpure
  exact ⟨rfl, rfl⟩

/-- The constructors of a class are those that it declares, in order. -/
theorem settled_of_run_constructors {ks : List ConstructorElement} (hm : Keyed r m)
    (h : (r.constructors e).run.run m = (.ok ks, m')) :
    List.Forall₂ (fun x k => Settled (r.constructorElement e x.1) m' k ∧ MadeFrom r e x k)
      (r.graph.constructorsOf e.symbol) ks := by
  obtain ⟨d, between, hknown, hnext⟩ := run_bind_eq_ok h
  obtain ⟨hd, rfl⟩ := run_known_eq_ok hknown
  rw [SymbolGraph.constructorsOf, SymbolGraph.functionsOf_eq hd]
  refine (settled_of_run_membersWhere (composed_buildConstructor e) hm hnext).imp ?_
  rintro x k ⟨hx, hsettled⟩
  refine ⟨?_, madeFrom_of_run_buildConstructor (hsettled m' (.refl m'))⟩
  rwa [constructorElement_eq hx]

/-- The methods of a class are those that it declares, in order. -/
theorem settled_of_run_methods {ms : List MethodElement} (hm : Keyed r m)
    (h : (r.methods e).run.run m = (.ok ms, m')) :
    List.Forall₂ (fun x method => Settled (r.methodElement e x.1) m' method ∧
        method.symbol = x.1 ∧ method.annotations = r.graph.annotations x.1)
      (r.graph.methodsOf e.symbol) ms := by
  obtain ⟨d, between, hknown, hnext⟩ := run_bind_eq_ok h
  obtain ⟨hd, rfl⟩ := run_known_eq_ok hknown
  rw [SymbolGraph.methodsOf, SymbolGraph.functionsOf_eq hd]
  refine (settled_of_run_membersWhere (composed_buildMethod e) hm hnext).imp ?_
  rintro x method ⟨hx, hsettled⟩
  refine ⟨?_, symbol_of_run_buildMethod (hsettled m' (.refl m'))⟩
  rwa [methodElement_eq hx]

end Resolver

/-! ## The choice -/

/-- Which of some constructors makes a bean: the first that is preferred, or else the only one, or
else the first that is accessible. -/
inductive Chosen {κ : Type} (preferred accessible : κ → Bool) (constructors : List κ) : κ → Prop
  | preferred {k : κ} (h : constructors.find? preferred = some k) :
    Chosen preferred accessible constructors k
  | only {k : κ} (h : constructors = [k]) (hnone : ∀ j ∈ constructors, preferred j = false) :
    Chosen preferred accessible constructors k
  | accessible {k : κ} (h : constructors.find? accessible = some k)
    (hnone : ∀ j ∈ constructors, preferred j = false) (hlength : constructors.length ≠ 1) :
    Chosen preferred accessible constructors k

section Chosen

variable {κ κ' : Type} {preferred accessible : κ → Bool} {preferred' accessible' : κ' → Bool}
  {l : List κ} {l' : List κ'} {R : κ → κ' → Prop} {k : κ}

theorem find?_eq_none_iff_eq_false {p : κ → Bool} :
    l.find? p = none ↔ ∀ j ∈ l, p j = false := by
  simp [List.find?_eq_none]

/-- There is nothing to choose if no constructor is preferred, there is not just one, and none is
accessible. -/
theorem exists_chosen_iff : (∃ k, Chosen preferred accessible l k) ↔
    ¬ ((∀ j ∈ l, preferred j = false) ∧ l.length ≠ 1 ∧ ∀ j ∈ l, accessible j = false) := by
  constructor
  · rintro ⟨k, hk⟩ ⟨hnone, hlength, hclosed⟩
    cases hk with
    | preferred h =>
      rw [find?_eq_none_iff_eq_false.2 hnone] at h
      cases h
    | only h => exact hlength (by rw [h]; rfl)
    | accessible h =>
      rw [find?_eq_none_iff_eq_false.2 hclosed] at h
      cases h
  · intro h
    cases hpreferred : l.find? preferred with
    | some k => exact ⟨k, .preferred hpreferred⟩
    | none =>
      have hnone := find?_eq_none_iff_eq_false.1 hpreferred
      by_cases hlength : l.length = 1
      · obtain ⟨k, hk⟩ := List.length_eq_one_iff.1 hlength
        exact ⟨k, .only hk hnone⟩
      cases haccessible : l.find? accessible with
      | some k => exact ⟨k, .accessible haccessible hnone hlength⟩
      | none =>
        exact absurd ⟨hnone, hlength, find?_eq_none_iff_eq_false.1 haccessible⟩ h

/-- The first of some things with a property is related to the first of their relatives with it. -/
theorem find?_of_forall₂ {p : κ → Bool} {p' : κ' → Bool} (h : List.Forall₂ R l l')
    (hp : ∀ a b, R a b → p a = p' b) : Option.Rel R (l.find? p) (l'.find? p') := by
  induction h with
  | nil => exact .none
  | @cons a b l l' hab _ ih =>
    rw [List.find?_cons, List.find?_cons, ← hp a b hab]
    cases p a with
    | true => exact .some hab
    | false => exact ih

theorem exists_find?_of_forall₂ {p : κ → Bool} {p' : κ' → Bool} (h : List.Forall₂ R l l')
    (hp : ∀ a b, R a b → p a = p' b) (hfind : l.find? p = some k) :
    ∃ k', l'.find? p' = some k' ∧ R k k' := by
  have hrel := find?_of_forall₂ h hp
  rw [hfind] at hrel
  generalize l'.find? p' = found at hrel
  cases hrel with
  | some hk => exact ⟨_, rfl, hk⟩

theorem eq_false_of_forall₂ {p : κ → Bool} {p' : κ' → Bool} (h : List.Forall₂ R l l')
    (hp : ∀ a b, R a b → p a = p' b) (hnone : ∀ j ∈ l, p j = false) :
    ∀ j ∈ l', p' j = false := by
  have hrel := find?_of_forall₂ h hp
  rw [find?_eq_none_iff_eq_false.2 hnone] at hrel
  refine find?_eq_none_iff_eq_false.1 ?_
  generalize l'.find? p' = found at hrel
  cases hrel
  rfl

/-- What is chosen among some things is related to what is chosen among their relatives. -/
theorem Chosen.exists_of_forall₂ (hk : Chosen preferred accessible l k)
    (h : List.Forall₂ R l l') (hpreferred : ∀ a b, R a b → preferred a = preferred' b)
    (haccessible : ∀ a b, R a b → accessible a = accessible' b) :
    ∃ k', R k k' ∧ Chosen preferred' accessible' l' k' := by
  cases hk with
  | preferred hfind =>
    obtain ⟨k', hfound, hk⟩ := exists_find?_of_forall₂ h hpreferred hfind
    exact ⟨k', hk, .preferred hfound⟩
  | only heq hnone =>
    have hnone' := eq_false_of_forall₂ h hpreferred hnone
    subst heq
    obtain ⟨k', rest, hk, hrest, rfl⟩ := List.forall₂_cons_left_iff.1 h
    cases hrest
    exact ⟨k', hk, .only rfl hnone'⟩
  | accessible hfind hnone hlength =>
    have hnone' := eq_false_of_forall₂ h hpreferred hnone
    obtain ⟨k', hfound, hk⟩ := exists_find?_of_forall₂ h haccessible hfind
    exact ⟨k', hk, .accessible hfound hnone' (h.length_eq ▸ hlength)⟩

end Chosen

/-- The choice that is made among elements. -/
theorem Settings.chooseCreator?_eq_some_iff {settings : Settings} {ks : List ConstructorElement}
    {k : ConstructorElement} :
    settings.chooseCreator? ks = some k ↔
      Chosen (·.annotations.hasDeclared settings.injectMarker) (!·.isPrivate) ks k := by
  unfold chooseCreator?
  cases hpreferred : ks.find? (·.annotations.hasDeclared settings.injectMarker) with
  | some k' =>
    have hsome : ¬ ∀ j ∈ ks, j.annotations.hasDeclared settings.injectMarker = false := by
      rw [← find?_eq_none_iff_eq_false, hpreferred]
      exact nofun
    refine ⟨fun h => .preferred (hpreferred.trans h), fun h => ?_⟩
    cases h with
    | preferred h => exact hpreferred.symm.trans h
    | only _ hnone => exact absurd hnone hsome
    | accessible _ hnone => exact absurd hnone hsome
  | none =>
    have hnone := find?_eq_none_iff_eq_false.1 hpreferred
    dsimp only
    split
    · next k' =>
      refine ⟨fun h => .only (Option.some.inj h ▸ rfl) hnone, fun h => ?_⟩
      cases h with
      | preferred h =>
        rw [hpreferred] at h
        cases h
      | only h => exact congrArg some (List.singleton_inj.1 h)
      | accessible _ _ hlength => exact absurd rfl hlength
    · next hlength =>
      refine ⟨fun h => .accessible h hnone fun h => ?_, fun h => ?_⟩
      · obtain ⟨k', hk'⟩ := List.length_eq_one_iff.1 h
        exact hlength k' hk'
      cases h with
      | preferred h =>
        rw [hpreferred] at h
        cases h
      | only h => exact absurd h (hlength k)
      | accessible h => exact h

namespace Resolver

variable {r : Resolver} {m m' : Memory} {e : ClassElement} {x : Symbol × FunctionDeclaration}
  {ks : List ConstructorElement}

/-- Whether a declared function carries the inject annotation itself. -/
def isInjected (r : Resolver) (x : Symbol × FunctionDeclaration) : Bool :=
  (r.graph.annotations x.1).hasDeclared r.settings.injectMarker

/-- Whether a declared function can be called from outside its class. -/
def isAccessible (x : Symbol × FunctionDeclaration) : Bool :=
  !x.2.modifiers.contains .privateAccess

/-- Whether a constructor that a class declares is the one that makes its beans. -/
def Creates (r : Resolver) (e : ClassElement) (x : Symbol × FunctionDeclaration) : Prop :=
  Chosen r.isInjected isAccessible (r.graph.constructorsOf e.symbol) x

theorem MadeFrom.hasDeclared_eq {k : ConstructorElement} (h : MadeFrom r e x k) :
    r.isInjected x = k.annotations.hasDeclared r.settings.injectMarker := by
  rw [isInjected, h.annotations]

theorem MadeFrom.isPrivate_eq {k : ConstructorElement} (h : MadeFrom r e x k) :
    isAccessible x = !k.isPrivate := by
  rw [isAccessible, ConstructorElement.isPrivate, h.modifiers]

/-- The constructor that a class is found to declare is chosen among the elements, too. -/
theorem Creates.exists_chooseCreator? (hx : r.Creates e x) (hm : Keyed r m)
    (h : (r.constructors e).run.run m = (.ok ks, m')) :
    ∃ k, r.settings.chooseCreator? ks = some k ∧ Settled (r.constructorElement e x.1) m' k ∧
      MadeFrom r e x k := by
  have hchosen := Chosen.exists_of_forall₂ hx (settled_of_run_constructors hm h)
    (fun _ _ hk => hk.2.hasDeclared_eq) fun _ _ hk => hk.2.isPrivate_eq
  obtain ⟨k, ⟨hsettled, hmade⟩, hk⟩ := hchosen
  exact ⟨k, Settings.chooseCreator?_eq_some_iff.2 hk, hsettled, hmade⟩

/-- No element is chosen exactly if no declaration is. -/
theorem chooseCreator?_eq_none_iff (hm : Keyed r m)
    (h : (r.constructors e).run.run m = (.ok ks, m')) :
    r.settings.chooseCreator? ks = none ↔ ¬ ∃ x, r.Creates e x := by
  rw [← not_iff_not, not_not, ← Ne, Option.ne_none_iff_exists']
  constructor
  · rintro ⟨k, hk⟩
    -- the same relation, read from elements to declarations
    have hflip := (settled_of_run_constructors hm h).flip
    have hchosen := (Settings.chooseCreator?_eq_some_iff.1 hk).exists_of_forall₂ hflip
      (fun _ _ hx => hx.2.hasDeclared_eq.symm) fun _ _ hx => hx.2.isPrivate_eq.symm
    obtain ⟨x, -, hx⟩ := hchosen
    exact ⟨x, hx⟩
  · rintro ⟨x, hx⟩
    obtain ⟨k, hk, -⟩ := hx.exists_chooseCreator? hm h
    exact ⟨k, hk⟩

end Resolver

end BeanProcessing

import BeanProcessing.Proofs.Element.Equality
import BeanProcessing.Proofs.Resolver.Transcript

/-!
# Substitution of type arguments

A use of a generic class binds its type parameters to the arguments of the use. Resolving a type
under these bindings is the same as writing the arguments in the places of the type parameters
first, and resolving what that gives under the substitution that the use of the class was resolved
under. Both fail alike, or both come to elements of one type; only the substitutions that
placeholders capture differ, and they do not matter to the type.

* `TypeUse.substitute` writes type uses in the places of type variables.
* `SameOutcome` compares what two computations come to.
* `sameOutcome_resolve_substitute` is the induction over type uses, from any relation between two
  substitutions that holds for the variables of the use.
* `Reached` memories are those that any calls leave behind; the answers do not depend on them.
-/

namespace BeanProcessing

/-! ## Variables of type uses -/

namespace TypeUse

mutual

/-- The type variables in a use, in order. -/
def typeVariables : TypeUse → List Symbol
  | declared _ arguments => typeVariablesOfAll arguments
  | typeVariable s => [s]
  | array element _ => element.typeVariables
  | unresolved => []

/-- The type variables in some uses, in order. -/
def typeVariablesOfAll : List TypeUse → List Symbol
  | [] => []
  | use :: rest => use.typeVariables ++ typeVariablesOfAll rest

end

mutual

/-- The use with type uses in the places of its variables; a variable without one stays. -/
def substitute (replacement? : Symbol → Option TypeUse) : TypeUse → TypeUse
  | declared s arguments => declared s (substituteAll replacement? arguments)
  | typeVariable s => (replacement? s).getD (typeVariable s)
  | array element dimensions => array (element.substitute replacement?) dimensions
  | unresolved => unresolved

/-- Some uses with type uses in the places of their variables. -/
def substituteAll (replacement? : Symbol → Option TypeUse) : List TypeUse → List TypeUse
  | [] => []
  | use :: rest => use.substitute replacement? :: substituteAll replacement? rest

end

/-- The type uses for some type parameters, each for the parameter in the same position. -/
def forParameters (parameters : List Symbol) (arguments : List TypeUse) (s : Symbol) :
    Option TypeUse :=
  Table.lookup s (parameters.zip arguments)

/-- Whether every variable in a use is one of some type parameters or declared by a function. -/
def InScope (g : SymbolGraph) (parameters : List Symbol) (use : TypeUse) : Prop :=
  ∀ v ∈ use.typeVariables, v ∈ parameters ∨ ∃ f, g.enclosing? v = some f ∧ f.kind = .function

end TypeUse

namespace Resolver

variable {r : Resolver}

/-! ## Outcomes -/

/-- Whether two computations fail alike or come to related values. -/
def SameOutcome {α β : Type} (R : α → β → Prop) : Except Failure α → Except Failure β → Prop
  | .ok a, .ok b => R a b
  | .error failure, .error failure' => failure = failure'
  | .ok _, .error _ => False
  | .error _, .ok _ => False

theorem SameOutcome.bind {α β γ δ : Type} {R : α → β → Prop} {S : γ → δ → Prop}
    {x : Except Failure α} {y : Except Failure β} {f : α → Except Failure γ}
    {g : β → Except Failure δ} (h : SameOutcome R x y)
    (hnext : ∀ a b, R a b → SameOutcome S (f a) (g b)) : SameOutcome S (x >>= f) (y >>= g) := by
  cases x with
  | error failure =>
    cases y with
    | error failure' => exact h
    | ok b => exact h.elim
  | ok a =>
    cases y with
    | error failure' => exact h.elim
    | ok b => exact hnext a b h

/-- A computation has the outcome of itself when its value is related to itself. -/
theorem SameOutcome.refl {α : Type} {R : α → α → Prop} {x : Except Failure α}
    (h : ∀ a, x = .ok a → R a a) : SameOutcome R x x := by
  cases x with
  | error failure => exact rfl
  | ok a => exact h a rfl

theorem SameOutcome.exists_eq_ok {α β : Type} {R : α → β → Prop} {x : Except Failure α}
    {y : Except Failure β} (h : SameOutcome R x y) {a : α} (ha : x = .ok a) :
    ∃ b, y = .ok b ∧ R a b := by
  cases ha
  cases y with
  | error failure => exact h.elim
  | ok b => exact ⟨b, rfl, h⟩

/-! ## Names of canonical elements -/

theorem nodup_insert_names {bindings : TypeArguments} (h : bindings.names.Nodup) (name : String)
    (e : ClassElement) : (bindings.insert name e).names.Nodup := by
  rw [TypeArguments.names_insert]
  split
  · exact h
  · next hname =>
    rw [← List.concat_eq_append]
    exact List.Nodup.concat hname h

theorem nodup_parameterNames (g : SymbolGraph) (parameters : List Symbol) :
    (parameterNames g parameters).Nodup := by
  have hfold : ∀ names : List String, names.Nodup →
      (parameters.foldl (addParameterName g) names).Nodup := by
    induction parameters with
    | nil => exact fun names h => h
    | cons p rest ih =>
      intro names h
      refine ih _ ?_
      unfold addParameterName
      split
      · split
        · exact h
        · next hname =>
          rw [← List.concat_eq_append]
          exact List.Nodup.concat hname h
      · exact h
  exact hfold [] List.nodup_nil

end Resolver

open Resolver

variable {r : Resolver}

mutual

theorem ClassElement.Canonical.uniqueNames :
    ∀ e : ClassElement, e.Canonical r → e.UniqueNames
  | .declared shape arguments => by
    intro h
    refine TypeArguments.Canonical.uniqueNames arguments h.2 ?_
    rcases h.1 with ⟨d, -, -, hnames, -⟩ | ⟨-, hbare⟩
    · rw [show arguments.names = parameterNames r.graph d.typeParameters from hnames]
      exact nodup_parameterNames r.graph d.typeParameters
    · rw [show arguments = ∅ from congrArg ClassElement.arguments hbare]
      exact List.nodup_nil
  | .placeholder shape arguments v captured => by
    intro h
    obtain ⟨⟨d, -, hmade⟩, -⟩ := h
    have harguments : arguments = ∅ := congrArg ClassElement.arguments hmade
    rw [ClassElement.UniqueNames, harguments]
    trivial

theorem TypeArguments.Canonical.uniqueNames :
    ∀ bindings : TypeArguments, bindings.Canonical r → bindings.names.Nodup → bindings.UniqueNames
  | .nil => fun _ _ => trivial
  | .cons name e rest => by
    intro h hnodup
    obtain ⟨hname, hrest⟩ := List.nodup_cons.1 hnodup
    exact ⟨hname, ClassElement.Canonical.uniqueNames e h.2.1,
      TypeArguments.Canonical.uniqueNames rest h.2.2 hrest⟩

end

theorem ClassElement.Canonical.sameType_refl {e : ClassElement} (h : e.Canonical r) :
    e.sameType e = true :=
  ClassElement.sameType_refl e (ClassElement.Canonical.uniqueNames e h)

namespace Resolver

/-! ## Substitution -/

variable {generics generics' : TypeArguments}

/-- Whether bindings are of the same types, under names of which none is repeated. -/
def SameBindings (as bs : TypeArguments) : Prop := as.Matches bs ∧ bs.names.Nodup

theorem SameBindings.empty : SameBindings ∅ ∅ := ⟨trivial, List.nodup_nil⟩

theorem SameBindings.insert {as bs : TypeArguments} (h : SameBindings as bs) (name : String)
    {e f : ClassElement} (hsame : e.sameType f = true) :
    SameBindings (as.insert name e) (bs.insert name f) :=
  ⟨h.1.insert name hsame, nodup_insert_names h.2 name f⟩

/-- What a placeholder captured does not matter to its type. -/
theorem sameType_placeholderElement (s : Symbol) (d : TypeParameterDeclaration) :
    (r.placeholderElement s d generics).sameType (r.placeholderElement s d generics') = true :=
  ClassElement.sameType_placeholder (ClassShape.sameType_refl _) SameBindings.empty.1
    List.nodup_nil _ _ _

theorem sameType_declaredElement (s : Symbol) (d : ClassDeclaration) {as bs : TypeArguments}
    (h : SameBindings as bs) :
    (r.declaredElement s d as).sameType (r.declaredElement s d bs) = true :=
  ClassElement.sameType_declared (ClassShape.sameType_refl _) h.1 h.2

theorem sameOutcome_bindToPlaceholders (parameters : List Symbol) {as bs : TypeArguments}
    (h : SameBindings as bs) :
    SameOutcome SameBindings (Direct.bindToPlaceholders r generics as parameters)
      (Direct.bindToPlaceholders r generics' bs parameters) := by
  induction parameters generalizing as bs with
  | nil => exact h
  | cons p rest ih =>
    refine SameOutcome.bind (SameOutcome.refl fun _ _ => rfl) fun d d' hd => ?_
    obtain rfl : d = d' := hd
    exact ih (h.insert d.name (sameType_placeholderElement p d))

/-- Whether two computations of class elements fail alike or come to elements of one type. -/
abbrev SameTypeOutcome : Except Failure ClassElement → Except Failure ClassElement → Prop :=
  SameOutcome fun e f => e.sameType f = true

variable {replacement? : Symbol → Option TypeUse}

mutual

/-- Substitution is about variables only: what holds of each variable in a use holds of the use. -/
theorem sameOutcome_resolve_substitute (hr : r.Readable) : ∀ use : TypeUse,
    (∀ v ∈ use.typeVariables, SameTypeOutcome (Direct.resolve r generics (.typeVariable v))
      (Direct.resolve r generics' (TypeUse.typeVariable v |>.substitute replacement?))) →
    SameTypeOutcome (Direct.resolve r generics use)
      (Direct.resolve r generics' (use.substitute replacement?))
  | .declared s arguments => by
    intro h
    rw [TypeUse.substitute, Direct.resolve, Direct.resolve]
    refine SameOutcome.bind (SameOutcome.refl fun _ _ => rfl) fun d d' hd => ?_
    obtain rfl : d = d' := hd
    refine SameOutcome.bind ?_ fun as bs hbindings => sameType_declaredElement s d hbindings
    exact sameOutcome_bindArguments_substituteAll hr arguments h d.typeParameters SameBindings.empty
  | .typeVariable s => by
    intro h
    exact h s (List.mem_singleton.2 rfl)
  | .array element dimensions => by
    intro h
    rw [TypeUse.substitute, Direct.resolve, Direct.resolve]
    refine SameOutcome.bind (sameOutcome_resolve_substitute hr element h) fun e f hsame => ?_
    show (e.withDimensions (e.dimensions + dimensions)).sameType
      (f.withDimensions (f.dimensions + dimensions)) = true
    rw [ClassElement.dimensions_eq_of_sameType hsame]
    exact ClassElement.sameType_withDimensions hsame _
  | .unresolved => by
    intro _
    rw [TypeUse.substitute, Direct.resolve, Direct.resolve]
    exact (canonical_topType hr).sameType_refl

theorem sameOutcome_bindArguments_substituteAll (hr : r.Readable) : ∀ uses : List TypeUse,
    (∀ v ∈ TypeUse.typeVariablesOfAll uses,
      SameTypeOutcome (Direct.resolve r generics (.typeVariable v))
        (Direct.resolve r generics' (TypeUse.typeVariable v |>.substitute replacement?))) →
    ∀ (parameters : List Symbol) {as bs : TypeArguments}, SameBindings as bs →
    SameOutcome SameBindings (Direct.bindArguments r generics as parameters uses)
      (Direct.bindArguments r generics' bs parameters (TypeUse.substituteAll replacement? uses))
  | [] => by
    intro _ parameters as bs hsame
    rw [TypeUse.substituteAll, Direct.bindArguments, Direct.bindArguments]
    exact sameOutcome_bindToPlaceholders parameters hsame
  | use :: rest => by
    intro h parameters as bs hsame
    rw [TypeUse.substituteAll]
    cases parameters with
    | nil =>
      -- arguments beyond the last parameter are not looked at on either side
      rw [Direct.bindArguments, Direct.bindArguments]
      exact hsame
    | cons p parameters =>
      have huse := sameOutcome_resolve_substitute hr use fun v hv =>
        h v (List.mem_append_left _ hv)
      rw [Direct.bindArguments, Direct.bindArguments]
      refine SameOutcome.bind (SameOutcome.refl fun _ _ => rfl) fun d d' hd => ?_
      obtain rfl : d = d' := hd
      refine SameOutcome.bind huse fun e f hef => ?_
      exact sameOutcome_bindArguments_substituteAll hr rest
        (fun v hv => h v (List.mem_append_right _ hv)) parameters (hsame.insert d.name hef)

end

/-! ## The arguments of a class -/

variable {owner : Symbol} {parameters : List Symbol} {arguments : List TypeUse}

/-- The names of those type parameters that are declared. -/
def declaredNames (g : SymbolGraph) (parameters : List Symbol) : List String :=
  parameters.filterMap fun p => (g.typeParameter? p).map (·.name)

theorem declaredNames_cons {g : SymbolGraph} {p : Symbol} {d : TypeParameterDeclaration}
    (hp : g.typeParameter? p = some d) (rest : List Symbol) :
    declaredNames g (p :: rest) = d.name :: declaredNames g rest :=
  List.filterMap_cons_some (by rw [hp]; rfl)

/-- Binding type parameters leaves alone what is under other names. -/
theorem Binds.get?_eq {bindings bindings' : TypeArguments}
    (h : Binds r parameters bindings bindings') {name : String}
    (hname : name ∉ declaredNames r.graph parameters) :
    bindings'.get? name = bindings.get? name := by
  induction h with
  | nil => rfl
  | cons hp _ _ ih =>
    rw [declaredNames_cons hp] at hname
    have hne := List.ne_of_not_mem_cons hname
    rw [ih (List.not_mem_of_not_mem_cons hname), TypeArguments.get?_insert, if_neg (Ne.symm hne)]

/-- Under the name of each type parameter stands what its argument was resolved to. -/
theorem get?_of_bindArguments (hr : r.Readable) (hgenerics : generics.Canonical r)
    {bindings bindings' : TypeArguments} (hlength : arguments.length = parameters.length)
    (hnames : (declaredNames r.graph parameters).Nodup)
    (h : Direct.bindArguments r generics bindings parameters arguments = .ok bindings')
    {p : Symbol} {a : TypeUse} (hp : TypeUse.forParameters parameters arguments p = some a) :
    ∃ d e, r.graph.typeParameter? p = some d ∧ Direct.resolve r generics a = .ok e ∧
      bindings'.get? d.name = some e := by
  induction arguments generalizing parameters bindings with
  | nil =>
    rw [TypeUse.forParameters, List.zip_nil_right] at hp
    cases hp
  | cons argument rest ih =>
    cases parameters with
    | nil => cases hlength
    | cons q parameters =>
      rw [Direct.bindArguments] at h
      obtain ⟨d, hd, hresolve⟩ := Direct.bind_eq_ok.1 h
      obtain ⟨e, he, hbind⟩ := Direct.bind_eq_ok.1 hresolve
      have hq := Direct.known_eq_ok.1 hd
      rw [declaredNames_cons hq] at hnames
      obtain ⟨hfirst, hrest⟩ := List.nodup_cons.1 hnames
      rw [TypeUse.forParameters, List.zip_cons_cons, Table.lookup] at hp
      split at hp
      · next heq =>
        cases hp
        subst heq
        refine ⟨d, e, hq, he, ?_⟩
        -- the parameters that follow have other names
        have hbinds := binds_bindArguments hr hgenerics rest parameters _ _ hbind
        rw [hbinds.get?_eq hfirst, TypeArguments.get?_insert, if_pos rfl]
      · exact ih (Nat.succ.inj hlength) hrest hbind hp

theorem exists_forParameters_eq_some (hlength : arguments.length = parameters.length)
    {p : Symbol} (hp : p ∈ parameters) :
    ∃ a, TypeUse.forParameters parameters arguments p = some a := by
  induction parameters generalizing arguments with
  | nil => cases hp
  | cons q parameters ih =>
    cases arguments with
    | nil => cases hlength
    | cons argument rest =>
      rw [TypeUse.forParameters, List.zip_cons_cons, Table.lookup]
      split
      · exact ⟨argument, rfl⟩
      · next hne =>
        have hrest : p ∈ parameters := (List.mem_cons.1 hp).resolve_left (Ne.symm hne)
        exact ih (Nat.succ.inj hlength) hrest

theorem forParameters_eq_none {p : Symbol} (hp : p ∉ parameters) :
    TypeUse.forParameters parameters arguments p = none := by
  induction parameters generalizing arguments with
  | nil => rfl
  | cons q parameters ih =>
    have hne := List.ne_of_not_mem_cons hp
    cases arguments with
    | nil => rfl
    | cons argument rest =>
      rw [TypeUse.forParameters, List.zip_cons_cons, Table.lookup, if_neg (Ne.symm hne)]
      exact ih (List.not_mem_of_not_mem_cons hp)

/-- A type variable that is declared by a function is never bound. -/
theorem bound_eq_placeholderElement {v f : Symbol} (hv : r.graph.enclosing? v = some f)
    (hf : f.kind = .function) (d : TypeParameterDeclaration) (bindings : TypeArguments) :
    Direct.bound r v d bindings = r.placeholderElement v d bindings := by
  unfold Direct.bound binding?
  rw [hv, Option.all_some, Symbol.isClass, hf]
  rfl

/-- A type variable that is declared by a class stands for its binding. -/
theorem bound_eq_of_get? {v : Symbol} (hv : r.graph.enclosing? v = some owner)
    (howner : owner.kind = .classType) {d : TypeParameterDeclaration} {bindings : TypeArguments}
    {e : ClassElement} (he : bindings.get? d.name = some e) : Direct.bound r v d bindings = e := by
  unfold Direct.bound binding?
  rw [hv, Option.all_some, Symbol.isClass, howner, he]
  rfl

/-- Resolving under the arguments of a class is substituting them first. -/
theorem sameOutcome_resolve_arguments (hr : r.Readable) (hgenerics : generics.Canonical r)
    {d : ClassDeclaration} (howner : r.graph.classDeclaration? owner = some d)
    (hnames : (declaredNames r.graph d.typeParameters).Nodup)
    (henclosed : ∀ p ∈ d.typeParameters, r.graph.enclosing? p = some owner)
    (hlength : arguments.length = d.typeParameters.length) {c : ClassElement}
    (hc : Direct.resolve r generics (.declared owner arguments) = .ok c) {use : TypeUse}
    (huse : use.InScope r.graph d.typeParameters) :
    SameTypeOutcome (Direct.resolve r c.arguments use)
      (Direct.resolve r generics
        (use.substitute (TypeUse.forParameters d.typeParameters arguments))) := by
  rw [Direct.resolve] at hc
  obtain ⟨d', hd', hc⟩ := Direct.bind_eq_ok.1 hc
  obtain rfl : d = d' := Option.some.inj (howner.symm.trans (Direct.known_eq_ok.1 hd'))
  obtain ⟨bindings, hbindings, hc⟩ := Direct.bind_eq_ok.1 hc
  cases hc
  refine sameOutcome_resolve_substitute hr use fun v hv => ?_
  rw [TypeUse.substitute]
  by_cases hparameter : v ∈ d.typeParameters
  · -- the one substitution binds a type parameter to what its argument comes to in the other
    obtain ⟨a, ha⟩ := exists_forParameters_eq_some hlength hparameter
    obtain ⟨dv, e, hdv, he, hget⟩ :=
      get?_of_bindArguments hr hgenerics hlength hnames hbindings ha
    have hbound : Direct.bound r v dv bindings = e :=
      bound_eq_of_get? (henclosed v hparameter) (kind_of_classDeclaration? howner) hget
    have hinner : Direct.resolve r bindings (.typeVariable v) = .ok e := by
      rw [Direct.resolve, hdv]
      exact congrArg Except.ok hbound
    show SameTypeOutcome (Direct.resolve r bindings (.typeVariable v)) _
    rw [ha, Option.getD_some, hinner, he]
    exact (canonical_resolve hr hgenerics a e he).sameType_refl
  · -- a type variable of a function is bound by neither, even if it has a name that is bound
    obtain ⟨f, hvf, hf⟩ := (huse v hv).resolve_left hparameter
    rw [forParameters_eq_none hparameter, Option.getD_none, Direct.resolve, Direct.resolve]
    refine SameOutcome.bind (SameOutcome.refl fun _ _ => rfl) fun dv dv' hdv => ?_
    obtain rfl : dv = dv' := hdv
    rw [bound_eq_placeholderElement hvf hf, bound_eq_placeholderElement hvf hf]
    exact sameType_placeholderElement v dv

end Resolver

end BeanProcessing

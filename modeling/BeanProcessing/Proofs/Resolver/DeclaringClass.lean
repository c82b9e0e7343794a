import BeanProcessing.Proofs.Resolver.Conversation
import Mathlib.Data.List.Perm.Subperm

/-!
# Declaring classes that are found again

The type arguments of a class are a substitution, and the class that declares a member is asked for
under a substitution. Under the arguments of a class, the class that declares one of its members is
that class again: its type parameters are bound to what its arguments bind them to, so the request
has the key under which the class was kept. Where names are free of the marks of a key text this
holds for all classes that were returned, whatever else was asked for.

Under no substitution, asking for the class around a symbol is asking for that class with its type
parameters left open.
-/

namespace BeanProcessing

/-! ## Ways outward -/

namespace SymbolGraph

/-- Whether the way outward from a symbol comes to a class, and to no symbol that was met before. -/
inductive ComesToClass (g : SymbolGraph) : List Symbol → Symbol → Symbol → Prop
  | reached {met : List Symbol} {s owner : Symbol} (h : g.enclosing? s = some owner)
    (hnew : owner ∉ met) (howner : owner.isClass = true) : ComesToClass g met s owner
  | further {met : List Symbol} {s outer owner : Symbol} (h : g.enclosing? s = some outer)
    (hnew : outer ∉ met) (houter : outer.isClass = false)
    (hrest : ComesToClass g (outer :: met) outer owner) : ComesToClass g met s owner

variable {g : SymbolGraph}

/-- The symbols that a graph declares. -/
def declaredSymbols (g : SymbolGraph) : List Symbol :=
  g.classes.keys.map .ofClass ++ g.functions.keys.map .ofFunction
    ++ g.valueParameters.keys.map .ofValueParameter ++ g.typeParameters.keys.map .ofTypeParameter

theorem length_declaredSymbols (g : SymbolGraph) : g.declaredSymbols.length = g.size := by
  simp [declaredSymbols, size, Table.size, Table.keys, Nat.add_assoc]

theorem mem_declaredSymbols {s outer : Symbol} (h : g.enclosing? s = some outer) :
    s ∈ g.declaredSymbols := by
  obtain ⟨placement, hplacement, -⟩ := Option.bind_eq_some_iff.1 h
  have hkey : ∀ {δ : Type} {t : Table String (Entry δ)},
      (t.get? s.path).map (·.placement) = some placement → s.path ∈ t.keys := by
    intro δ t ht
    obtain ⟨entry, hentry, -⟩ := Option.map_eq_some_iff.1 ht
    exact List.mem_map.2 ⟨_, Table.mem_entries_of_get? hentry, rfl⟩
  obtain ⟨kind, path⟩ := s
  simp only [declaredSymbols, List.mem_append, List.mem_map]
  cases kind with
  | classType => exact Or.inl (Or.inl (Or.inl ⟨path, hkey hplacement, rfl⟩))
  | function => exact Or.inl (Or.inl (Or.inr ⟨path, hkey hplacement, rfl⟩))
  | valueParameter => exact Or.inl (Or.inr ⟨path, hkey hplacement, rfl⟩)
  | typeParameter => exact Or.inr ⟨path, hkey hplacement, rfl⟩

/-- No symbol is met twice on such a way, and every symbol on it but the last is declared. So there
are enough steps to come to the class. -/
theorem ComesToClass.encounterAlong {met : List Symbol} {s owner : Symbol}
    (h : g.ComesToClass met s owner) (hnodup : met.Nodup)
    (hmet : ∀ t ∈ met, t = s ∨ t ∈ g.declaredSymbols) {limit : Nat}
    (hlimit : met.length + limit = g.size + 2) :
    encounterAlong met (g.enclosingChain s limit) = .nearestClass owner := by
  have hsubset : ∀ {s outer : Symbol} {met : List Symbol}, g.enclosing? s = some outer →
      (∀ t ∈ met, t = s ∨ t ∈ g.declaredSymbols) → met ⊆ g.declaredSymbols :=
    fun hs hmet t ht => (hmet t ht).elim (fun heq => heq ▸ mem_declaredSymbols hs) id
  have hlength : ∀ {s outer : Symbol} {met : List Symbol}, g.enclosing? s = some outer →
      met.Nodup → (∀ t ∈ met, t = s ∨ t ∈ g.declaredSymbols) → met.length ≤ g.size := by
    intro s outer met hs hnodup hmet
    rw [← g.length_declaredSymbols]
    exact (hnodup.subperm (hsubset hs hmet)).length_le
  induction h generalizing limit with
  | @reached met s owner h hnew howner =>
    have hle := hlength h hnodup hmet
    obtain ⟨limit, rfl⟩ : ∃ k, limit = k + 1 := ⟨limit - 1, by omega⟩
    rw [enclosingChain, h]
    dsimp only
    rw [SymbolGraph.encounterAlong, if_neg hnew, if_pos howner]
  | @further met s outer owner h hnew houter _ ih =>
    have hle := hlength h hnodup hmet
    obtain ⟨limit, rfl⟩ : ∃ k, limit = k + 1 := ⟨limit - 1, by omega⟩
    rw [enclosingChain, h]
    dsimp only
    rw [SymbolGraph.encounterAlong, if_neg hnew, if_neg (by simp [houter])]
    refine ih (List.nodup_cons.2 ⟨hnew, hnodup⟩) (fun t ht => ?_) ?_
    · rcases List.mem_cons.1 ht with rfl | ht
      · exact Or.inl rfl
      · exact Or.inr (hsubset h hmet ht)
    · rw [List.length_cons]
      omega

theorem ComesToClass.encounter {s owner : Symbol} (h : g.ComesToClass [s] s owner) :
    g.encounter s = .nearestClass owner :=
  h.encounterAlong (List.nodup_singleton s)
    (fun _ ht => Or.inl (List.mem_singleton.1 ht)) (by rw [List.length_singleton]; omega)

end SymbolGraph

/-! ## Names and bindings -/

namespace TypeArguments

/-- Bindings of the same names in the same order are the same if each name is bound alike. -/
theorem ext_of_names {as bs : TypeArguments} (hnames : as.names = bs.names)
    (hnodup : as.names.Nodup) (h : ∀ name ∈ as.names, as.get? name = bs.get? name) : as = bs := by
  induction as generalizing bs with
  | nil =>
    cases bs with
    | nil => rfl
    | cons => cases hnames
  | cons name e as ih =>
    cases bs with
    | nil => cases hnames
    | cons name' f bs =>
      obtain ⟨rfl, hrest⟩ := List.cons.inj hnames
      obtain ⟨hname, hnodup⟩ := List.nodup_cons.1 hnodup
      have hfirst := h name List.mem_cons_self
      rw [get?, get?, if_pos rfl, if_pos rfl, Option.some.injEq] at hfirst
      rw [hfirst, ih hrest hnodup fun other hother => ?_]
      have hne : ¬ name = other := fun heq => hname (heq ▸ hother)
      have hother' := h other (List.mem_cons_of_mem _ hother)
      rwa [get?, get?, if_neg hne, if_neg hne] at hother'

theorem KeyAlike.names_eq {as bs : TypeArguments} (h : as.KeyAlike bs) : as.names = bs.names := by
  induction as generalizing bs with
  | nil =>
    cases bs with
    | nil => rfl
    | cons => exact h.elim
  | cons name e as ih =>
    cases bs with
    | nil => exact h.elim
    | cons name' f bs =>
      obtain ⟨rfl, -, hrest⟩ := h
      rw [names, names, ih hrest]

end TypeArguments

namespace Resolver

variable {r : Resolver} {m m' : Memory} {generics bindings bindings' : TypeArguments}
  {parameters : List Symbol}

theorem subset_addParameterName (g : SymbolGraph) (names : List String) (p : Symbol) :
    names ⊆ addParameterName g names p := by
  unfold addParameterName
  split
  · split
    · exact List.Subset.refl names
    · exact List.subset_append_left names _
  · exact List.Subset.refl names

theorem subset_foldl_addParameterName (g : SymbolGraph) (names : List String)
    (parameters : List Symbol) : names ⊆ parameters.foldl (addParameterName g) names := by
  induction parameters generalizing names with
  | nil => exact List.Subset.refl names
  | cons p rest ih => exact List.Subset.trans (subset_addParameterName g names p) (ih _)

theorem mem_parameterNames {g : SymbolGraph} {p : Symbol} (hp : p ∈ parameters)
    {d : TypeParameterDeclaration} (hd : g.typeParameter? p = some d) :
    d.name ∈ parameterNames g parameters := by
  have hfold : ∀ names : List String, d.name ∈ parameters.foldl (addParameterName g) names := by
    induction parameters with
    | nil => cases hp
    | cons q rest ih =>
      intro names
      rcases List.mem_cons.1 hp with rfl | hp
      · refine subset_foldl_addParameterName g _ rest ?_
        rw [addParameterName, hd]
        dsimp only
        split
        · assumption
        · exact List.mem_append_right _ List.mem_cons_self
      · exact ih hp _
  exact hfold []

/-! ## Type parameters under the arguments of their class -/

variable {owner : Symbol} {d : ClassDeclaration} {c : ClassElement}

/-- Bound under a substitution that binds them all, type parameters of a class get what it binds
them to. -/
theorem run_bindToBounds_of_bound (howner : owner.isClass = true)
    (hparameters : ∀ p ∈ parameters, r.graph.enclosing? p = some owner ∧
      ∃ d, r.graph.typeParameter? p = some d ∧ d.name ∈ generics.names)
    (m : Memory) (bindings : TypeArguments)
    (hbindings : ∀ name e, bindings.get? name = some e → generics.get? name = some e) :
    ∃ bindings', (r.bindToBounds generics bindings parameters).run.run m = (.ok bindings', m) ∧
      bindings'.names = parameters.foldl (addParameterName r.graph) bindings.names ∧
      ∀ name e, bindings'.get? name = some e → generics.get? name = some e := by
  induction parameters generalizing bindings with
  | nil => exact ⟨bindings, rfl, rfl, hbindings⟩
  | cons p rest ih =>
    obtain ⟨⟨henclosing, d, hp, hname⟩, hrest⟩ := List.forall_mem_cons.1 hparameters
    obtain ⟨e, he⟩ := TypeArguments.exists_get?_of_mem_names hname
    have hinserted : ∀ name' e', (bindings.insert d.name e).get? name' = some e' →
        generics.get? name' = some e' := by
      intro name' e' he'
      rw [TypeArguments.get?_insert] at he'
      split at he'
      · next heq => rwa [← heq, ← he']
      · exact hbindings name' e' he'
    obtain ⟨bindings', hrun, hnames, hbound⟩ := ih hrest (bindings.insert d.name e) hinserted
    have hvalue : r.bound p d generics = pure e := by
      rw [bound, binding?_eq_get? henclosing howner, he]
    refine ⟨bindings', ?_, ?_, hbound⟩
    · rw [bindToBounds, typeParameter, hp, known, pure_bind, hvalue]
      exact hrun
    · rw [hnames, names_insert_eq hp, List.foldl_cons]

/-- The type parameters of a class, bound under its own arguments, are bound to these. -/
theorem run_bindToBounds_self (howner : owner.isClass = true)
    (hparameters : ∀ p ∈ parameters, r.graph.enclosing? p = some owner)
    (hdeclares : DeclaresAll r.graph parameters)
    (hnames : generics.names = parameterNames r.graph parameters) (m : Memory) :
    (r.bindToBounds generics ∅ parameters).run.run m = (.ok generics, m) := by
  have hnamed : ∀ p ∈ parameters, r.graph.enclosing? p = some owner ∧
      ∃ d, r.graph.typeParameter? p = some d ∧ d.name ∈ generics.names := by
    intro p hp
    obtain ⟨d, hd⟩ := Option.isSome_iff_exists.1 (hdeclares p hp)
    exact ⟨hparameters p hp, d, hd, hnames ▸ mem_parameterNames hp hd⟩
  obtain ⟨bindings', hrun, hnames', hbound⟩ :=
    run_bindToBounds_of_bound howner hnamed m ∅ nofun
  have hsame : bindings'.names = generics.names := hnames'.trans hnames.symm
  have hnodup : bindings'.names.Nodup := hnames' ▸ nodup_parameterNames r.graph parameters
  rw [hrun, TypeArguments.ext_of_names hsame hnodup fun name hname => ?_]
  obtain ⟨e, he⟩ := TypeArguments.exists_get?_of_mem_names hname
  rw [he, hbound name e he]

/-- Whether a class is kept under a substitution that binds its type parameters. -/
structure KeptFor (r : Resolver) (owner : Symbol) (d : ClassDeclaration)
    (generics : TypeArguments) (c : ClassElement) (m : Memory) : Prop where
  kept : m.answers.get? (.of owner generics) = some c
  declares : DeclaresAll r.graph d.typeParameters
  names : generics.names = parameterNames r.graph d.typeParameters

theorem KeptFor.within (h : KeptFor r owner d generics c m) (hm : m.Within m') :
    KeptFor r owner d generics c m' :=
  ⟨hm.get? h.kept, h.declares, h.names⟩

/-- A class that is kept under a substitution is the class around each of its members under that
substitution. -/
theorem KeptFor.run_declaringClass? (h : KeptFor r owner d generics c m)
    (hd : r.graph.classDeclaration? owner = some d)
    (hparameters : ∀ p ∈ d.typeParameters, r.graph.enclosing? p = some owner) {s : Symbol}
    (hs : r.graph.ComesToClass [s] s owner) :
    (r.declaringClass? s generics).run.run m = (.ok (some c), m) := by
  have howner : owner.isClass = true := by
    rw [Symbol.isClass, kind_of_classDeclaration? hd]
    rfl
  have hbind := run_bindToBounds_self howner hparameters h.declares h.names m
  have hclass := run_classElement_of_get? (r := r) h.kept d
  rw [declaringClass?, hs.encounter]
  dsimp only
  rw [classDeclaration, hd, known, pure_bind, run_bind_of_eq_ok hbind]
  exact congrArg (fun run : ClassElement × Memory => (Except.ok (some run.1), run.2)) hclass

/-! ## Graphs with plain names -/

/-- Whether names are free of the marks of a key text, and the paths of type parameters of the brace
that ends them. Classes may have one qualified name. -/
structure PlainlyNamed (r : Resolver) : Prop where
  className {s : Symbol} {d : ClassDeclaration} (hs : r.graph.classDeclaration? s = some d) :
    PlainName d.qualifiedName
  parameterName {s : Symbol} {d : TypeParameterDeclaration}
    (hs : r.graph.typeParameter? s = some d) : PlainName d.name
  parameterPath {s : Symbol} {d : TypeParameterDeclaration}
    (hs : r.graph.typeParameter? s = some d) : OpenPath s.path
  topType : PlainName r.settings.topType

theorem Readable.plainlyNamed (hr : r.Readable) : r.PlainlyNamed where
  className := hr.plain_className
  parameterName := hr.plain_parameterName
  parameterPath := hr.open_parameterPath
  topType := hr.plain_topType

theorem legible_iff {bindings : TypeArguments} :
    bindings.Legible ↔ bindings.Each PlainName ClassElement.Legible := by
  induction bindings with
  | nil => exact iff_of_true trivial TypeArguments.each_empty
  | cons name e rest ih => rw [TypeArguments.Legible, TypeArguments.each_cons, ih, and_assoc]

theorem inherited_legible (hr : r.PlainlyNamed) :
    Inherited r PlainName ClassElement.Legible where
  name := hr.parameterName
  declared hs h := ⟨hr.className hs, legible_iff.2 h.each⟩
  placeholder hs h := ⟨hr.parameterPath hs, trivial, legible_iff.2 h⟩
  bare _ := ⟨hr.topType, trivial⟩
  withDimensions {e} h _ := by cases e <;> exact h
  withAnnotations {e} h _ := by cases e <;> exact h
  withArguments {e} h arguments _ harguments := by
    cases e with
    | declared shape _ => exact ⟨h.1, legible_iff.2 harguments⟩
    | placeholder shape _ v captured => exact ⟨h.1, legible_iff.2 harguments, h.2.2⟩
  arguments {e} h := by
    cases e with
    | declared shape _ => exact legible_iff.1 h.2
    | placeholder shape _ v captured => exact legible_iff.1 h.2.1
  captured {e} h := by
    cases e with
    | declared shape _ => exact TypeArguments.each_empty
    | placeholder shape _ v captured => exact legible_iff.1 h.2.2

section

variable (hr : r.PlainlyNamed)
include hr

theorem plainName_of_namesParameter {name : String} (h : NamesParameter r.graph name) :
    PlainName name := by
  obtain ⟨s, d, hs, rfl⟩ := h
  exact hr.parameterName hs

theorem Conversation.legible {exchanges : List Exchange}
    (h : Conversation r (NamesParameter r.graph) exchanges m) :
    HoldsOnly ClassElement.Legible m ∧ ∀ e ∈ returnedIn exchanges, e.Legible :=
  (h.mono fun _ => plainName_of_namesParameter hr).invariant (inherited_legible hr)

/-- A class that is asked for under the names of its type parameters is kept under its own
arguments from then on. -/
theorem keptFor_of_run_classElement (hm : Keyed r m) (hlegible : HoldsOnly ClassElement.Legible m)
    (hd : r.graph.classDeclaration? owner = some d) {requested : TypeArguments}
    (hrequested : BindsEach r PlainName ClassElement.Legible d.typeParameters requested)
    (hnames : requested.names = parameterNames r.graph d.typeParameters)
    (h : (r.classElement owner d requested).run m = (c, m')) :
    KeptFor r owner d c.arguments c m' := by
  have hkept := get?_run_classElement r owner d requested m
  obtain ⟨hkeyed, -⟩ := (Composed.classElement hd requested).keyed_and_within_of_run hm h
  obtain ⟨hc, -⟩ := yields_classElement ((inherited_legible hr).declared hd hrequested) m hlegible
  rw [h] at hkept hc
  obtain ⟨htext, -⟩ := (hkeyed _ c hkept).eq_declaredElement hd
  -- the arguments of what is kept have the key text that was asked for, and so the same names
  have hkey : CacheKey.of owner c.arguments = .of owner requested :=
    congrArg (CacheKey.mk owner) htext
  have harguments : c.arguments.Legible := legible_iff.2 ((inherited_legible hr).arguments hc)
  have halike := TypeArguments.keyAlike_of_keyText_eq harguments (legible_iff.2 hrequested.each)
    htext
  exact ⟨hkey ▸ hkept, hrequested.declares, halike.names_eq.trans hnames⟩

theorem keptFor_of_run_elementOf (hm : Keyed r m) (hlegible : HoldsOnly ClassElement.Legible m)
    (hd : r.graph.classDeclaration? owner = some d)
    (h : (r.elementOf owner).run.run m = (.ok c, m')) : KeptFor r owner d c.arguments c m' := by
  obtain ⟨requested, asked, hbind, hclass⟩ := run_elementOf_eq_ok hd h
  have hcomposed := composed_bindToPlaceholders (r := r) ∅ d.typeParameters ∅
  obtain ⟨hkeyed, -⟩ := hcomposed.keyed_and_within_of_run hm hbind
  obtain ⟨hrequested, hlegible'⟩ := yields_bindToPlaceholders (inherited_legible hr).produced
    TypeArguments.each_empty d.typeParameters TypeArguments.each_empty List.nodup_nil m hlegible
  rw [hbind] at hrequested hlegible'
  exact keptFor_of_run_classElement hr hkeyed hlegible' hd (hrequested _ rfl)
    (names_of_run_bindToPlaceholders hbind) hclass

theorem keptFor_of_run_resolve (hm : Keyed r m) (hlegible : HoldsOnly ClassElement.Legible m)
    (hd : r.graph.classDeclaration? owner = some d)
    (hgenerics : generics.Each PlainName ClassElement.Legible) {arguments : List TypeUse}
    (h : (r.resolve generics (.declared owner arguments)).run.run m = (.ok c, m')) :
    KeptFor r owner d c.arguments c m' := by
  obtain ⟨requested, asked, hbind, hclass⟩ := run_resolve_declared_eq_ok hd h
  have hcomposed := composed_bindArguments (r := r) generics arguments d.typeParameters ∅
  obtain ⟨hkeyed, -⟩ := hcomposed.keyed_and_within_of_run hm hbind
  obtain ⟨hrequested, hlegible'⟩ := yields_bindArguments (inherited_legible hr).produced hgenerics arguments
    d.typeParameters TypeArguments.each_empty List.nodup_nil m hlegible
  rw [hbind] at hrequested hlegible'
  exact keptFor_of_run_classElement hr hkeyed hlegible' hd (hrequested _ rfl)
    (names_of_run_bindArguments hbind) hclass

omit hr in
/-- Whether a class element was returned for a class, which was asked for by its symbol or by a use
with any arguments. -/
def ReturnedFor (exchanges : List Exchange) (owner : Symbol) (c : ClassElement) : Prop :=
  (.elementOf owner, .ok (.element c)) ∈ exchanges ∨ ∃ arguments generics,
    (.resolve (.declared owner arguments) generics, .ok (.element c)) ∈ exchanges

/-- A class that was returned in a conversation is kept under its own arguments. -/
theorem Conversation.keptFor {exchanges : List Exchange}
    (h : Conversation r (NamesParameter r.graph) exchanges m)
    (hd : r.graph.classDeclaration? owner = some d) (hc : ReturnedFor exchanges owner c) :
    KeptFor r owner d c.arguments c m := by
  induction h with
  | start log =>
    rcases hc with hc | ⟨arguments, generics, hc⟩
    · cases hc
    · cases hc
  | @call exchanges m h asked hasked ih =>
    have hkeyed := h.leftByCalls.keyed
    obtain ⟨hlegible, hreturned⟩ := h.legible hr
    obtain ⟨-, hwithin⟩ := (composed_answer (r := r) asked).keyed_and_within hkeyed
    rcases hc with hc | ⟨arguments, generics, hc⟩
    · rcases List.mem_append.1 hc with hc | hc
      · exact (ih (Or.inl hc)).within hwithin
      -- it was returned by the last call
      · obtain ⟨rfl, hanswer⟩ := Prod.mk.inj (List.mem_singleton.1 hc)
        obtain ⟨c', hrun, heq⟩ := run_map_eq_ok (Prod.ext hanswer.symm rfl)
        cases heq
        exact keptFor_of_run_elementOf hr hkeyed hlegible hd hrun
    · rcases List.mem_append.1 hc with hc | hc
      · exact (ih (Or.inr ⟨arguments, generics, hc⟩)).within hwithin
      · obtain ⟨rfl, hanswer⟩ := Prod.mk.inj (List.mem_singleton.1 hc)
        obtain ⟨c', hrun, heq⟩ := run_map_eq_ok (Prod.ext hanswer.symm rfl)
        cases heq
        have hgenerics : generics.Each PlainName ClassElement.Legible :=
          hasked.1.mono (fun _ => plainName_of_namesParameter hr) fun e he =>
            (he.mono fun _ => plainName_of_namesParameter hr).of_returned (inherited_legible hr)
              hreturned
        exact keptFor_of_run_resolve hr hkeyed hlegible hd hgenerics hrun

end

/-! ## Members of a class -/

/-- From a member of a class the way outward comes to the class. -/
theorem comesToClass_of_member {g : SymbolGraph} {s : Symbol} (hs : s.isClass = false)
    (henclosing : g.enclosing? s = some owner) (howner : owner.isClass = true) :
    g.ComesToClass [s] s owner := by
  refine .reached henclosing (fun hmem => ?_) howner
  rw [List.mem_singleton.1 hmem, hs] at howner
  cases howner

/-- From what stands in a member function of a class the way outward comes to the class. -/
theorem comesToClass_of_inFunction {g : SymbolGraph} {s f : Symbol} (hf : f.kind = .function)
    (hs : s.isClass = false) (hne : s.kind ≠ .function) (henclosing : g.enclosing? s = some f)
    (hmember : g.enclosing? f = some owner) (howner : owner.isClass = true) :
    g.ComesToClass [s] s owner := by
  have hclass : f.isClass = false := by rw [Symbol.isClass, hf]; rfl
  refine .further henclosing (fun hmem => ?_) hclass (.reached hmember (fun hmem => ?_) howner)
  · rw [← List.mem_singleton.1 hmem] at hne
    exact hne hf
  · rcases List.mem_pair.1 hmem with rfl | rfl
    · rw [hclass] at howner
      cases howner
    · rw [hs] at howner
      cases howner

/-- A type variable that is left open is resolved to its own placeholder. -/
theorem run_resolve_of_leavesOpen {v : Symbol} {dv : TypeParameterDeclaration}
    (hv : r.graph.typeParameter? v = some dv) (hopen : LeavesOpen r.graph generics v)
    (m : Memory) :
    (r.resolve generics (.typeVariable v)).run.run m
      = (.ok ((r.placeholder v dv generics).run m).1, ((r.placeholder v dv generics).run m).2) := by
  rw [resolve, typeParameter, hv, known, pure_bind, bound, hopen.binding?_eq_none hv]
  rfl

/-- The placeholder of a type variable of a member function, met under the arguments of the class,
leads back to the class. -/
theorem KeptFor.run_declaringElement? (hr : r.PlainlyNamed) (hm : Keyed r m)
    (hlegible : HoldsOnly ClassElement.Legible m) (h : KeptFor r owner d c.arguments c m)
    (hd : r.graph.classDeclaration? owner = some d)
    (hparameters : ∀ p ∈ d.typeParameters, r.graph.enclosing? p = some owner) {v : Symbol}
    {dv : TypeParameterDeclaration} (hv : r.graph.typeParameter? v = some dv)
    (hopen : LeavesOpen r.graph c.arguments v) (hcomes : r.graph.ComesToClass [v] v owner) :
    ∃ e m', (r.resolve c.arguments (.typeVariable v)).run.run m = (.ok e, m') ∧
      e.isPlaceholder = true ∧
      ∀ further, (r.declaringElement? e.toElement).run.run (r.memoryAfter further m')
        = (.ok (some c), r.memoryAfter further m') := by
  have hinherited := inherited_legible hr
  have harguments := hinherited.arguments (hlegible _ c h.kept)
  obtain ⟨captured, htext, hrun⟩ := run_placeholder hm hv c.arguments
  obtain ⟨he, -⟩ := yields_placeholder hinherited.produced hv harguments m hlegible
  obtain ⟨hkeyed, hwithin⟩ := (Composed.placeholder hv c.arguments).keyed_and_within hm
  rw [hrun] at he
  -- what the placeholder captured has the key text of the arguments, and so the same names
  have halike := TypeArguments.keyAlike_of_keyText_eq he.2.2 (legible_iff.2 harguments) htext
  have hkey : CacheKey.of owner captured = .of owner c.arguments :=
    congrArg (CacheKey.mk owner) htext
  have hcaptured : KeptFor r owner d captured c m :=
    ⟨hkey ▸ h.kept, h.declares, halike.names_eq.trans h.names⟩
  have hresolve := run_resolve_of_leavesOpen hv hopen m
  rw [hrun] at hresolve
  refine ⟨_, _, hresolve, rfl, fun further => ?_⟩
  have hlater := (keyed_and_within_memoryAfter further hkeyed).2
  exact (hcaptured.within (hwithin.trans hlater)).run_declaringClass? hd hparameters hcomes

/-! ## No substitution -/

theorem bindToBounds_empty (r : Resolver) (bindings : TypeArguments) (parameters : List Symbol) :
    r.bindToBounds ∅ bindings parameters = r.bindToPlaceholders ∅ bindings parameters := by
  induction parameters generalizing bindings with
  | nil => rfl
  | cons p rest ih =>
    have hbound : ∀ d, r.bound p d ∅ = r.placeholder p d ∅ := by
      intro d
      have hnone : r.binding? p d.name ∅ = none := by
        unfold binding?
        exact ite_self _
      rw [bound, hnone]
    unfold bindToBounds bindToPlaceholders
    simp only [hbound, ih]

/-- Under no substitution, the class around a symbol is that class with its type parameters left
open. -/
theorem declaringClass?_empty {s : Symbol} (hs : r.graph.ComesToClass [s] s owner) :
    r.declaringClass? s ∅ = some <$> r.elementOf owner := by
  rw [declaringClass?, hs.encounter]
  dsimp only
  rw [elementOf]
  simp only [bindToBounds_empty, map_bind]
  rfl

/-! ## Classes that were returned -/

/-- Under no substitution, asking for the class around a symbol is the same computation as asking for
that class with its type parameters left open, in every graph.

A class that was returned, whose type parameters stand in it, is found again under its own
arguments. It is the class around each of its member functions and around their value parameters,
and a type variable of such a function is resolved to a placeholder that leads back to it, after any
further calls. Nothing is kept for this that was not kept before. -/
theorem declaringClass?_arguments (r : Resolver) :
    (∀ s outer, r.graph.ComesToClass [s] s outer →
      r.declaringClass? s ∅ = some <$> r.elementOf outer) ∧
    ∀ exchanges m owner d c, r.PlainlyNamed →
      Conversation r (NamesParameter r.graph) exchanges m →
      r.graph.classDeclaration? owner = some d →
      (∀ p ∈ d.typeParameters, r.graph.enclosing? p = some owner) →
      ReturnedFor exchanges owner c →
      ∀ f, f.kind = .function → r.graph.enclosing? f = some owner →
        (r.declaringClass? f c.arguments).run.run m = (.ok (some c), m) ∧
        (∀ p, p.kind = .valueParameter → r.graph.enclosing? p = some f →
          (r.declaringClass? p c.arguments).run.run m = (.ok (some c), m)) ∧
        ∀ v dv, r.graph.typeParameter? v = some dv → r.graph.enclosing? v = some f →
          ∃ e m', (r.resolve c.arguments (.typeVariable v)).run.run m = (.ok e, m') ∧
            e.isPlaceholder = true ∧
            ∀ further, (r.declaringElement? e.toElement).run.run (r.memoryAfter further m')
              = (.ok (some c), r.memoryAfter further m') := by
  refine ⟨fun s outer hs => declaringClass?_empty hs, ?_⟩
  intro exchanges m owner d c hr h hd hparameters hc f hf hmember
  have hkept := h.keptFor hr hd hc
  have howner : owner.isClass = true := by
    rw [Symbol.isClass, kind_of_classDeclaration? hd]
    rfl
  refine ⟨?_, fun p hp henclosing => ?_, fun v dv hv henclosing => ?_⟩
  · have hclass : f.isClass = false := by rw [Symbol.isClass, hf]; rfl
    exact hkept.run_declaringClass? hd hparameters (comesToClass_of_member hclass hmember howner)
  · have hclass : p.isClass = false := by rw [Symbol.isClass, hp]; rfl
    have hcomes := comesToClass_of_inFunction hf hclass (by rw [hp]; decide) henclosing hmember
      howner
    exact hkept.run_declaringClass? hd hparameters hcomes
  · have hkind := kind_of_typeParameter? hv
    have hclass : v.isClass = false := by rw [Symbol.isClass, hkind]; rfl
    have hcomes := comesToClass_of_inFunction hf hclass (by rw [hkind]; decide) henclosing hmember
      howner
    -- what a function declares is never bound by the arguments of a class
    have hopen : LeavesOpen r.graph c.arguments v := fun _ _ =>
      Or.inr ⟨f, henclosing, by rw [Symbol.isClass, hf]; rfl⟩
    exact hkept.run_declaringElement? hr h.leftByCalls.keyed (h.legible hr).1 hd hparameters hv
      hopen hcomes

/-- A class with a type parameter and a method, which has a type parameter of its own. -/
def cargoGraph : SymbolGraph :=
  .ofEdits [
    .addClass "Text" .plain,
    .addClass "Crate" .plain,
    .addTypeParameter (.ofClass "Crate") "T" [],
    .addMethod "Crate" "fill" .unresolved
      [{ name := some "item", type := .typeVariable (.ofTypeParameter "Crate<T>") }],
    .addTypeParameter (.ofFunction "Crate#fill#0") "R"
      [.typeVariable (.ofTypeParameter "Crate<T>")]]

/-- A resolver of these classes. -/
def cargoResolver : Resolver := .ofUnits cargoGraph {} []

/-- A use of the class with an argument, and the element that it stands for. -/
def crateOfText : TypeUse := .declared (.ofClass "Crate") [.declared (.ofClass "Text") []]

def crateOfTextElement : ClassElement :=
  .declared { symbol := .ofClass "Crate", name := "Crate" } (.cons "T" textElement .nil)

/-- The call that this element is returned by, and the memory that it leaves behind. -/
def cargoExchanges : List Exchange :=
  [(.resolve crateOfText ∅, .ok (.element crateOfTextElement))]

def cargoMemory : Memory := ((cargoResolver.answer (.resolve crateOfText ∅)).run.run {}).2

theorem conversation_cargoMemory :
    Conversation cargoResolver (NamesParameter cargoGraph) cargoExchanges cargoMemory :=
  Conversation.call (.start []) ⟨TypeArguments.each_empty, nofun⟩

theorem plainlyNamed_cargoResolver : cargoResolver.PlainlyNamed :=
  Readable.plainlyNamed {
    nodup_classNames := by decide
    plain_classNames := by decide
    plain_parameterNames := by decide
    open_parameterPaths := by decide
    plain_topType := by decide }

/-- The class with its argument is found from its method, from the parameter of the method, and from
the placeholder of the type variable of the method. -/
theorem declaringClass?_arguments_cargoResolver :
    cargoResolver.PlainlyNamed ∧
      Conversation cargoResolver (NamesParameter cargoGraph) cargoExchanges cargoMemory ∧
      ReturnedFor cargoExchanges (.ofClass "Crate") crateOfTextElement ∧
      (cargoResolver.declaringClass? (.ofFunction "Crate#fill#0")
        crateOfTextElement.arguments).run.run cargoMemory
        = (.ok (some crateOfTextElement), cargoMemory) ∧
      (cargoResolver.declaringClass? (.ofValueParameter "Crate#fill#0/0")
        crateOfTextElement.arguments).run.run cargoMemory
        = (.ok (some crateOfTextElement), cargoMemory) ∧
      (∃ e m', (cargoResolver.resolve crateOfTextElement.arguments
          (.typeVariable (.ofTypeParameter "Crate#fill#0<R>"))).run.run cargoMemory
          = (.ok e, m') ∧
        (cargoResolver.declaringElement? e.toElement).run.run m'
          = (.ok (some crateOfTextElement), m')) ∧
      cargoResolver.declaringClass? (.ofFunction "Crate#fill#0") ∅
        = some <$> cargoResolver.elementOf (.ofClass "Crate") := by
  have hreturned : ReturnedFor cargoExchanges (.ofClass "Crate") crateOfTextElement :=
    Or.inr ⟨_, _, List.mem_cons_self⟩
  obtain ⟨hempty, hmembers⟩ := declaringClass?_arguments cargoResolver
  obtain ⟨hfunction, hvalue, htype⟩ := hmembers cargoExchanges cargoMemory (.ofClass "Crate") _
    crateOfTextElement plainlyNamed_cargoResolver conversation_cargoMemory rfl (by decide) hreturned
    (.ofFunction "Crate#fill#0") rfl rfl
  obtain ⟨e, m', hresolve, -, hleads⟩ :=
    htype (.ofTypeParameter "Crate#fill#0<R>") _ rfl rfl
  exact ⟨plainlyNamed_cargoResolver, conversation_cargoMemory, hreturned, hfunction,
    hvalue (.ofValueParameter "Crate#fill#0/0") rfl rfl, ⟨e, m', hresolve, hleads []⟩,
    hempty (.ofFunction "Crate#fill#0") (.ofClass "Crate") (.reached rfl (by decide) rfl)⟩

end Resolver

end BeanProcessing

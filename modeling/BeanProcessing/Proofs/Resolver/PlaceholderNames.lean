import BeanProcessing.Proofs.Resolver.Conversation

/-!
# Names of placeholders

The name of a placeholder is found by a walk that starts at the first bound of its type parameter
and goes on from arrays to their elements and from type variables to their first bounds. If a class
with a name is reached in at most 64 steps then the name is that of the class. In every other case
it is the top type: where the walk breaks off, where it runs in a circle, and where it takes longer.
The walk looks at declarations only, so neither the substitution nor what was asked before has a
part in it.

The first bound itself is resolved under the substitution that the placeholder captured. The two
come to one name unless that substitution binds the type variable in the bound, the class in the
bound has no name, or the limit is reached on the one way and not on the other.
-/

namespace BeanProcessing

/-! ## Walks along bounds -/

namespace SymbolGraph

/-- Whether a walk leads from a type use to another in a number of steps. -/
inductive LeadsTo (g : SymbolGraph) : TypeUse → Nat → TypeUse → Prop
  | here (use : TypeUse) : LeadsTo g use 0 use
  | element {element target : TypeUse} {n : Nat} (dimensions : Nat)
    (h : LeadsTo g element n target) : LeadsTo g (.array element dimensions) (n + 1) target
  | bound {s : Symbol} {d : TypeParameterDeclaration} {first target : TypeUse}
    {rest : List TypeUse} {n : Nat} (hs : g.typeParameter? s = some d)
    (hbounds : d.bounds = first :: rest) (h : LeadsTo g first n target) :
    LeadsTo g (.typeVariable s) (n + 1) target

/-- Whether a walk leads from a type use to a class with a name, and which name that is. -/
def LeadsToClass (g : SymbolGraph) (use : TypeUse) (n : Nat) (name : String) : Prop :=
  ∃ s arguments d, g.LeadsTo use n (.declared s arguments) ∧ g.classDeclaration? s = some d ∧
    d.qualifiedName = name ∧ name ≠ ""

variable {g : SymbolGraph} {n : Nat} {name : String}

/-! ### Walks by their first step -/

theorem leadsToClass_declared {s : Symbol} {arguments : List TypeUse} :
    g.LeadsToClass (.declared s arguments) n name ↔
      n = 0 ∧ name ≠ "" ∧ ∃ d, g.classDeclaration? s = some d ∧ d.qualifiedName = name := by
  constructor
  · rintro ⟨s', arguments', d, hleads, hd, hname, hne⟩
    cases hleads
    exact ⟨rfl, hne, d, hd, hname⟩
  · rintro ⟨rfl, hne, d, hd, hname⟩
    exact ⟨s, arguments, d, .here _, hd, hname, hne⟩

theorem leadsToClass_typeVariable {s : Symbol} :
    g.LeadsToClass (.typeVariable s) n name ↔
      ∃ d first k, g.typeParameter? s = some d ∧ first ∈ d.bounds.head? ∧ n = k + 1 ∧
        g.LeadsToClass first k name := by
  constructor
  · rintro ⟨s', arguments, d', hleads, hclass⟩
    cases hleads with
    | @bound _ d first _ rest k hs hbounds h =>
      exact ⟨d, first, k, hs, by rw [hbounds]; rfl, rfl, s', arguments, d', h, hclass⟩
  · rintro ⟨d, first, k, hs, hfirst, rfl, s', arguments, d', h, hclass⟩
    obtain ⟨rest, hbounds⟩ := List.head?_eq_some_iff.1 hfirst
    exact ⟨s', arguments, d', .bound hs hbounds h, hclass⟩

theorem leadsToClass_array {element : TypeUse} {dimensions : Nat} :
    g.LeadsToClass (.array element dimensions) n name ↔
      ∃ k, n = k + 1 ∧ g.LeadsToClass element k name := by
  constructor
  · rintro ⟨s, arguments, d, hleads, hclass⟩
    cases hleads with
    | element _ h => exact ⟨_, rfl, s, arguments, d, h, hclass⟩
  · rintro ⟨k, rfl, s, arguments, d, h, hclass⟩
    exact ⟨s, arguments, d, .element dimensions h, hclass⟩

theorem not_leadsToClass_unresolved : ¬ g.LeadsToClass .unresolved n name := by
  rintro ⟨s, arguments, d, hleads, -⟩
  cases hleads

/-- A walk leads to one class only. -/
theorem LeadsToClass.unique {use : TypeUse} {n' : Nat} {name' : String}
    (h : g.LeadsToClass use n name) (h' : g.LeadsToClass use n' name') :
    n = n' ∧ name = name' := by
  induction n generalizing use n' with
  | zero =>
    obtain ⟨s, arguments, d, hleads, -⟩ := id h
    cases hleads
    obtain ⟨-, -, d₁, hd₁, rfl⟩ := leadsToClass_declared.1 h
    obtain ⟨rfl, -, d₂, hd₂, rfl⟩ := leadsToClass_declared.1 h'
    obtain rfl := Option.some.inj (hd₁.symm.trans hd₂)
    exact ⟨rfl, rfl⟩
  | succ n ih =>
    cases use with
    | declared s arguments => cases (leadsToClass_declared.1 h).1
    | unresolved => exact (not_leadsToClass_unresolved h).elim
    | array element dimensions =>
      obtain ⟨k, hk, hnext⟩ := leadsToClass_array.1 h
      obtain ⟨k', rfl, hnext'⟩ := leadsToClass_array.1 h'
      obtain rfl := Nat.succ.inj hk
      obtain ⟨rfl, hname⟩ := ih hnext hnext'
      exact ⟨rfl, hname⟩
    | typeVariable s =>
      obtain ⟨d, first, k, hs, hfirst, hk, hnext⟩ := leadsToClass_typeVariable.1 h
      obtain ⟨d', first', k', hs', hfirst', rfl, hnext'⟩ := leadsToClass_typeVariable.1 h'
      obtain rfl := Nat.succ.inj hk
      obtain rfl := Option.some.inj (hs.symm.trans hs')
      obtain rfl := Option.some.inj (hfirst.symm.trans hfirst')
      obtain ⟨rfl, hname⟩ := ih hnext hnext'
      exact ⟨rfl, hname⟩

end SymbolGraph

/-! ## The name that bounds lead to -/

namespace Resolver

variable {r : Resolver} {n : Nat} {name : String}

/-- A class that is reached in fewer steps than there are places gives its name. -/
theorem boundName?_of_leadsToClass {use : TypeUse} (h : r.graph.LeadsToClass use n name)
    {places : Nat} (hn : n < places) : r.boundName? places use = some name := by
  induction places generalizing use n with
  | zero => exact absurd hn (Nat.not_lt_zero n)
  | succ places ih =>
    cases use with
    | declared s arguments =>
      obtain ⟨rfl, hne, d, hd, rfl⟩ := SymbolGraph.leadsToClass_declared.1 h
      simp [boundName?, hd, hne]
    | unresolved => exact (SymbolGraph.not_leadsToClass_unresolved h).elim
    | array element dimensions =>
      obtain ⟨k, rfl, hnext⟩ := SymbolGraph.leadsToClass_array.1 h
      rw [boundName?]
      exact ih hnext (Nat.lt_of_succ_lt_succ hn)
    | typeVariable s =>
      obtain ⟨d, first, k, hs, hfirst, rfl, hnext⟩ := SymbolGraph.leadsToClass_typeVariable.1 h
      obtain ⟨rest, hbounds⟩ := List.head?_eq_some_iff.1 hfirst
      simp only [boundName?, hs, hbounds]
      exact ih hnext (Nat.lt_of_succ_lt_succ hn)

/-- Any name that is found is that of a class that is reached, or the top type. -/
theorem leadsToClass_of_boundName? {use : TypeUse} {places : Nat}
    (h : r.boundName? places use = some name) :
    (∃ n < places, r.graph.LeadsToClass use n name) ∨ name = r.settings.topType := by
  induction places generalizing use with
  | zero => cases h
  | succ places ih =>
    cases use with
    | unresolved => cases h
    | declared s arguments =>
      obtain ⟨hmap, hne⟩ := Option.filter_eq_some_iff.1 h
      obtain ⟨d, hd, hname⟩ := Option.map_eq_some_iff.1 hmap
      have hnonempty : name ≠ "" := by simpa using hne
      exact Or.inl ⟨0, Nat.succ_pos _,
        SymbolGraph.leadsToClass_declared.2 ⟨rfl, hnonempty, d, hd, hname⟩⟩
    | array element dimensions =>
      refine (ih h).imp_left fun ⟨n, hn, hleads⟩ => ⟨n + 1, Nat.succ_lt_succ hn, ?_⟩
      exact SymbolGraph.leadsToClass_array.2 ⟨n, rfl, hleads⟩
    | typeVariable s =>
      rw [boundName?] at h
      cases hs : r.graph.typeParameter? s with
      | none =>
        rw [hs] at h
        cases h
      | some d =>
        rw [hs] at h
        cases hbounds : d.bounds with
        | nil =>
          simp only [hbounds, Option.some.injEq] at h
          exact Or.inr h.symm
        | cons first rest =>
          simp only [hbounds] at h
          refine (ih h).imp_left fun ⟨n, hn, hleads⟩ => ⟨n + 1, Nat.succ_lt_succ hn, ?_⟩
          exact SymbolGraph.leadsToClass_typeVariable.2
            ⟨d, first, n, hs, by rw [hbounds]; rfl, rfl, hleads⟩

/-- The name of a placeholder whose type parameter has some bounds. -/
def nameOfBounds (r : Resolver) (bounds : List TypeUse) : String :=
  (r.nameOfBounds? bounds).getD r.settings.topType

theorem nameOfBounds_of_leadsToClass {bounds : List TypeUse} {first : TypeUse}
    (hfirst : first ∈ bounds.head?) (h : r.graph.LeadsToClass first n name) (hn : n ≤ 64) :
    r.nameOfBounds bounds = name := by
  obtain ⟨rest, rfl⟩ := List.head?_eq_some_iff.1 hfirst
  rw [nameOfBounds, nameOfBounds?,
    boundName?_of_leadsToClass h (show n < maxBoundSteps + 1 from Nat.lt_succ_of_le hn)]
  rfl

theorem nameOfBounds_eq_topType {bounds : List TypeUse}
    (h : ∀ first ∈ bounds.head?, ∀ n ≤ 64, ∀ name, ¬ r.graph.LeadsToClass first n name) :
    r.nameOfBounds bounds = r.settings.topType := by
  unfold nameOfBounds nameOfBounds?
  cases bounds with
  | nil => rfl
  | cons first rest =>
    dsimp only
    cases hname : r.boundName? (maxBoundSteps + 1) first with
    | none => rfl
    | some name =>
      rcases leadsToClass_of_boundName? hname with ⟨n, hn, hleads⟩ | rfl
      · exact absurd hleads (h first rfl n (Nat.le_of_lt_succ hn) name)
      · rfl

theorem nameOfBounds_ne_empty (htop : r.settings.topType ≠ "") (bounds : List TypeUse) :
    r.nameOfBounds bounds ≠ "" := by
  by_cases h : ∃ first ∈ bounds.head?, ∃ n ≤ 64, ∃ name, r.graph.LeadsToClass first n name
  · obtain ⟨first, hfirst, n, hn, name, hleads⟩ := h
    rw [nameOfBounds_of_leadsToClass hfirst hleads hn]
    obtain ⟨s, arguments, d, -, -, -, hne⟩ := hleads
    exact hne
  · push Not at h
    rw [nameOfBounds_eq_topType h]
    exact htop

/-- Settings that are accepted name a top type. -/
theorem topType_ne_empty {settings : Settings} (h : settings.firstBlank? = none) :
    settings.topType ≠ "" := by
  intro hempty
  rw [Settings.firstBlank?, Option.map_eq_none_iff, List.find?_eq_none] at h
  have hblank := h ("top_type", settings.topType) List.mem_cons_self
  rw [hempty] at hblank
  exact hblank rfl

end Resolver

open Resolver

/-! ## Placeholders as they were made -/

variable {r : Resolver}

mutual

/-- Whether every placeholder in an element has the bounds of its type parameter and the name that
these lead to. -/
def ClassElement.Genuine (r : Resolver) : ClassElement → Prop
  | .declared _ arguments => arguments.Genuine r
  | .placeholder shape arguments v captured =>
    (∃ d, r.graph.typeParameter? shape.symbol = some d ∧ v = ⟨d.name, d.bounds⟩ ∧
      shape.name = r.nameOfBounds d.bounds) ∧
    arguments.Genuine r ∧ captured.Genuine r

/-- Whether every placeholder in a substitution is genuine. -/
def TypeArguments.Genuine (r : Resolver) : TypeArguments → Prop
  | .nil => True
  | .cons _ element rest => element.Genuine r ∧ rest.Genuine r

end

theorem TypeArguments.genuine_iff {bindings : TypeArguments} :
    bindings.Genuine r ↔ bindings.Each (fun _ => True) (ClassElement.Genuine r) := by
  induction bindings with
  | nil => exact iff_of_true trivial TypeArguments.each_empty
  | cons name e rest ih =>
    rw [TypeArguments.Genuine, TypeArguments.each_cons, ih, true_and]

namespace Resolver

theorem inherited_genuine (r : Resolver) :
    Inherited r (fun _ => True) (ClassElement.Genuine r) where
  name _ := trivial
  declared _ h := TypeArguments.genuine_iff.2 h.each
  placeholder hs h := ⟨⟨_, hs, rfl, rfl⟩, trivial, TypeArguments.genuine_iff.2 h⟩
  bare _ := trivial
  withDimensions {e} h _ := by cases e <;> exact h
  withAnnotations {e} h _ := by cases e <;> exact h
  withArguments {e} h arguments _ harguments := by
    cases e with
    | declared shape _ => exact TypeArguments.genuine_iff.2 harguments
    | placeholder shape _ v captured =>
      exact ⟨h.1, TypeArguments.genuine_iff.2 harguments, h.2.2⟩
  arguments {e} h := by
    cases e with
    | declared shape _ => exact TypeArguments.genuine_iff.1 h
    | placeholder shape _ v captured => exact TypeArguments.genuine_iff.1 h.2.1
  captured {e} h := by
    cases e with
    | declared shape _ => exact TypeArguments.each_empty
    | placeholder shape _ v captured => exact TypeArguments.genuine_iff.1 h.2.2

/-- Whether an element comes from a resolver: it is kept after some calls, or it can be had from
what was returned in a conversation. -/
inductive Provides (r : Resolver) (e : ClassElement) : Prop
  | kept {m : Memory} (hm : LeftByCalls r m) {key : CacheKey} (h : m.answers.get? key = some e)
  | obtained {exchanges : List Exchange} {m : Memory}
    (h : Conversation r (fun _ => True) exchanges m)
    (he : Obtained (fun _ => True) (returnedIn exchanges) e)

/-- Wherever a placeholder comes from, its symbol tells its name. -/
theorem Provides.name_eq {e : ClassElement} (h : r.Provides e) (he : e.isPlaceholder = true) :
    ∃ d, r.graph.typeParameter? e.symbol = some d ∧ e.name = r.nameOfBounds d.bounds := by
  cases h with
  | kept hm hkept =>
    cases hm.keyed _ e hkept with
    | declared hs bindings => cases he
    | @placeholder s d hs captured => exact ⟨d, hs, rfl⟩
  | obtained hconversation hobtained =>
    have hgenuine := hconversation.of_obtained (inherited_genuine r) hobtained
    cases e with
    | declared shape arguments => cases he
    | placeholder shape arguments v captured =>
      obtain ⟨⟨d, hs, -, hname⟩, -⟩ := hgenuine
      exact ⟨d, hs, hname⟩

/-- The name of a placeholder is never empty, and its symbol alone decides on it. Where the first
bound of the type parameter leads to a class with a name in at most 64 steps, it is this name, and
otherwise it is the top type. -/
theorem name_of_placeholder (hsettings : r.settings.firstBlank? = none) {e : ClassElement}
    (h : r.Provides e) (he : e.isPlaceholder = true) :
    e.name ≠ "" ∧
    (∃ d, r.graph.typeParameter? e.symbol = some d ∧
      (∀ first ∈ d.bounds.head?, ∀ n ≤ 64, ∀ name,
        r.graph.LeadsToClass first n name → e.name = name) ∧
      ((∀ first ∈ d.bounds.head?, ∀ n ≤ 64, ∀ name, ¬ r.graph.LeadsToClass first n name) →
        e.name = r.settings.topType)) ∧
    ∀ f, r.Provides f → f.isPlaceholder = true → f.symbol = e.symbol → f.name = e.name := by
  obtain ⟨d, hs, hname⟩ := h.name_eq he
  rw [hname]
  refine ⟨nameOfBounds_ne_empty (topType_ne_empty hsettings) d.bounds,
    ⟨d, hs, fun first hfirst n hn name hleads => nameOfBounds_of_leadsToClass hfirst hleads hn,
      nameOfBounds_eq_topType⟩, fun f hf hplaceholder hsymbol => ?_⟩
  obtain ⟨d', hs', hname'⟩ := hf.name_eq hplaceholder
  rw [hsymbol] at hs'
  obtain rfl := Option.some.inj (hs.symm.trans hs')
  exact hname'

/-- A class with two type parameters, the first bounded by another class, and the second by arrays
of the first. -/
def shelfGraph : SymbolGraph :=
  .ofEdits [
    .addClass "Text" .plain,
    .addClass "Number" .plain,
    .addClass "Shelf" .plain,
    .addTypeParameter (.ofClass "Shelf") "A" [.declared (.ofClass "Text") []],
    .addTypeParameter (.ofClass "Shelf") "B"
      [.array (.typeVariable (.ofTypeParameter "Shelf<A>")) 1]]

/-- A resolver of these classes. -/
def shelfResolver : Resolver := .ofUnits shelfGraph {} []

/-- The placeholder of the second type parameter under no substitution. -/
def shelfPlaceholder : ClassElement :=
  shelfResolver.placeholderElement (.ofTypeParameter "Shelf<B>")
    { name := "B", bounds := [.array (.typeVariable (.ofTypeParameter "Shelf<A>")) 1] } ∅

theorem provides_shelfPlaceholder : shelfResolver.Provides shelfPlaceholder := by
  have hleft : LeftByCalls shelfResolver
      (shelfResolver.memoryAfter [.placeholder (.ofTypeParameter "Shelf<B>") ∅] {}) :=
    (LeftByCalls.start []).call _
  have hkept : (shelfResolver.memoryAfter
      [.placeholder (.ofTypeParameter "Shelf<B>") ∅] {}).answers.get?
        (.of (.ofTypeParameter "Shelf<B>") ∅) = some shelfPlaceholder := rfl
  exact .kept hleft hkept

theorem leadsToClass_shelfGraph :
    shelfGraph.LeadsToClass (.array (.typeVariable (.ofTypeParameter "Shelf<A>")) 1) 2 "Text" :=
  SymbolGraph.leadsToClass_array.2 ⟨1, rfl, SymbolGraph.leadsToClass_typeVariable.2
    ⟨_, _, 0, rfl, rfl, rfl, SymbolGraph.leadsToClass_declared.2 ⟨rfl, by decide, _, rfl, rfl⟩⟩⟩

/-- From arrays of a type variable the walk goes on to the variable and from there to its bound. -/
theorem name_of_placeholder_shelfResolver :
    shelfResolver.settings.firstBlank? = none ∧ shelfResolver.Provides shelfPlaceholder ∧
      shelfPlaceholder.isPlaceholder = true ∧ shelfPlaceholder.name = "Text" := by
  obtain ⟨-, ⟨d, hs, hname, -⟩, -⟩ := @name_of_placeholder shelfResolver (by decide)
    shelfPlaceholder provides_shelfPlaceholder rfl
  cases hs
  exact ⟨by decide, provides_shelfPlaceholder, rfl,
    hname _ rfl 2 (by decide) "Text" leadsToClass_shelfGraph⟩

end Resolver

/-! ## First bounds as they resolve -/

namespace TypeUse

/-- The use beneath any arrays. -/
def beneathArrays : TypeUse → TypeUse
  | declared s arguments => declared s arguments
  | typeVariable s => typeVariable s
  | array element _ => element.beneathArrays
  | unresolved => unresolved

/-- The number of arrays that a use is beneath. -/
def arrayDepth : TypeUse → Nat
  | declared _ _ => 0
  | typeVariable _ => 0
  | array element _ => element.arrayDepth + 1
  | unresolved => 0

end TypeUse

namespace Resolver

variable {m m' : Memory} {generics : TypeArguments} {e : ClassElement}

/-- An array has the name of what it is an array of. -/
theorem run_resolve_array {element : TypeUse} {dimensions : Nat}
    (h : (r.resolve generics (.array element dimensions)).run.run m = (.ok e, m')) :
    ∃ f, (r.resolve generics element).run.run m = (.ok f, m') ∧ e.name = f.name := by
  rw [resolve] at h
  obtain ⟨f, between, helement, hmade⟩ := run_bind_eq_ok h
  cases hmade
  refine ⟨f, helement, ?_⟩
  cases f <;> rfl

theorem name_of_run_resolve_declared (hm : Keyed r m) {s : Symbol} {arguments : List TypeUse}
    (h : (r.resolve generics (.declared s arguments)).run.run m = (.ok e, m')) :
    ∃ d, r.graph.classDeclaration? s = some d ∧ e.name = d.qualifiedName := by
  obtain ⟨d, hs, he⟩ := exists_eq_declaredElement_of_run_resolve hm h
  exact ⟨d, hs, congrArg ClassElement.name he⟩

theorem name_of_run_resolve_typeVariable (hm : Keyed r m) {s : Symbol}
    (hopen : LeavesOpen r.graph generics s)
    (h : (r.resolve generics (.typeVariable s)).run.run m = (.ok e, m')) :
    ∃ d, r.graph.typeParameter? s = some d ∧ e.name = r.nameOfBounds d.bounds := by
  have hsteps := h
  rw [resolve] at hsteps
  obtain ⟨d, _, hknown, -⟩ := run_bind_eq_ok hsteps
  obtain ⟨hs, -⟩ := run_known_eq_ok hknown
  have hvalue := run_resolve_typeVariable hs generics m
  obtain ⟨captured, -, hrun⟩ := run_placeholder hm hs generics
  rw [h, bound, hopen.binding?_eq_none hs, hrun] at hvalue
  cases hvalue
  exact ⟨d, hs, rfl⟩

theorem name_of_run_elementOf (hm : Keyed r m) {s : Symbol} {d : ClassDeclaration}
    (hs : r.graph.classDeclaration? s = some d)
    (h : (r.elementOf s).run.run m = (.ok e, m')) : e.name = d.qualifiedName :=
  congrArg ClassElement.name (eq_declaredElement_of_run_elementOf hm hs h)

theorem name_of_run_topType (hm : Keyed r m) :
    (r.topType.run m).1.name = r.settings.topType := by
  unfold topType
  cases hfind : r.graph.findClass? r.settings.topType with
  | none => rfl
  | some s =>
    obtain ⟨d, hs, hname⟩ := SymbolGraph.qualifiedName_of_findClass? hfind
    have hbind : ∀ next : Except Failure ClassElement → StateM Memory ClassElement,
        ((r.elementOf s).run >>= next).run m
          = (next ((r.elementOf s).run.run m).1).run ((r.elementOf s).run.run m).2 := fun _ => rfl
    dsimp only
    rw [hbind]
    cases hrun : (r.elementOf s).run.run m with
    | mk result m' =>
      cases result with
      | ok e => exact (name_of_run_elementOf hm hs hrun).trans hname
      | error failure => rfl

/-- The bounds of a placeholder come to something from its first bound on. -/
theorem run_resolve_first {v : Symbol} {d : TypeParameterDeclaration} {first : TypeUse}
    (hfirst : first ∈ d.bounds.head?) {es : List ClassElement}
    (h : ((r.answer (.bounds (r.placeholderElement v d generics))).run.run m).1
      = .ok (.elements (e :: es))) :
    ∃ m', (r.resolve generics first).run.run m = (.ok e, m') := by
  obtain ⟨rest, hbounds⟩ := List.head?_eq_some_iff.1 hfirst
  have hmap : (Answer.elements <$> r.boundsOf ⟨d.name, d.bounds⟩ generics).run.run m
      = (.ok (.elements (e :: es)),
        ((r.answer (.bounds (r.placeholderElement v d generics))).run.run m).2) :=
    Prod.ext h rfl
  obtain ⟨es', hmapM, heq⟩ := run_map_eq_ok hmap
  cases heq
  rw [boundsOf, hbounds, List.mapM_cons] at hmapM
  obtain ⟨f, resolved, hresolve, hrest⟩ := run_bind_eq_ok hmapM
  obtain ⟨fs, _, -, hcons⟩ := run_bind_eq_ok hrest
  cases hcons
  exact ⟨resolved, hresolve⟩

/-- A walk that leads to a class in more than 64 steps gives the top type. -/
theorem nameOfBounds_of_far {bounds : List TypeUse} {first : TypeUse} {n : Nat} {name : String}
    (hfirst : first ∈ bounds.head?) (h : r.graph.LeadsToClass first n name) (hn : 64 < n) :
    r.nameOfBounds bounds = r.settings.topType := by
  refine nameOfBounds_eq_topType fun first' hfirst' n' hn' name' h' => ?_
  obtain rfl := Option.some.inj (hfirst.symm.trans hfirst')
  exact absurd (h.unique h').1 (by omega)

/-- A walk that leads to no class with a name gives the top type. -/
theorem nameOfBounds_of_none {bounds : List TypeUse} {first : TypeUse}
    (hfirst : first ∈ bounds.head?) (h : ∀ n name, ¬ r.graph.LeadsToClass first n name) :
    r.nameOfBounds bounds = r.settings.topType := by
  refine nameOfBounds_eq_topType fun first' hfirst' n' _ name' h' => ?_
  obtain rfl := Option.some.inj (hfirst.symm.trans hfirst')
  exact h n' name' h'

/-- A use that leads to a class resolves to an element with the name of the class, if that is
reached in at most 64 steps from the type variable beneath the arrays of the use. -/
theorem name_of_run_resolve_of_leadsToClass (hm : Keyed r m) :
    ∀ (use : TypeUse) {e : ClassElement} {m' : Memory} {n : Nat} {name : String},
      (∀ w, use.beneathArrays = .typeVariable w → LeavesOpen r.graph generics w) →
      (r.resolve generics use).run.run m = (.ok e, m') → r.graph.LeadsToClass use n name →
      n ≤ use.arrayDepth + 65 → e.name = name
  | .declared s arguments, e, m', n, name, _, h, hleads, _ => by
    obtain ⟨-, -, d, hd, rfl⟩ := SymbolGraph.leadsToClass_declared.1 hleads
    obtain ⟨d', hd', hname⟩ := name_of_run_resolve_declared hm h
    obtain rfl := Option.some.inj (hd.symm.trans hd')
    exact hname
  | .typeVariable w, e, m', n, name, hopen, h, hleads, hn => by
    obtain ⟨d, first, k, hs, hfirst, rfl, hnext⟩ := SymbolGraph.leadsToClass_typeVariable.1 hleads
    obtain ⟨d', hs', hname⟩ := name_of_run_resolve_typeVariable hm (hopen w rfl) h
    obtain rfl := Option.some.inj (hs.symm.trans hs')
    have hk : k ≤ 64 := by
      rw [TypeUse.arrayDepth] at hn
      omega
    rw [hname, nameOfBounds_of_leadsToClass hfirst hnext hk]
  | .array element dimensions, e, m', n, name, hopen, h, hleads, hn => by
    obtain ⟨k, rfl, hnext⟩ := SymbolGraph.leadsToClass_array.1 hleads
    obtain ⟨f, helement, hname⟩ := run_resolve_array h
    have hk : k ≤ element.arrayDepth + 65 := by
      rw [TypeUse.arrayDepth] at hn
      omega
    rw [hname]
    exact name_of_run_resolve_of_leadsToClass hm element hopen helement hnext hk
  | .unresolved, e, m', n, name, _, _, hleads, _ =>
    (SymbolGraph.not_leadsToClass_unresolved hleads).elim

/-- A use that leads to no class, or to one that is too far away, resolves to an element with the
name of the top type, unless it is of a class without a name. -/
theorem name_of_run_resolve_eq_topType (hm : Keyed r m) :
    ∀ (use : TypeUse) {e : ClassElement} {m' : Memory},
      (∀ w, use.beneathArrays = .typeVariable w → LeavesOpen r.graph generics w) →
      (∀ s arguments d, use.beneathArrays = .declared s arguments →
        r.graph.classDeclaration? s = some d → d.qualifiedName ≠ "") →
      (r.resolve generics use).run.run m = (.ok e, m') →
      (∀ n name, r.graph.LeadsToClass use n name → use.arrayDepth + 65 < n) →
      e.name = r.settings.topType
  | .declared s arguments, e, m', _, hnamed, h, hfar => by
    obtain ⟨d, hd, -⟩ := name_of_run_resolve_declared hm h
    have hleads : r.graph.LeadsToClass (.declared s arguments) 0 d.qualifiedName :=
      SymbolGraph.leadsToClass_declared.2 ⟨rfl, hnamed s arguments d rfl hd, d, hd, rfl⟩
    exact absurd (hfar 0 _ hleads) (Nat.not_lt_zero _)
  | .typeVariable w, e, m', hopen, _, h, hfar => by
    obtain ⟨d, hs, hname⟩ := name_of_run_resolve_typeVariable hm (hopen w rfl) h
    rw [hname]
    refine nameOfBounds_eq_topType fun first hfirst k hk name hnext => ?_
    have hlong := hfar (k + 1) name
      (SymbolGraph.leadsToClass_typeVariable.2 ⟨d, first, k, hs, hfirst, rfl, hnext⟩)
    rw [TypeUse.arrayDepth] at hlong
    omega
  | .array element dimensions, e, m', hopen, hnamed, h, hfar => by
    obtain ⟨f, helement, hname⟩ := run_resolve_array h
    rw [hname]
    refine name_of_run_resolve_eq_topType hm element hopen hnamed helement
      fun k name hnext => ?_
    have hlong := hfar (k + 1) name (SymbolGraph.leadsToClass_array.2 ⟨k, rfl, hnext⟩)
    rw [TypeUse.arrayDepth] at hlong
    omega
  | .unresolved, e, m', _, _, h, _ => by
    rw [resolve] at h
    cases h
    exact name_of_run_topType hm

/-- A use of a class without a name resolves to an element without a name, and leads nowhere. -/
theorem name_of_run_resolve_of_nameless (hm : Keyed r m) {s : Symbol} {arguments : List TypeUse}
    {d : ClassDeclaration} (hs : r.graph.classDeclaration? s = some d)
    (hnameless : d.qualifiedName = "") :
    ∀ (use : TypeUse) {e : ClassElement} {m' : Memory},
      use.beneathArrays = .declared s arguments →
      (r.resolve generics use).run.run m = (.ok e, m') →
      e.name = "" ∧ ∀ n name, ¬ r.graph.LeadsToClass use n name
  | .declared s' arguments', e, m', huse, h => by
    cases huse
    obtain ⟨d', hs', hname⟩ := name_of_run_resolve_declared hm h
    obtain rfl := Option.some.inj (hs.symm.trans hs')
    refine ⟨hname.trans hnameless, fun n name hleads => ?_⟩
    obtain ⟨-, hne, d', hs', rfl⟩ := SymbolGraph.leadsToClass_declared.1 hleads
    obtain rfl := Option.some.inj (hs.symm.trans hs')
    exact hne hnameless
  | .array element dimensions, e, m', huse, h => by
    obtain ⟨f, helement, hname⟩ := run_resolve_array h
    obtain ⟨hempty, hnone⟩ :=
      name_of_run_resolve_of_nameless hm hs hnameless element huse helement
    refine ⟨hname.trans hempty, fun n name hleads => ?_⟩
    obtain ⟨k, -, hnext⟩ := SymbolGraph.leadsToClass_array.1 hleads
    exact hnone k name hnext
  | .typeVariable _, _, _, huse, _ => by cases huse
  | .unresolved, _, _, huse, _ => by cases huse

/-- A placeholder that is asked for is that of its type parameter. -/
theorem eq_of_run_placeholderOf (hm : Keyed r m) {v : Symbol} {d : TypeParameterDeclaration}
    (hv : r.graph.typeParameter? v = some d)
    (h : (r.placeholderOf v generics).run.run m = (.ok e, m')) :
    ∃ captured, captured.keyText = generics.keyText ∧ e = r.placeholderElement v d captured := by
  obtain ⟨d', between, hknown, hmade⟩ := run_bind_eq_ok h
  obtain ⟨hv', rfl⟩ := run_known_eq_ok hknown
  obtain rfl := Option.some.inj (hv.symm.trans hv')
  obtain ⟨captured, htext, hrun⟩ := run_placeholder hm hv generics
  cases hmade
  exact ⟨captured, htext, hrun⟩

/-- A placeholder that is asked for has captured what reads like the substitution. Its name and that
of its first bound are compared, when the bounds are asked for in any memory that calls leave
behind. If the bound is a class without a name beneath arrays, the placeholder has the name of the
top type, and the bound has none.

Let what the placeholder captured leave open the type variable beneath the arrays of the bound. Then
the names are the same otherwise, with one more exception, where the placeholder has the name of the
top type: a class that is more than 64 steps away may still be near enough for the bound, which is a
placeholder with a name of its own or a class beneath arrays. -/
theorem name_of_first_bound {v : Symbol} {d : TypeParameterDeclaration}
    (hv : r.graph.typeParameter? v = some d) {generics : TypeArguments} {p : ClassElement}
    {m m' : Memory} (hm : LeftByCalls r m)
    (hp : (r.placeholderOf v generics).run.run m = (.ok p, m')) :
    p.captured.keyText = generics.keyText ∧
    ∀ first ∈ d.bounds.head?, ∀ later e es, LeftByCalls r later →
      ((r.answer (.bounds p)).run.run later).1 = .ok (.elements (e :: es)) →
      (∀ s arguments c, first.beneathArrays = .declared s arguments →
        r.graph.classDeclaration? s = some c → c.qualifiedName = "" →
        p.name = r.settings.topType ∧ e.name = "") ∧
      ((∀ w, first.beneathArrays = .typeVariable w → LeavesOpen r.graph p.captured w) →
        (∀ n name, r.graph.LeadsToClass first n name → 64 < n → n ≤ first.arrayDepth + 65 →
          p.name = r.settings.topType ∧ e.name = name) ∧
        ((∀ s arguments c, first.beneathArrays = .declared s arguments →
            r.graph.classDeclaration? s = some c → c.qualifiedName ≠ "") →
          (∀ n name, r.graph.LeadsToClass first n name → n ≤ 64 ∨ first.arrayDepth + 65 < n) →
          p.name = e.name)) := by
  obtain ⟨captured, htext, rfl⟩ := eq_of_run_placeholderOf hm.keyed hv hp
  have hname : (r.placeholderElement v d captured).name = r.nameOfBounds d.bounds := rfl
  rw [hname]
  refine ⟨htext, ?_⟩
  intro first hfirst later e es hlater he
  obtain ⟨resolved, hresolve⟩ := run_resolve_first hfirst he
  refine ⟨fun s arguments c huse hc hnameless => ?_, fun hopen =>
    ⟨fun n name hleads hfar hnear => ?_, fun hnamed hlimit => ?_⟩⟩
  · obtain ⟨hempty, hnone⟩ :=
      name_of_run_resolve_of_nameless hlater.keyed hc hnameless first huse hresolve
    exact ⟨nameOfBounds_of_none hfirst hnone, hempty⟩
  · exact ⟨nameOfBounds_of_far hfirst hleads hfar,
      name_of_run_resolve_of_leadsToClass hlater.keyed first hopen hresolve hleads hnear⟩
  · have hbound := name_of_run_resolve_eq_topType hlater.keyed first hopen hnamed hresolve
    by_cases hleads : ∃ n name, r.graph.LeadsToClass first n name
    · obtain ⟨n, name, hleads⟩ := hleads
      rcases hlimit n name hleads with hn | hn
      · rw [nameOfBounds_of_leadsToClass hfirst hleads hn,
          name_of_run_resolve_of_leadsToClass hlater.keyed first hopen hresolve hleads (by omega)]
      -- both limits are reached
      · rw [nameOfBounds_of_far hfirst hleads (by omega), hbound fun n' name' hleads' => ?_]
        rwa [← (hleads.unique hleads').1]
    · push Not at hleads
      rw [nameOfBounds_of_none hfirst hleads, hbound fun n name h => absurd h (hleads n name)]

/-- Under no substitution the placeholder has the name that its first bound resolves to. -/
theorem name_of_first_bound_shelfResolver :
    ∃ m' e, LeftByCalls shelfResolver {} ∧ LeftByCalls shelfResolver m' ∧
      (shelfResolver.placeholderOf (.ofTypeParameter "Shelf<B>") ∅).run.run {}
        = (.ok shelfPlaceholder, m') ∧
      ((shelfResolver.answer (.bounds shelfPlaceholder)).run.run m').1 = .ok (.elements [e]) ∧
      LeavesOpen shelfGraph shelfPlaceholder.captured (.ofTypeParameter "Shelf<A>") ∧
      e.dimensions = 1 ∧ shelfPlaceholder.name = e.name := by
  have hstart : LeftByCalls shelfResolver {} := .start []
  have hlater := hstart.call (.placeholder (.ofTypeParameter "Shelf<B>") ∅)
  have hopen : ∀ w, (TypeUse.array (.typeVariable (.ofTypeParameter "Shelf<A>")) 1).beneathArrays
      = .typeVariable w → LeavesOpen shelfGraph shelfPlaceholder.captured w :=
    fun w _ => leavesOpen_empty shelfGraph w
  have hv : shelfResolver.graph.typeParameter? (.ofTypeParameter "Shelf<B>") = some _ := rfl
  have hp : (shelfResolver.placeholderOf (.ofTypeParameter "Shelf<B>") ∅).run.run {}
      = (.ok shelfPlaceholder, _) := rfl
  obtain ⟨-, hbound⟩ := name_of_first_bound hv hstart hp
  obtain ⟨-, hopened⟩ := hbound _ rfl _ _ [] hlater rfl
  obtain ⟨-, hname⟩ := hopened hopen
  refine ⟨_, _, hstart, hlater, rfl, rfl, hopen _ rfl, rfl, hname (fun _ _ _ huse => ?_) ?_⟩
  · cases huse
  · intro n name hleads
    obtain ⟨rfl, -⟩ := hleads.unique leadsToClass_shelfGraph
    exact Or.inl (by decide)

/-- The element of a class without type parameters. -/
def numberElement : ClassElement := .declared { symbol := .ofClass "Number", name := "Number" } ∅

/-- A class without a name, a class whose type parameter is bounded by it, and a class whose type
parameter is bounded by many arrays, each of the next. -/
def farGraph : SymbolGraph :=
  (SymbolGraph.ofEdits [
    .addClass "Text" .plain,
    .addClass "Blank" .plain,
    .addClass "Holder" .plain,
    .addTypeParameter (.ofClass "Holder") "T" [.declared (.ofClass "Blank") []],
    .addClass "Stack" .plain,
    .addTypeParameter (.ofClass "Stack") "T"
      [Nat.repeat (fun use => .array use 1) 65 (.declared (.ofClass "Text") [])]]).modifyClass
    "Blank" fun d => { d with qualifiedName := "" }

/-- A resolver of these classes. -/
def farResolver : Resolver := .ofUnits farGraph {} []

set_option maxRecDepth 1000 in
/-- A placeholder may have another name than its first bound. In the one graph, the substitution
that it was met under binds the type variable in the bound to an element that was returned before.
In the other, it is bounded by a class without a name, or by a class beneath 65 arrays. -/
theorem exists_name_ne_first_bound :
    (∃ m p m' e, (shelfResolver.answer (.elementOf (.ofClass "Number"))).run.run {}
        = (.ok (.element numberElement), m) ∧
      (shelfResolver.placeholderOf (.ofTypeParameter "Shelf<B>")
        (.cons "A" numberElement .nil)).run.run m = (.ok p, m') ∧
      ((shelfResolver.answer (.bounds p)).run.run m').1 = .ok (.elements [e]) ∧
      p.name = "Text" ∧ e.name = "Number") ∧
    (∃ p m' e, (farResolver.placeholderOf (.ofTypeParameter "Holder<T>") ∅).run.run {}
        = (.ok p, m') ∧
      ((farResolver.answer (.bounds p)).run.run m').1 = .ok (.elements [e]) ∧
      p.name = "java.lang.Object" ∧ e.name = "") ∧
    (∃ p m' e, (farResolver.placeholderOf (.ofTypeParameter "Stack<T>") ∅).run.run {}
        = (.ok p, m') ∧
      ((farResolver.answer (.bounds p)).run.run m').1 = .ok (.elements [e]) ∧
      p.name = "java.lang.Object" ∧ e.name = "Text") := by
  refine ⟨⟨_, _, _, _, rfl, rfl, rfl, ?_, ?_⟩, ⟨_, _, _, rfl, rfl, ?_, ?_⟩,
    ⟨_, _, _, rfl, rfl, ?_, ?_⟩⟩
  · rfl
  · rfl
  · rfl
  · rfl
  · rfl
  · rfl

end Resolver

end BeanProcessing

import BeanProcessing.Proofs.Resolver.Closure
import BeanProcessing.Proofs.SymbolGraph.Declarations

/-!
# Links of edited graphs

A graph that is made step by step lists symbols of its own only. Every class is listed under its own
name, type parameters are listed where type parameters are declared, members where functions are and
parameters where value parameters are. Such a graph is `Linked`.

Each change of a graph `Builds` on it: nothing that is declared gets lost, and a linked graph stays
linked. So all that can be missing from an edited graph is what its units list.
-/

namespace BeanProcessing

namespace SymbolGraph

variable {g g' g'' : SymbolGraph}

/-! ## Links -/

/-- Whether what a class lists is declared, each in its place. -/
structure LinksClass (g : SymbolGraph) (s : Symbol) (d : ClassDeclaration) : Prop where
  qualifiedName : d.qualifiedName = s.path
  typeParameters : ∀ p ∈ d.typeParameters, (g.typeParameter? p).isSome
  members : ∀ f ∈ d.members, (g.functionDeclaration? f).isSome

/-- Whether what a function lists is declared, each in its place. -/
structure LinksFunction (g : SymbolGraph) (d : FunctionDeclaration) : Prop where
  typeParameters : ∀ p ∈ d.typeParameters, (g.typeParameter? p).isSome
  parameters : ∀ p ∈ d.parameters, (g.valueParameter? p).isSome

/-- Whether what classes and functions list is declared, each in its place. -/
structure Linked (g : SymbolGraph) : Prop where
  classes {s : Symbol} {d : ClassDeclaration} (h : g.classDeclaration? s = some d) :
    g.LinksClass s d
  functions {s : Symbol} {d : FunctionDeclaration} (h : g.functionDeclaration? s = some d) :
    g.LinksFunction d

theorem linked_empty : (∅ : SymbolGraph).Linked where
  classes {s d} h := by
    rw [classDeclaration?_eq, declarationIn] at h
    split at h <;> cases h
  functions {s d} h := by
    rw [functionDeclaration?_eq, declarationIn] at h
    split at h <;> cases h

/-! ## Growth -/

/-- Whether all that a graph declares is declared in another, each in its place. -/
structure Grows (g g' : SymbolGraph) : Prop where
  classes {s : Symbol} (h : (g.classDeclaration? s).isSome) : (g'.classDeclaration? s).isSome
  functions {s : Symbol} (h : (g.functionDeclaration? s).isSome) :
    (g'.functionDeclaration? s).isSome
  valueParameters {s : Symbol} (h : (g.valueParameter? s).isSome) : (g'.valueParameter? s).isSome
  typeParameters {s : Symbol} (h : (g.typeParameter? s).isSome) : (g'.typeParameter? s).isSome

theorem Grows.refl (g : SymbolGraph) : Grows g g := ⟨id, id, id, id⟩

theorem Grows.trans (h : Grows g g') (h' : Grows g' g'') : Grows g g'' where
  classes hs := h'.classes (h.classes hs)
  functions hs := h'.functions (h.functions hs)
  valueParameters hs := h'.valueParameters (h.valueParameters hs)
  typeParameters hs := h'.typeParameters (h.typeParameters hs)

theorem Grows.contains (h : Grows g g') {s : Symbol} (hs : g.contains s = true) :
    g'.contains s = true := by
  rw [contains_iff] at hs ⊢
  exact hs.imp h.classes (Or.imp h.functions (Or.imp h.valueParameters h.typeParameters))

theorem LinksClass.mono {s : Symbol} {d : ClassDeclaration} (hd : g.LinksClass s d)
    (h : Grows g g') : g'.LinksClass s d where
  qualifiedName := hd.qualifiedName
  typeParameters p hp := h.typeParameters (hd.typeParameters p hp)
  members f hf := h.functions (hd.members f hf)

theorem LinksFunction.mono {d : FunctionDeclaration} (hd : g.LinksFunction d) (h : Grows g g') :
    g'.LinksFunction d where
  typeParameters p hp := h.typeParameters (hd.typeParameters p hp)
  parameters p hp := h.valueParameters (hd.parameters p hp)

/-- What is declared stays declared if one declaration is put into its place. -/
theorem isSome_of_eq_ite {δ : Type} {p : Prop} [Decidable p] {o o' : Option δ} {d : δ}
    (h : o' = if p then some d else o) (ho : o.isSome) : o'.isSome := by
  rw [h]
  split
  · rfl
  · exact ho

/-! ## Changes -/

/-- Whether a graph comes from another by changes that lose no declaration and break no link. -/
structure Builds (g g' : SymbolGraph) : Prop where
  grows : Grows g g'
  linked (h : g.Linked) : g'.Linked

theorem Builds.refl (g : SymbolGraph) : Builds g g := ⟨.refl g, id⟩

theorem Builds.trans (h : Builds g g') (h' : Builds g' g'') : Builds g g'' where
  grows := h.grows.trans h'.grows
  linked hg := h'.linked (h.linked hg)

/-- Links have to be looked at only where a change puts other declarations. -/
theorem Builds.of_grows (h : Grows g g')
    (hclasses : g.Linked → ∀ s d, g'.classDeclaration? s = some d →
      g.classDeclaration? s = some d ∨ g.LinksClass s d)
    (hfunctions : g.Linked → ∀ s d, g'.functionDeclaration? s = some d →
      g.functionDeclaration? s = some d ∨ g.LinksFunction d) : Builds g g' where
  grows := h
  linked hg :=
    -- links that held before still hold, since all that they lead to is still declared
    { classes := fun {s d} hd => by
        obtain hold | hnew := hclasses hg s d hd
        · exact (hg.classes hold).mono h
        · exact hnew.mono h
      functions := fun {s d} hd => by
        obtain hold | hnew := hfunctions hg s d hd
        · exact (hg.functions hold).mono h
        · exact hnew.mono h }

theorem SameDeclarations.builds (h : SameDeclarations g g') : Builds g g' := by
  refine .of_grows ⟨?_, ?_, ?_, ?_⟩ (fun _ s d hd => ?_) (fun _ s d hd => ?_)
  · exact fun {s} hs => by rwa [h.classes]
  · exact fun {s} hs => by rwa [h.functions]
  · exact fun {s} hs => by rwa [h.valueParameters]
  · exact fun {s} hs => by rwa [h.typeParameters]
  · exact Or.inl (by rwa [← h.classes])
  · exact Or.inl (by rwa [← h.functions])

theorem builds_modifyClass (g : SymbolGraph) (path : String)
    {f : ClassDeclaration → ClassDeclaration}
    (hf : ∀ d, g.LinksClass (.ofClass path) d → g.LinksClass (.ofClass path) (f d)) :
    Builds g (g.modifyClass path f) := by
  refine .of_grows { Grows.refl g with classes := fun {s} hs => ?_ } (fun hg s d hd => ?_)
    (fun _ _ _ hd => Or.inl hd)
  · rw [classDeclaration?_modifyClass]
    split
    · simpa using hs
    · exact hs
  · rw [classDeclaration?_modifyClass] at hd
    split at hd
    · next hpath =>
      subst hpath
      obtain ⟨d', hd', rfl⟩ := Option.map_eq_some_iff.1 hd
      exact Or.inr (hf d' (hg.classes hd'))
    · exact Or.inl hd

theorem builds_modifyFunction (g : SymbolGraph) (path : String)
    {f : FunctionDeclaration → FunctionDeclaration}
    (hf : ∀ d, g.LinksFunction d → g.LinksFunction (f d)) :
    Builds g (g.modifyFunction path f) := by
  refine .of_grows { Grows.refl g with functions := fun {s} hs => ?_ }
    (fun _ _ _ hd => Or.inl hd) (fun hg s d hd => ?_)
  · rw [functionDeclaration?_modifyFunction]
    split
    · simpa using hs
    · exact hs
  · rw [functionDeclaration?_modifyFunction] at hd
    split at hd
    · obtain ⟨d', hd', rfl⟩ := Option.map_eq_some_iff.1 hd
      exact Or.inr (hf d' (hg.functions hd'))
    · exact Or.inl hd

theorem builds_insertClass (g : SymbolGraph) (path : String) {entry : Entry ClassDeclaration}
    (h : g.LinksClass (.ofClass path) entry.declaration) :
    Builds g { g with classes := g.classes.insert path entry } := by
  have hgrows : Grows g { g with classes := g.classes.insert path entry } :=
    { Grows.refl g with
      classes := fun {s} hs => isSome_of_eq_ite (classDeclaration?_insert g s path entry) hs }
  refine .of_grows hgrows (fun _ s d hd => ?_) (fun _ _ _ hd => Or.inl hd)
  rw [classDeclaration?_insert] at hd
  split at hd
  · next hpath =>
    subst hpath
    cases hd
    exact Or.inr h
  · exact Or.inl hd

theorem builds_ensureClass (g : SymbolGraph) (path : String) : Builds g (g.ensureClass path) := by
  unfold ensureClass Table.insertIfNew
  split
  · exact .refl g
  · exact builds_insertClass g path ⟨rfl, nofun, nofun⟩

theorem builds_insertFunction (g : SymbolGraph) (path : String)
    {entry : Entry FunctionDeclaration} (h : g.LinksFunction entry.declaration) :
    Builds g { g with functions := g.functions.insert path entry } := by
  have hgrows : Grows g { g with functions := g.functions.insert path entry } :=
    { Grows.refl g with
      functions := fun {s} hs => isSome_of_eq_ite (functionDeclaration?_insert g s path entry) hs }
  refine .of_grows hgrows (fun _ _ _ hd => Or.inl hd) (fun _ s d hd => ?_)
  rw [functionDeclaration?_insert] at hd
  split at hd
  · cases hd
    exact Or.inr h
  · exact Or.inl hd

theorem builds_declareTypeParameter (g : SymbolGraph) (owner : Symbol) (name : String)
    (bounds : List TypeUse) : Builds g (g.declareTypeParameter owner name bounds) := by
  have hgrows : Grows g (g.declareTypeParameter owner name bounds) :=
    { Grows.refl g with
      typeParameters := fun {s} hs =>
        isSome_of_eq_ite (typeParameter?_declareTypeParameter g s owner name bounds) hs }
  exact .of_grows hgrows (fun _ _ _ hd => Or.inl hd) (fun _ _ _ hd => Or.inl hd)

theorem builds_addParameters (g : SymbolGraph) (f : Symbol) (n : Nat)
    (parameters : List ValueParameterDeclaration) :
    Builds g (g.addParameters f n parameters) := by
  induction parameters generalizing g n with
  | nil => exact .refl g
  | cons p rest ih =>
    refine Builds.trans ?_ (ih _ (n + 1))
    refine .of_grows { Grows.refl g with valueParameters := fun {s} hs => ?_ }
      (fun _ _ _ hd => Or.inl hd) (fun _ _ _ hd => Or.inl hd)
    exact isSome_of_eq_ite (valueParameter?_insert g s _ _) hs

/-! ## Steps -/

theorem builds_listTypeParameter (g : SymbolGraph) (owner : Symbol) {p : Symbol}
    (hp : (g.typeParameter? p).isSome) : Builds g (g.listTypeParameter owner p) := by
  have hlisted : ∀ {listed : List Symbol}, (∀ q ∈ listed, (g.typeParameter? q).isSome) →
      ∀ q ∈ listed ++ [p], (g.typeParameter? q).isSome := fun hlisted q hq => by
    rcases List.mem_append.1 hq with hq | hq
    · exact hlisted q hq
    · rwa [List.mem_singleton.1 hq]
  have hfunction := builds_modifyFunction g owner.path
    (f := fun d => { d with typeParameters := d.typeParameters ++ [p] })
    fun d hd => { hd with typeParameters := hlisted hd.typeParameters }
  unfold listTypeParameter
  split
  · exact builds_modifyClass g owner.path
      fun d hd => { hd with typeParameters := hlisted hd.typeParameters }
  · exact hfunction

theorem builds_addTypeParameter (g : SymbolGraph) (owner : Symbol) (name : String)
    (bounds : List TypeUse) : Builds g (g.addTypeParameter owner name bounds) := by
  by_cases howner : owner.kind = .classType ∨ owner.kind = .function
  · rw [addTypeParameter_eq g howner]
    refine (builds_declareTypeParameter g owner name bounds).trans ?_
    refine builds_listTypeParameter _ owner ?_
    rw [typeParameter?_declareTypeParameter, if_pos rfl]
    rfl
  · have hsame : g.addTypeParameter owner name bounds = g := if_neg howner
    rw [hsame]
    exact .refl g

/-- A function and its parameters are declared before it is listed. -/
theorem builds_declareFunction (g : SymbolGraph) (classPath : String) (f : Symbol)
    {d : FunctionDeclaration} (hd : d.typeParameters = [])
    (parameters : List ValueParameterDeclaration) :
    Builds g (g.declareFunction classPath f d parameters) := by
  refine (builds_addParameters g f 0 parameters).trans ?_
  refine builds_insertFunction _ f.path ⟨?_, ?_⟩
  · intro p hp
    have hnone : (withParameters f d parameters).typeParameters = [] := hd
    rw [hnone] at hp
    cases hp
  · intro p hp
    obtain ⟨i, hi, rfl⟩ := List.mem_map.1 hp
    have hdeclared := valueParameter?_addParameters g f 0 parameters
    have hi' : (g.addParameters f 0 parameters).valueParameter? (f.parameter (0 + i))
        ∈ parameters.map some := hdeclared ▸ List.mem_map_of_mem hi
    obtain ⟨p, -, hp⟩ := List.mem_map.1 hi'
    rw [Nat.zero_add] at hp
    exact Option.isSome_of_eq_some hp.symm

theorem builds_addFunction (g : SymbolGraph) (classPath : String) {d : FunctionDeclaration}
    (hd : d.typeParameters = []) (parameters : List ValueParameterDeclaration) :
    Builds g (g.addFunction classPath d parameters) := by
  rw [addFunction_eq]
  refine (builds_ensureClass g classPath).trans ?_
  refine (builds_declareFunction _ classPath (g.nextMember classPath d.name) hd parameters).trans ?_
  refine builds_modifyClass _ classPath fun c hc => { hc with members := fun f hf => ?_ }
  rcases List.mem_append.1 hf with hf | hf
  · exact hc.members f hf
  · rw [List.mem_singleton.1 hf, functionDeclaration?_declareFunction]
    exact Option.isSome_of_eq_some (if_pos rfl)

/-- No step loses a declaration or breaks a link. -/
theorem builds_apply (g : SymbolGraph) (e : Edit) : Builds g (g.apply e) := by
  cases e with
  | addClass path kind => exact builds_insertClass g path ⟨rfl, nofun, nofun⟩
  | addNested outer path kind modifiers => exact builds_insertClass g path ⟨rfl, nofun, nofun⟩
  | setModifiers classPath modifiers =>
    rw [apply]
    refine (builds_ensureClass g classPath).trans ?_
    exact builds_modifyClass _ classPath fun d hd => ⟨hd.1, hd.2, hd.3⟩
  | enclose s outer =>
    rw [apply]
    exact (sameDeclarations_modifyPlacement g s _).builds
  | annotate s name =>
    rw [apply]
    refine Builds.trans ?_ (sameDeclarations_modifyPlacement _ s _).builds
    unfold listOnClass
    split
    · exact builds_modifyClass g s.path fun d hd => ⟨hd.1, hd.2, hd.3⟩
    · exact .refl g
  | addStereotype s name =>
    rw [apply]
    exact (sameDeclarations_modifyPlacement g s _).builds
  | addTypeParameter owner name bounds => exact builds_addTypeParameter g owner name bounds
  | addConstructor classPath parameters => exact builds_addFunction g classPath rfl parameters
  | addMethod classPath name returnType parameters =>
    exact builds_addFunction g classPath rfl parameters
  | setFunctionModifiers s modifiers =>
    rw [apply]
    exact builds_modifyFunction g s.path fun d hd => ⟨hd.1, hd.2⟩
  | addUnit unit =>
    exact SameDeclarations.builds ⟨fun _ => rfl, fun _ => rfl, fun _ => rfl, fun _ => rfl⟩

theorem builds_foldl_apply (g : SymbolGraph) (edits : List Edit) :
    Builds g (edits.foldl apply g) := by
  induction edits generalizing g with
  | nil => exact .refl g
  | cons e rest ih => exact (builds_apply g e).trans (ih (g.apply e))

theorem linked_ofEdits (edits : List Edit) : (ofEdits edits).Linked :=
  (builds_foldl_apply ∅ edits).linked linked_empty

/-! ## Graphs that are linked -/

theorem LinksClass.contains {s : Symbol} {d : ClassDeclaration} (hd : g.LinksClass s d) :
    ∀ t ∈ d.typeParameters ++ d.members, g.contains t = true := by
  intro t ht
  rw [contains_iff]
  rcases List.mem_append.1 ht with ht | ht
  · exact Or.inr (Or.inr (Or.inr (hd.typeParameters t ht)))
  · exact Or.inr (Or.inl (hd.members t ht))

theorem LinksFunction.contains {d : FunctionDeclaration} (hd : g.LinksFunction d) :
    ∀ t ∈ d.typeParameters ++ d.parameters, g.contains t = true := by
  intro t ht
  rw [contains_iff]
  rcases List.mem_append.1 ht with ht | ht
  · exact Or.inr (Or.inr (Or.inr (hd.typeParameters t ht)))
  · exact Or.inr (Or.inr (Or.inl (hd.parameters t ht)))

theorem classDeclaration?_of_mem {path : String} {entry : Entry ClassDeclaration}
    (h : (path, entry) ∈ g.classes.entries) :
    g.classDeclaration? (.ofClass path) = some entry.declaration := by
  show (g.classes.get? path).map (·.declaration) = _
  rw [Table.get?_of_mem_entries h]
  rfl

theorem functionDeclaration?_of_mem {path : String} {entry : Entry FunctionDeclaration}
    (h : (path, entry) ∈ g.functions.entries) :
    g.functionDeclaration? (.ofFunction path) = some entry.declaration := by
  show (g.functions.get? path).map (·.declaration) = _
  rw [Table.get?_of_mem_entries h]
  rfl

theorem contains_ofClass_iff {n : String} :
    g.contains (.ofClass n) = true ↔ ∃ d, g.classDeclaration? (.ofClass n) = some d := by
  show ((g.classes.get? n).map (·.placement)).isSome = true ↔
    ∃ d, (g.classes.get? n).map (·.declaration) = some d
  cases g.classes.get? n <;> simp

namespace Linked

variable (hg : g.Linked)
include hg

/-- All that can be missing is what a unit lists. -/
theorem firstUndeclared?_eq :
    g.firstUndeclared? = (g.units.flatMap (·.declarations)).find? (!g.contains ·) := by
  have hclasses : (g.classes.values.flatMap fun entry =>
      entry.declaration.typeParameters ++ entry.declaration.members).find?
        (!g.contains ·) = none := by
    rw [List.find?_eq_none]
    intro s hs
    obtain ⟨entry, hentry, hlisted⟩ := List.mem_flatMap.1 hs
    obtain ⟨⟨path, entry⟩, hmem, rfl⟩ := List.mem_map.1 hentry
    have hcontains := (hg.classes (classDeclaration?_of_mem hmem)).contains s hlisted
    simp [hcontains]
  have hfunctions : (g.functions.values.flatMap fun entry =>
      entry.declaration.typeParameters ++ entry.declaration.parameters).find?
        (!g.contains ·) = none := by
    rw [List.find?_eq_none]
    intro s hs
    obtain ⟨entry, hentry, hlisted⟩ := List.mem_flatMap.1 hs
    obtain ⟨⟨path, entry⟩, hmem, rfl⟩ := List.mem_map.1 hentry
    have hcontains := (hg.functions (functionDeclaration?_of_mem hmem)).contains s hlisted
    simp [hcontains]
  unfold firstUndeclared? references
  rw [List.find?_append, List.find?_append, hclasses, hfunctions, Option.or_none, Option.or_none]

/-- A class is found by its path, which is its qualified name. -/
theorem findClass?_eq (n : String) :
    g.findClass? n = if g.contains (.ofClass n) then some (.ofClass n) else none := by
  cases hfind : g.findClass? n with
  | some s =>
    obtain ⟨d, hd, hname⟩ := qualifiedName_of_findClass? hfind
    have hs : s = .ofClass n := by
      rw [← hname, (hg.classes hd).qualifiedName, Symbol.ofClass,
        ← Resolver.kind_of_classDeclaration? hd]
    subst hs
    rw [if_pos (contains_ofClass_iff.2 ⟨d, hd⟩)]
  | none =>
    rw [if_neg]
    intro hcontains
    obtain ⟨d, hd⟩ := contains_ofClass_iff.1 hcontains
    have hname : d.qualifiedName = n := (hg.classes hd).qualifiedName
    exact findClass?_ne_none hd (hname ▸ hfind)

/-- Every class can be resolved with its type parameters left open. -/
theorem exists_elementOf {r : Resolver} (hr : r.graph = g) {s : Symbol} {d : ClassDeclaration}
    (hs : g.classDeclaration? s = some d) (m : Memory) :
    ∃ e, ((r.elementOf s).run.run m).1 = .ok e := by
  subst hr
  have hlinks := hg.classes hs
  have hdeclared : ∀ p ∈ d.typeParameters, r.graph.contains p = true := fun p hp =>
    hlinks.contains p (List.mem_append_left _ hp)
  have hfails : Resolver.FailsBy (Misplaced .typeParameter d.typeParameters) (r.elementOf s) := by
    unfold Resolver.elementOf Resolver.classDeclaration
    rw [hs]
    exact (Resolver.failsBy_bindToPlaceholders ∅ hdeclared ∅).andThen fun bindings =>
      Resolver.FailsBy.state _
  refine hfails.exists_ok ?_ m
  rintro f ⟨p, hp, hkind, -⟩
  obtain ⟨dp, hdp⟩ := Option.isSome_iff_exists.1 (hlinks.typeParameters p hp)
  exact hkind (Resolver.kind_of_typeParameter? hdp)

end Linked

/-- A graph that is made by steps, whatever they are, declares what its classes and functions list,
each in its place, and further steps lose nothing that is declared. So the first symbol that is
listed but not declared is the first such symbol of a unit, a class is found exactly if it is
declared, and every class that is declared can be resolved, whatever was resolved before. -/
theorem integrity_ofEdits (edits : List Edit) :
    (∀ s d, (ofEdits edits).classDeclaration? s = some d →
      (∀ p ∈ d.typeParameters, ((ofEdits edits).typeParameter? p).isSome) ∧
      ∀ f ∈ d.members, ((ofEdits edits).functionDeclaration? f).isSome) ∧
    (∀ s d, (ofEdits edits).functionDeclaration? s = some d →
      (∀ p ∈ d.typeParameters, ((ofEdits edits).typeParameter? p).isSome) ∧
      ∀ p ∈ d.parameters, ((ofEdits edits).valueParameter? p).isSome) ∧
    (∀ further s, (ofEdits edits).contains s = true →
      (ofEdits (edits ++ further)).contains s = true) ∧
    (ofEdits edits).firstUndeclared?
      = ((ofEdits edits).units.flatMap (·.declarations)).find? (!(ofEdits edits).contains ·) ∧
    (∀ n, (ofEdits edits).findClass? n
      = if (ofEdits edits).contains (.ofClass n) then some (.ofClass n) else none) ∧
    ∀ (r : Resolver) (n : String) (m : Memory), r.graph = ofEdits edits →
      (ofEdits edits).contains (.ofClass n) = true →
      ∃ e, ((r.elementOf (.ofClass n)).run.run m).1 = .ok e := by
  have hlinked := linked_ofEdits edits
  refine ⟨fun s d hd => ?_, fun s d hd => ?_, fun further s hs => ?_,
    hlinked.firstUndeclared?_eq, hlinked.findClass?_eq, fun r n m hr hn => ?_⟩
  · have hlinks := hlinked.classes hd
    exact ⟨hlinks.typeParameters, hlinks.members⟩
  · have hlinks := hlinked.functions hd
    exact ⟨hlinks.typeParameters, hlinks.parameters⟩
  · have hgrows := (builds_foldl_apply (ofEdits edits) further).grows
    rw [ofEdits, List.foldl_append]
    exact hgrows.contains hs
  · obtain ⟨d, hd⟩ := contains_ofClass_iff.1 hn
    exact hlinked.exists_elementOf hr hd m

end SymbolGraph

end BeanProcessing

import BeanProcessing.Proofs.Element.Equality
import BeanProcessing.Proofs.Key.Readability
import BeanProcessing.Proofs.Resolver.Agreement
import Mathlib.Data.List.Nodup

/-!
# Canonical elements

The elements that a resolver makes are determined by very little: a class element by its qualified
name, its dimensions and its arguments, a placeholder by the path of its type parameter, its
dimensions and the substitution it captured. Elements in which this holds all the way down are
*canonical*. Direct resolution makes canonical elements out of canonical substitutions, and where
a graph is `Readable`, a canonical substitution is determined by its key text.
-/

namespace BeanProcessing

/-! ## Lookups and entries -/

theorem Table.mem_entries_of_get? {κ α : Type} [DecidableEq κ] {t : Table κ α} {k : κ} {a : α}
    (h : t.get? k = some a) : (k, a) ∈ t.entries := by
  have hlookup : ∀ l : List (κ × α), lookup k l = some a → (k, a) ∈ l := by
    intro l
    induction l with
    | nil => intro hl; cases hl
    | cons entry rest ih =>
      intro hl
      unfold lookup at hl
      split at hl
      · next hkey =>
        cases hl
        rw [← hkey]
        exact List.mem_cons_self
      · exact List.mem_cons_of_mem _ (ih hl)
  exact hlookup t.entries h

theorem Table.get?_of_mem_entries {κ α : Type} [DecidableEq κ] {t : Table κ α} {k : κ} {a : α}
    (h : (k, a) ∈ t.entries) : t.get? k = some a := by
  have hlookup : ∀ l : List (κ × α), (l.map Prod.fst).Nodup → (k, a) ∈ l →
      lookup k l = some a := by
    intro l
    induction l with
    | nil => intro _ hl; cases hl
    | cons entry rest ih =>
      intro hnodup hl
      obtain ⟨hfirst, hrest⟩ := List.nodup_cons.1 hnodup
      unfold lookup
      rcases List.mem_cons.1 hl with rfl | hl
      · exact if_pos rfl
      · have hne : entry.1 ≠ k := fun hkey => hfirst (hkey ▸ List.mem_map_of_mem hl)
        rw [if_neg hne]
        exact ih hrest hl
  exact hlookup t.entries t.nodup_keys h

namespace SymbolGraph

variable {g : SymbolGraph}

theorem exists_entry_of_classDeclaration? {s : Symbol} {d : ClassDeclaration}
    (h : g.classDeclaration? s = some d) :
    s.kind = .classType ∧ ∃ entry, (s.path, entry) ∈ g.classes.entries ∧ entry.declaration = d := by
  have hkind := Resolver.kind_of_classDeclaration? h
  unfold classDeclaration? at h
  rw [hkind] at h
  obtain ⟨entry, hentry, rfl⟩ := Option.map_eq_some_iff.1 h
  exact ⟨hkind, entry, Table.mem_entries_of_get? hentry, rfl⟩

theorem exists_entry_of_typeParameter? {s : Symbol} {d : TypeParameterDeclaration}
    (h : g.typeParameter? s = some d) :
    s.kind = .typeParameter ∧
      ∃ entry, (s.path, entry) ∈ g.typeParameters.entries ∧ entry.declaration = d := by
  have hkind := Resolver.kind_of_typeParameter? h
  unfold typeParameter? at h
  rw [hkind] at h
  obtain ⟨entry, hentry, rfl⟩ := Option.map_eq_some_iff.1 h
  exact ⟨hkind, entry, Table.mem_entries_of_get? hentry, rfl⟩

theorem qualifiedName_of_findClass? {name : String} {s : Symbol}
    (h : g.findClass? name = some s) :
    ∃ d, g.classDeclaration? s = some d ∧ d.qualifiedName = name := by
  obtain ⟨⟨path, entry⟩, hfind, rfl⟩ := Option.map_eq_some_iff.1 h
  have hget := Table.get?_of_mem_entries (List.mem_of_find?_eq_some hfind)
  have hname := List.find?_some hfind
  refine ⟨entry.declaration, ?_, of_decide_eq_true hname⟩
  show (g.classes.get? path).map (·.declaration) = some entry.declaration
  rw [hget]
  rfl

theorem findClass?_ne_none {s : Symbol} {d : ClassDeclaration}
    (hs : g.classDeclaration? s = some d) : g.findClass? d.qualifiedName ≠ none := by
  obtain ⟨-, entry, hentry, rfl⟩ := exists_entry_of_classDeclaration? hs
  intro hnone
  have hne := List.find?_eq_none.1 (Option.map_eq_none_iff.1 hnone) _ hentry
  exact hne (decide_eq_true rfl)

end SymbolGraph

/-- The path of a declared type parameter is all there is to its symbol. -/
theorem parameterSymbol_eq {g : SymbolGraph} {s t : Symbol} {d e : TypeParameterDeclaration}
    (hs : g.typeParameter? s = some d) (ht : g.typeParameter? t = some e)
    (hpath : s.path = t.path) : s = t := by
  have hkind : s.kind = t.kind := by
    rw [Resolver.kind_of_typeParameter? hs, Resolver.kind_of_typeParameter? ht]
  obtain ⟨kind, path⟩ := s
  obtain ⟨kind', path'⟩ := t
  rw [Symbol.mk.injEq]
  exact ⟨hkind, hpath⟩

/-! ## Readable graphs -/

/-- Whether what a resolver names things with can be read off key texts: no two classes have one
qualified name, no name has a mark of a key text in it, and no path of a type parameter has the
brace that ends it. -/
structure Resolver.Readable (r : Resolver) : Prop where
  nodup_classNames : (r.graph.classes.values.map (·.declaration.qualifiedName)).Nodup
  plain_classNames : ∀ entry ∈ r.graph.classes.values, PlainName entry.declaration.qualifiedName
  plain_parameterNames : ∀ entry ∈ r.graph.typeParameters.values, PlainName entry.declaration.name
  open_parameterPaths : ∀ path ∈ r.graph.typeParameters.keys, OpenPath path
  plain_topType : PlainName r.settings.topType

namespace Resolver

variable {r : Resolver}

theorem Readable.symbol_eq (hr : r.Readable) {s t : Symbol} {d e : ClassDeclaration}
    (hs : r.graph.classDeclaration? s = some d) (ht : r.graph.classDeclaration? t = some e)
    (hname : d.qualifiedName = e.qualifiedName) : s = t := by
  obtain ⟨hskind, entry, hentry, rfl⟩ := SymbolGraph.exists_entry_of_classDeclaration? hs
  obtain ⟨htkind, entry', hentry', rfl⟩ := SymbolGraph.exists_entry_of_classDeclaration? ht
  have hnodup := hr.nodup_classNames
  rw [Table.values, List.map_map] at hnodup
  have hpair := List.inj_on_of_nodup_map hnodup hentry hentry' hname
  cases s
  cases t
  cases hpair
  simp_all

theorem Readable.plain_className (hr : r.Readable) {s : Symbol} {d : ClassDeclaration}
    (hs : r.graph.classDeclaration? s = some d) : PlainName d.qualifiedName := by
  obtain ⟨-, entry, hentry, rfl⟩ := SymbolGraph.exists_entry_of_classDeclaration? hs
  exact hr.plain_classNames entry (List.mem_map.2 ⟨_, hentry, rfl⟩)

theorem Readable.plain_parameterName (hr : r.Readable) {s : Symbol}
    {d : TypeParameterDeclaration} (hs : r.graph.typeParameter? s = some d) :
    PlainName d.name := by
  obtain ⟨-, entry, hentry, rfl⟩ := SymbolGraph.exists_entry_of_typeParameter? hs
  exact hr.plain_parameterNames entry (List.mem_map.2 ⟨_, hentry, rfl⟩)

theorem Readable.open_parameterPath (hr : r.Readable) {s : Symbol}
    {d : TypeParameterDeclaration} (hs : r.graph.typeParameter? s = some d) : OpenPath s.path := by
  obtain ⟨-, entry, hentry, -⟩ := SymbolGraph.exists_entry_of_typeParameter? hs
  exact hr.open_parameterPaths s.path (List.mem_map.2 ⟨_, hentry, rfl⟩)

/-! ## Canonical elements -/

/-- Whether a name is that of a declared type parameter. -/
def NamesParameter (g : SymbolGraph) (name : String) : Prop :=
  ∃ s d, g.typeParameter? s = some d ∧ d.name = name

/-- Puts the name of a type parameter behind others, unless it is among them. -/
def addParameterName (g : SymbolGraph) (names : List String) (parameter : Symbol) : List String :=
  match g.typeParameter? parameter with
  | some d => if d.name ∈ names then names else names ++ [d.name]
  | none => names

/-- The names of type parameters, each once. -/
def parameterNames (g : SymbolGraph) (parameters : List Symbol) : List String :=
  parameters.foldl (addParameterName g) []

/-- Whether an element is made for the class with its symbol: all its parts but the dimensions and
the arguments come from the declaration, and the arguments are under the names of the type
parameters. -/
def MadeForClass (r : Resolver) (e : ClassElement) : Prop :=
  ∃ d, r.graph.classDeclaration? e.symbol = some d ∧
    (∀ p ∈ d.typeParameters, (r.graph.typeParameter? p).isSome) ∧
    e.arguments.names = parameterNames r.graph d.typeParameters ∧
    e = (r.declaredElement e.symbol d e.arguments).withDimensions e.dimensions

/-- Whether an element stands for a top type without a class that can be resolved. -/
def MadeBare (r : Resolver) (e : ClassElement) : Prop :=
  (∀ s d, r.graph.classDeclaration? s = some d → d.qualifiedName = r.settings.topType →
    ∃ p ∈ d.typeParameters, r.graph.typeParameter? p = none) ∧
  e = (bareElement r.settings.topType).withDimensions e.dimensions

/-- Whether an element is made for the type parameter with its symbol. -/
def MadeForParameter (r : Resolver) (e : ClassElement) : Prop :=
  ∃ d, r.graph.typeParameter? e.symbol = some d ∧
    e = (r.placeholderElement e.symbol d e.captured).withDimensions e.dimensions

end Resolver

open Resolver

mutual

/-- Whether an element is made for its symbol or for the top type, as are the elements in it. -/
def ClassElement.Canonical (r : Resolver) : ClassElement → Prop
  | .declared shape arguments =>
    (MadeForClass r (.declared shape arguments) ∨ MadeBare r (.declared shape arguments)) ∧
      arguments.Canonical r
  | .placeholder shape arguments v captured =>
    MadeForParameter r (.placeholder shape arguments v captured) ∧ captured.Canonical r

/-- Whether a substitution binds names of type parameters to canonical elements. -/
def TypeArguments.Canonical (r : Resolver) : TypeArguments → Prop
  | .nil => True
  | .cons name e rest => NamesParameter r.graph name ∧ e.Canonical r ∧ rest.Canonical r

end

variable {r : Resolver}

/-! ## Canonical elements are determined by their key texts -/

theorem Resolver.MadeForClass.name_eq {e : ClassElement} (h : MadeForClass r e) :
    ∃ d, r.graph.classDeclaration? e.symbol = some d ∧ e.name = d.qualifiedName := by
  obtain ⟨d, hd, -, -, he⟩ := h
  exact ⟨d, hd, by rw [he]; rfl⟩

theorem Resolver.MadeBare.name_eq {e : ClassElement} (h : MadeBare r e) :
    e.name = r.settings.topType := by
  rw [h.2]
  rfl

mutual

theorem ClassElement.Canonical.legible (hr : r.Readable) :
    ∀ e : ClassElement, e.Canonical r → e.Legible
  | .declared shape arguments => by
    intro h
    refine ⟨?_, TypeArguments.Canonical.legible hr arguments h.2⟩
    rcases h.1 with hclass | hbare
    · obtain ⟨d, hd, hname⟩ := hclass.name_eq
      rw [show shape.name = d.qualifiedName from hname]
      exact hr.plain_className hd
    · rw [show shape.name = r.settings.topType from hbare.name_eq]
      exact hr.plain_topType
  | .placeholder shape arguments v captured => by
    intro h
    obtain ⟨⟨d, hd, he⟩, hcaptured⟩ := h
    have harguments : arguments = ∅ := congrArg ClassElement.arguments he
    refine ⟨hr.open_parameterPath hd, ?_, TypeArguments.Canonical.legible hr captured hcaptured⟩
    rw [harguments]
    trivial

theorem TypeArguments.Canonical.legible (hr : r.Readable) :
    ∀ bindings : TypeArguments, bindings.Canonical r → bindings.Legible
  | .nil => fun _ => trivial
  | .cons name e rest => by
    intro h
    obtain ⟨⟨s, d, hd, rfl⟩, he, hrest⟩ := h
    exact ⟨hr.plain_parameterName hd, ClassElement.Canonical.legible hr e he,
      TypeArguments.Canonical.legible hr rest hrest⟩

end

/-- A class that can be resolved does not have the name of a top type that cannot. -/
private theorem name_ne_of_madeBare {e f : ClassElement} (he : MadeForClass r e)
    (hf : MadeBare r f) : e.name ≠ f.name := by
  intro hname
  obtain ⟨d, hd, hdeclared, -, hmade⟩ := he
  have htop : d.qualifiedName = r.settings.topType := by
    rw [← hf.name_eq, ← hname, hmade]
    rfl
  obtain ⟨p, hp, hundeclared⟩ := hf.1 e.symbol d hd htop
  have hsome := hdeclared p hp
  rw [hundeclared] at hsome
  cases hsome

/-- Declared elements that are made by one resolver are the same if their names, dimensions and
arguments are. -/
private theorem declared_eq (hr : r.Readable) {e f : ClassElement}
    (he : MadeForClass r e ∨ MadeBare r e) (hf : MadeForClass r f ∨ MadeBare r f)
    (hname : e.name = f.name) (hdims : e.dimensions = f.dimensions)
    (hargs : e.arguments = f.arguments) : e = f := by
  rcases he with he | he
  · rcases hf with hf | hf
    · obtain ⟨d, hd, hdname⟩ := he.name_eq
      obtain ⟨d', hd', hdname'⟩ := hf.name_eq
      have hsymbol : e.symbol = f.symbol :=
        hr.symbol_eq hd hd' (by rw [← hdname, ← hdname', hname])
      obtain ⟨d₁, hd₁, -, -, hmade⟩ := he
      obtain ⟨d₂, hd₂, -, -, hmade'⟩ := hf
      have hdecl : d₁ = d₂ := by
        rw [hsymbol, hd₂, Option.some.injEq] at hd₁
        exact hd₁.symm
      rw [hmade, hmade', hsymbol, hdims, hargs, hdecl]
    · exact absurd hname (name_ne_of_madeBare he hf)
  · rcases hf with hf | hf
    · exact absurd hname.symm (name_ne_of_madeBare hf he)
    · rw [he.2, hf.2, hdims]

mutual

theorem ClassElement.Canonical.eq_of_keyAlike (hr : r.Readable) :
    ∀ e f : ClassElement, e.Canonical r → f.Canonical r → e.KeyAlike f → e = f
  | .declared s as, .declared s' bs => by
    intro he hf h
    have hargs := TypeArguments.Canonical.eq_of_keyAlike hr as bs he.2 hf.2 h.2.2
    exact declared_eq hr he.1 hf.1 h.1 h.2.1 hargs
  | .placeholder s as v cs, .placeholder s' bs w ds => by
    intro he hf h
    -- a placeholder is made of its type parameter, which the path tells, and what it captured
    have hcaptured := TypeArguments.Canonical.eq_of_keyAlike hr cs ds he.2 hf.2 h.2.2.2
    obtain ⟨⟨d, hd, hmade⟩, -⟩ := he
    obtain ⟨⟨d', hd', hmade'⟩, -⟩ := hf
    have hsymbol : s.symbol = s'.symbol := parameterSymbol_eq hd hd' h.1
    have hdecl : d = d' := by
      have hd₂ : r.graph.typeParameter? s.symbol = some d' := hsymbol ▸ hd'
      rwa [show r.graph.typeParameter? s.symbol = some d from hd, Option.some.injEq] at hd₂
    rw [hmade, hmade', hdecl]
    simp only [ClassElement.symbol, ClassElement.shape, ClassElement.captured,
      ClassElement.dimensions, hsymbol, hcaptured, h.2.1]
  | .declared _ _, .placeholder _ _ _ _ => fun _ _ h => h.elim
  | .placeholder _ _ _ _, .declared _ _ => fun _ _ h => h.elim

theorem TypeArguments.Canonical.eq_of_keyAlike (hr : r.Readable) :
    ∀ as bs : TypeArguments, as.Canonical r → bs.Canonical r → as.KeyAlike bs → as = bs
  | .nil, .nil => fun _ _ _ => rfl
  | .cons name e as, .cons name' f bs => by
    intro has hbs h
    rw [h.1, ClassElement.Canonical.eq_of_keyAlike hr e f has.2.1 hbs.2.1 h.2.1,
      TypeArguments.Canonical.eq_of_keyAlike hr as bs has.2.2 hbs.2.2 h.2.2]
  | .nil, .cons _ _ _ => fun _ _ h => h.elim
  | .cons _ _ _, .nil => fun _ _ h => h.elim

end

/-- The requests to resolve any symbol under a canonical substitution. -/
def Resolver.canonicalRequests (r : Resolver) (hr : r.Readable) : Requests where
  Includes _ bindings := bindings.Canonical r
  eq_of_keyText_eq _ as bs has hbs h :=
    TypeArguments.Canonical.eq_of_keyAlike hr as bs has hbs
      (TypeArguments.keyAlike_of_keyText_eq (has.legible hr) (hbs.legible hr) h)

/-! ## Changing substitutions -/

theorem TypeArguments.canonical_empty : (∅ : TypeArguments).Canonical r := trivial

theorem TypeArguments.Canonical.insert {bindings : TypeArguments} (h : bindings.Canonical r)
    {name : String} (hname : NamesParameter r.graph name) {e : ClassElement}
    (he : e.Canonical r) : (bindings.insert name e).Canonical r := by
  induction bindings with
  | nil => exact ⟨hname, he, trivial⟩
  | cons name' e' rest ih =>
    unfold TypeArguments.insert
    split
    · exact ⟨h.1, he, h.2.2⟩
    · exact ⟨h.1, h.2.1, ih h.2.2⟩

theorem TypeArguments.canonical_iff {bindings : TypeArguments} :
    bindings.Canonical r ↔
      ∀ entry ∈ bindings.toList, NamesParameter r.graph entry.1 ∧ entry.2.Canonical r := by
  induction bindings with
  | nil => simp [TypeArguments.Canonical, TypeArguments.toList]
  | cons name e rest ih =>
    simp only [TypeArguments.Canonical, TypeArguments.toList, List.forall_mem_cons, ih, and_assoc]

theorem TypeArguments.Canonical.of_get? {bindings : TypeArguments} (h : bindings.Canonical r)
    {name : String} {e : ClassElement} (he : bindings.get? name = some e) : e.Canonical r :=
  (TypeArguments.canonical_iff.1 h _ (TypeArguments.mem_toList_of_get? he)).2

theorem ClassElement.Canonical.arguments {e : ClassElement} (h : e.Canonical r) :
    e.arguments.Canonical r := by
  cases e with
  | declared shape arguments => exact h.2
  | placeholder shape arguments v captured =>
    obtain ⟨⟨d, -, he⟩, -⟩ := h
    have harguments : arguments = ∅ := congrArg ClassElement.arguments he
    rw [ClassElement.arguments, harguments]
    exact TypeArguments.canonical_empty

theorem ClassElement.Canonical.captured {e : ClassElement} (h : e.Canonical r) :
    e.captured.Canonical r := by
  cases e with
  | declared shape arguments => exact TypeArguments.canonical_empty
  | placeholder shape arguments v captured => exact h.2

theorem TypeArguments.names_insert (bindings : TypeArguments) (name : String)
    (e : ClassElement) :
    (bindings.insert name e).names
      = if name ∈ bindings.names then bindings.names else bindings.names ++ [name] := by
  induction bindings with
  | nil => rfl
  | cons name' e' rest ih =>
    by_cases hname : name' = name
    · subst hname
      simp [TypeArguments.insert, TypeArguments.names]
    · have hne : ¬ name = name' := fun h => hname h.symm
      by_cases hrest : name ∈ rest.names <;>
        simp [TypeArguments.insert, TypeArguments.names, hname, hne, ih, hrest]

/-! ## Elements that are made anew -/

theorem ClassElement.Canonical.withDimensions {e : ClassElement} (h : e.Canonical r)
    (dimensions : Nat) : (e.withDimensions dimensions).Canonical r := by
  -- what an element is made of shows in it whatever its dimensions
  have hmade : ∀ f : ClassElement, e = f.withDimensions e.dimensions →
      e.withDimensions dimensions = f.withDimensions (e.withDimensions dimensions).dimensions := by
    intro f hf
    calc e.withDimensions dimensions
        = (f.withDimensions e.dimensions).withDimensions dimensions := by rw [← hf]
      _ = f.withDimensions (e.withDimensions dimensions).dimensions := by simp
  cases e with
  | declared shape arguments =>
    refine ⟨?_, h.2⟩
    rcases h.1 with ⟨d, hd, hdeclared, hnames, he⟩ | ⟨hundeclared, he⟩
    · exact Or.inl ⟨d, hd, hdeclared, hnames, hmade _ he⟩
    · exact Or.inr ⟨hundeclared, hmade _ he⟩
  | placeholder shape arguments v captured =>
    obtain ⟨⟨d, hd, he⟩, hcaptured⟩ := h
    exact ⟨⟨d, hd, hmade _ he⟩, hcaptured⟩

theorem canonical_placeholderElement {s : Symbol} {d : TypeParameterDeclaration}
    (hs : r.graph.typeParameter? s = some d) {generics : TypeArguments}
    (hgenerics : generics.Canonical r) : (r.placeholderElement s d generics).Canonical r :=
  ⟨⟨d, hs, rfl⟩, hgenerics⟩

theorem canonical_bound {s : Symbol} {d : TypeParameterDeclaration}
    (hs : r.graph.typeParameter? s = some d) {generics : TypeArguments}
    (hgenerics : generics.Canonical r) : (Direct.bound r s d generics).Canonical r := by
  unfold Direct.bound Resolver.binding?
  split
  · next e he =>
    split at he
    · exact hgenerics.of_get? he
    · cases he
  · exact canonical_placeholderElement hs hgenerics

/-! ## Bindings of type parameters -/

/-- Whether the second substitution comes from the first by binding type parameters, one after the
other, to canonical elements. -/
inductive Resolver.Binds (r : Resolver) : List Symbol → TypeArguments → TypeArguments → Prop
  | nil (bindings : TypeArguments) : Binds r [] bindings bindings
  | cons {p : Symbol} {rest : List Symbol} {d : TypeParameterDeclaration} {e : ClassElement}
    {bindings bindings' : TypeArguments} (hp : r.graph.typeParameter? p = some d)
    (he : e.Canonical r) (hrest : Binds r rest (bindings.insert d.name e) bindings') :
    Binds r (p :: rest) bindings bindings'

namespace Resolver

variable {parameters : List Symbol} {generics bindings bindings' : TypeArguments}

theorem Binds.isSome_typeParameter? (h : Binds r parameters bindings bindings') :
    ∀ p ∈ parameters, (r.graph.typeParameter? p).isSome := by
  induction h with
  | nil => simp
  | cons hp _ _ ih =>
    intro q hq
    rcases List.mem_cons.1 hq with rfl | hq
    · rw [hp]
      rfl
    · exact ih q hq

theorem Binds.canonical (h : Binds r parameters bindings bindings')
    (hbindings : bindings.Canonical r) : bindings'.Canonical r := by
  induction h with
  | nil => exact hbindings
  | cons hp he _ ih => exact ih (hbindings.insert ⟨_, _, hp, rfl⟩ he)

theorem Binds.names_eq (h : Binds r parameters bindings bindings') :
    bindings'.names = parameters.foldl (addParameterName r.graph) bindings.names := by
  induction h with
  | nil => rfl
  | cons hp _ _ ih =>
    rw [ih, TypeArguments.names_insert, List.foldl_cons, addParameterName, hp]

theorem canonical_declaredElement {s : Symbol} {d : ClassDeclaration}
    (hs : r.graph.classDeclaration? s = some d) (h : Binds r d.typeParameters ∅ bindings) :
    (r.declaredElement s d bindings).Canonical r :=
  ⟨Or.inl ⟨d, hs, h.isSome_typeParameter?, h.names_eq, rfl⟩, h.canonical trivial⟩

/-! ## Direct resolution makes canonical elements -/

theorem binds_bindToPlaceholders (hgenerics : generics.Canonical r)
    (h : Direct.bindToPlaceholders r generics bindings parameters = .ok bindings') :
    Binds r parameters bindings bindings' := by
  induction parameters generalizing bindings with
  | nil =>
    cases h
    exact Binds.nil _
  | cons p rest ih =>
    obtain ⟨d, hd, hrest⟩ := Direct.bind_eq_ok.1 h
    have hp := Direct.known_eq_ok.1 hd
    exact Binds.cons hp (canonical_placeholderElement hp hgenerics) (ih hrest)

theorem binds_bindToBounds (hgenerics : generics.Canonical r)
    (h : Direct.bindToBounds r generics bindings parameters = .ok bindings') :
    Binds r parameters bindings bindings' := by
  induction parameters generalizing bindings with
  | nil =>
    cases h
    exact Binds.nil _
  | cons p rest ih =>
    obtain ⟨d, hd, hrest⟩ := Direct.bind_eq_ok.1 h
    have hp := Direct.known_eq_ok.1 hd
    exact Binds.cons hp (canonical_bound hp hgenerics) (ih hrest)

theorem canonical_elementOf {s : Symbol} {e : ClassElement} (h : Direct.elementOf r s = .ok e) :
    e.Canonical r := by
  obtain ⟨d, hd, h⟩ := Direct.bind_eq_ok.1 h
  obtain ⟨bindings, hbindings, h⟩ := Direct.bind_eq_ok.1 h
  cases h
  exact canonical_declaredElement (Direct.known_eq_ok.1 hd)
    (binds_bindToPlaceholders TypeArguments.canonical_empty hbindings)

/-- A class whose type parameters are declared can be resolved. -/
theorem exists_bindToPlaceholders_eq_ok (generics bindings : TypeArguments)
    (h : ∀ p ∈ parameters, r.graph.typeParameter? p ≠ none) :
    ∃ bindings', Direct.bindToPlaceholders r generics bindings parameters = .ok bindings' := by
  induction parameters generalizing bindings with
  | nil => exact ⟨bindings, rfl⟩
  | cons p rest ih =>
    obtain ⟨d, hd⟩ := Option.ne_none_iff_exists'.1 (h p List.mem_cons_self)
    obtain ⟨bindings', hrest⟩ :=
      ih (bindings.insert d.name (r.placeholderElement p d generics))
        fun q hq => h q (List.mem_cons_of_mem p hq)
    exact ⟨bindings', Direct.bind_eq_ok.2 ⟨d, Direct.known_eq_ok.2 hd, hrest⟩⟩

theorem canonical_topType (hr : r.Readable) : (Direct.topType r).Canonical r := by
  unfold Direct.topType
  cases hfind : r.graph.findClass? r.settings.topType with
  | none =>
    -- no class has the name of the top type
    refine ⟨Or.inr ⟨fun s d hs hname => ?_, rfl⟩, trivial⟩
    rw [← hname] at hfind
    exact absurd hfind (SymbolGraph.findClass?_ne_none hs)
  | some t =>
    dsimp only
    cases he : Direct.elementOf r t with
    | ok e => exact canonical_elementOf he
    | error failure =>
      refine ⟨Or.inr ⟨fun s d hs hname => ?_, rfl⟩, trivial⟩
      obtain ⟨d', ht, hname'⟩ := SymbolGraph.qualifiedName_of_findClass? hfind
      obtain rfl := hr.symbol_eq hs ht (hname.trans hname'.symm)
      -- were all its type parameters declared, the class could be resolved
      by_contra hdeclared
      push Not at hdeclared
      obtain ⟨bindings, hb⟩ := exists_bindToPlaceholders_eq_ok ∅ ∅ hdeclared
      have hok : Direct.elementOf r s = .ok (r.declaredElement s d bindings) :=
        Direct.bind_eq_ok.2 ⟨d, Direct.known_eq_ok.2 hs, Direct.bind_eq_ok.2 ⟨bindings, hb, rfl⟩⟩
      rw [hok] at he
      cases he

mutual

theorem canonical_resolve (hr : r.Readable) (hgenerics : generics.Canonical r) :
    ∀ (use : TypeUse) (e : ClassElement), Direct.resolve r generics use = .ok e → e.Canonical r
  | .declared s arguments => by
    intro e h
    rw [Direct.resolve] at h
    obtain ⟨d, hd, h⟩ := Direct.bind_eq_ok.1 h
    obtain ⟨bindings, hbindings, h⟩ := Direct.bind_eq_ok.1 h
    cases h
    exact canonical_declaredElement (Direct.known_eq_ok.1 hd)
      (binds_bindArguments hr hgenerics arguments _ _ _ hbindings)
  | .typeVariable s => by
    intro e h
    rw [Direct.resolve] at h
    obtain ⟨d, hd, h⟩ := Direct.bind_eq_ok.1 h
    cases h
    exact canonical_bound (Direct.known_eq_ok.1 hd) hgenerics
  | .array element dimensions => by
    intro e h
    rw [Direct.resolve] at h
    obtain ⟨e', he', h⟩ := Direct.bind_eq_ok.1 h
    cases h
    exact (canonical_resolve hr hgenerics element e' he').withDimensions _
  | .unresolved => by
    intro e h
    rw [Direct.resolve] at h
    cases h
    exact canonical_topType hr

theorem binds_bindArguments (hr : r.Readable) (hgenerics : generics.Canonical r) :
    ∀ (arguments : List TypeUse) (parameters : List Symbol) (bindings bindings' : TypeArguments),
      Direct.bindArguments r generics bindings parameters arguments = .ok bindings' →
      Binds r parameters bindings bindings'
  | [] => by
    intro parameters bindings bindings' h
    rw [Direct.bindArguments] at h
    exact binds_bindToPlaceholders hgenerics h
  | argument :: rest => by
    intro parameters bindings bindings' h
    cases parameters with
    | nil =>
      rw [Direct.bindArguments] at h
      cases h
      exact Binds.nil _
    | cons p parameters =>
      rw [Direct.bindArguments] at h
      obtain ⟨d, hd, h⟩ := Direct.bind_eq_ok.1 h
      obtain ⟨e, he, h⟩ := Direct.bind_eq_ok.1 h
      exact Binds.cons (Direct.known_eq_ok.1 hd) (canonical_resolve hr hgenerics argument e he)
        (binds_bindArguments hr hgenerics rest parameters _ _ h)

end

theorem canonical_declaringClass? (hgenerics : generics.Canonical r) {s : Symbol}
    {e : ClassElement} (h : Direct.declaringClass? r s generics = .ok (some e)) :
    e.Canonical r := by
  unfold Direct.declaringClass? at h
  split at h
  · cases h
  · cases h
  · obtain ⟨d, hd, h⟩ := Direct.bind_eq_ok.1 h
    obtain ⟨bindings, hbindings, h⟩ := Direct.bind_eq_ok.1 h
    cases h
    exact canonical_declaredElement (Direct.known_eq_ok.1 hd)
      (binds_bindToBounds hgenerics hbindings)

end Resolver

end BeanProcessing

import BeanProcessing.Proofs.Resolver.NearestClass

/-!
# Flags of nested classes

Whether a class is inner can be seen from the symbol that it stands in. Whether it is static depends
on its modifiers, on its kind and, for a nested plain class without modifiers, on the language that
it is written in. That is the language of the first symbol on the way outward that a unit lists, by
the last unit that lists it; the way may run in a circle.

So the flags of a class are told by its symbol, by the graph and by the units. `Flagged` says how,
and it holds of every class that a resolver provides, whatever it was asked for. The one exception
is an element of the top type that stands in for a class that cannot be made, and knows its name
only.
-/

namespace BeanProcessing

/-! ## Units -/

namespace CompilationUnit

variable {units : List CompilationUnit} {unit : CompilationUnit} {s : Symbol} {language : Language}

/-- Whether a unit lists a symbol. -/
def Listed (units : List CompilationUnit) (s : Symbol) : Prop :=
  ∃ unit ∈ units, s ∈ unit.declarations

/-- Whether the last unit that lists a symbol is in a language. -/
def WrittenIn (units : List CompilationUnit) (s : Symbol) (language : Language) : Prop :=
  ∃ before unit after, units = before ++ unit :: after ∧ s ∈ unit.declarations ∧
    unit.language = language ∧ ¬ Listed after s

theorem listed_cons : Listed (unit :: units) s ↔ s ∈ unit.declarations ∨ Listed units s :=
  List.exists_mem_cons_iff _ unit units

theorem writtenIn_cons : WrittenIn (unit :: units) s language ↔
    WrittenIn units s language ∨
      ¬ Listed units s ∧ s ∈ unit.declarations ∧ unit.language = language := by
  constructor
  · rintro ⟨before, last, after, heq, hs, hlanguage, hafter⟩
    cases before with
    | nil =>
      obtain ⟨rfl, rfl⟩ := List.cons.inj heq
      exact Or.inr ⟨hafter, hs, hlanguage⟩
    | cons first before =>
      obtain ⟨rfl, rfl⟩ := List.cons.inj heq
      exact Or.inl ⟨before, last, after, rfl, hs, hlanguage, hafter⟩
  · rintro (⟨before, last, after, rfl, hs, hlanguage, hafter⟩ | ⟨hnot, hs, hlanguage⟩)
    · exact ⟨unit :: before, last, after, rfl, hs, hlanguage, hafter⟩
    · exact ⟨[], unit, units, rfl, hs, hlanguage, hnot⟩

theorem WrittenIn.listed (h : WrittenIn units s language) : Listed units s := by
  obtain ⟨before, unit, after, rfl, hs, -⟩ := h
  exact ⟨unit, List.mem_append_right before List.mem_cons_self, hs⟩

theorem exists_writtenIn (h : Listed units s) : ∃ language, WrittenIn units s language := by
  induction units with
  | nil =>
    obtain ⟨unit, hunit, -⟩ := h
    cases hunit
  | cons unit rest ih =>
    by_cases hrest : Listed rest s
    · obtain ⟨language, hlanguage⟩ := ih hrest
      exact ⟨language, writtenIn_cons.2 (Or.inl hlanguage)⟩
    · have hs : s ∈ unit.declarations := (listed_cons.1 h).resolve_right hrest
      exact ⟨unit.language, writtenIn_cons.2 (Or.inr ⟨hrest, hs, rfl⟩)⟩

end CompilationUnit

namespace Resolver

open CompilationUnit

variable {units : List CompilationUnit} {s t : Symbol} {language : Language}

theorem get?_foldl_insert_symbols (symbols : List Symbol) (table : Table Symbol Language) :
    ((symbols.map fun s => (s, language)).foldl (fun t e => t.insert e.1 e.2) table).get? s
      = if s ∈ symbols then some language else table.get? s := by
  induction symbols generalizing table with
  | nil => rfl
  | cons first rest ih =>
    rw [List.map_cons, List.foldl_cons, ih, Table.get?_insert]
    by_cases hrest : s ∈ rest
    · rw [if_pos hrest, if_pos (List.mem_cons_of_mem _ hrest)]
    · simp only [List.mem_cons, hrest, or_false, if_false, eq_comm]

theorem get?_foldl_insert_units (units : List CompilationUnit) (table : Table Symbol Language) :
    ((units.flatMap fun unit => unit.declarations.map fun s => (s, unit.language)).foldl
      (fun t e => t.insert e.1 e.2) table).get? s = some language ↔
      WrittenIn units s language ∨ ¬ Listed units s ∧ table.get? s = some language := by
  induction units generalizing table with
  | nil =>
    have hnot : ¬ Listed [] s := fun ⟨_, hunit, _⟩ => absurd hunit List.not_mem_nil
    have hnever : ¬ WrittenIn [] s language := fun h => hnot h.listed
    simp [hnot, hnever]
  | cons unit rest ih =>
    rw [List.flatMap_cons, List.foldl_append, ih, get?_foldl_insert_symbols, writtenIn_cons,
      listed_cons]
    by_cases hs : s ∈ unit.declarations
    · simp [hs]
    · simp [hs]

/-- The last unit that lists a symbol decides on its language. -/
theorem get?_languagesOf : (languagesOf units).get? s = some language ↔
    WrittenIn units s language := by
  have hfold : (languagesOf units).get? s = some language ↔
      WrittenIn units s language ∨
        ¬ Listed units s ∧ (Table.empty : Table Symbol Language).get? s = some language :=
    get?_foldl_insert_units units Table.empty
  rw [hfold, Table.get?_empty]
  simp

theorem get?_languagesOf_eq_none : (languagesOf units).get? s = none ↔ ¬ Listed units s := by
  constructor
  · intro hnone hlisted
    obtain ⟨language, hlanguage⟩ := exists_writtenIn hlisted
    rw [get?_languagesOf.2 hlanguage] at hnone
    cases hnone
  · intro hnot
    refine Option.eq_none_iff_forall_ne_some.2 fun language hlanguage => ?_
    exact hnot (get?_languagesOf.1 hlanguage).listed

theorem writtenIn_unique {language' : Language} (h : WrittenIn units s language)
    (h' : WrittenIn units s language') : language = language' :=
  Option.some.inj ((get?_languagesOf.2 h).symm.trans (get?_languagesOf.2 h'))

/-! ## The language of a class -/

variable {graph : SymbolGraph} {settings : Settings}

/-- Whether no unit lists any symbol that is met in less than a number of steps outward. -/
def UnlistedBefore (graph : SymbolGraph) (units : List CompilationUnit) (s : Symbol) (n : Nat) :
    Prop :=
  ∀ k < n, ∀ t, graph.ancestor? s k = some t → ¬ Listed units t

/-- Whether a symbol is the first on the way outward that a unit lists. The way starts with the
symbol itself. -/
def FirstListed (graph : SymbolGraph) (units : List CompilationUnit) (s t : Symbol) : Prop :=
  ∃ n, graph.ancestor? s n = some t ∧ Listed units t ∧ UnlistedBefore graph units s n

/-- Whether the way outward ends or comes back before it meets a symbol that a unit lists. -/
def NoneListed (graph : SymbolGraph) (units : List CompilationUnit) (s : Symbol) : Prop :=
  ∃ n, graph.OverAt s n ∧ UnlistedBefore graph units s n

theorem FirstListed.unique {t' : Symbol} (h : FirstListed graph units s t)
    (h' : FirstListed graph units s t') : t = t' := by
  obtain ⟨n, ht, hlisted, hbefore⟩ := h
  obtain ⟨n', ht', hlisted', hbefore'⟩ := h'
  rcases Nat.lt_trichotomy n n' with hlt | rfl | hlt
  · exact absurd hlisted (hbefore' n hlt t ht)
  · exact Option.some.inj (ht.symm.trans ht')
  · exact absurd hlisted' (hbefore n' hlt t' ht')

theorem NoneListed.not_firstListed (h : NoneListed graph units s) :
    ¬ FirstListed graph units s t := by
  obtain ⟨n, hover, hnone⟩ := h
  rintro ⟨j, ht, hlisted, -⟩
  obtain ⟨k, hk, htk⟩ := hover.exists_lt ht
  exact hnone k hk t htk hlisted

/-- The symbols that are asked for their language are those of the way, as far as it is walked. -/
theorem getElem?_cons_outward {n : Nat} : (s :: graph.outward s)[n]? = some t ↔
    n < graph.size + 2 ∧ graph.ancestor? s n = some t := by
  cases n with
  | zero =>
    rw [List.getElem?_cons_zero, SymbolGraph.ancestor?]
    exact (and_iff_right (Nat.succ_pos _)).symm
  | succ n =>
    rw [List.getElem?_cons_succ, SymbolGraph.outward, SymbolGraph.getElem?_enclosingChain,
      Option.ite_none_right_eq_some]
    simp only [Nat.succ_lt_succ_iff]

/-- The walk is long enough: if it finds no symbol with a language, there is none on the way. -/
theorem sourceLanguage_cases (graph : SymbolGraph) (settings : Settings)
    (units : List CompilationUnit) (s : Symbol) :
    (∃ t, FirstListed graph units s t ∧
      WrittenIn units t ((ofUnits graph settings units).sourceLanguage s)) ∨
    NoneListed graph units s ∧ (ofUnits graph settings units).sourceLanguage s = .unknown := by
  have hlanguage : (ofUnits graph settings units).sourceLanguage s
      = ((s :: graph.outward s).findSome? (languagesOf units).get?).getD .unknown := rfl
  rw [hlanguage]
  cases hfound : (s :: graph.outward s).findSome? (languagesOf units).get? with
  | some language =>
    obtain ⟨before, t, after, hway, ht, hbefore⟩ := List.findSome?_eq_some_iff.1 hfound
    have hwritten : WrittenIn units t language := get?_languagesOf.1 ht
    have hplace : (s :: graph.outward s)[before.length]? = some t := by
      rw [hway, List.getElem?_append_right (Nat.le_refl _), Nat.sub_self, List.getElem?_cons_zero]
    obtain ⟨hwalked, hat⟩ := getElem?_cons_outward.1 hplace
    refine Or.inl ⟨t, ⟨before.length, hat, hwritten.listed, fun k hk u hu => ?_⟩, hwritten⟩
    have hwalk : (s :: graph.outward s)[k]? = some u :=
      getElem?_cons_outward.2 ⟨by omega, hu⟩
    rw [hway, List.getElem?_append_left hk] at hwalk
    exact get?_languagesOf_eq_none.1 (hbefore u (List.mem_of_getElem? hwalk))
  | none =>
    rw [List.findSome?_eq_none_iff] at hfound
    obtain ⟨n, hn, hover⟩ := graph.exists_overAt s
    refine Or.inr ⟨⟨n, hover, fun k hk t ht => ?_⟩, rfl⟩
    have hwalk : (s :: graph.outward s)[k]? = some t :=
      getElem?_cons_outward.2 ⟨by omega, ht⟩
    exact get?_languagesOf_eq_none.1 (hfound t (List.mem_of_getElem? hwalk))

/-- Whether the language of a nested plain class makes it static: that of the first listed symbol
does, or there is none. -/
def StaticByLanguage (graph : SymbolGraph) (units : List CompilationUnit) (s : Symbol) : Prop :=
  (∃ t, FirstListed graph units s t ∧ (WrittenIn units t .kotlin ∨ WrittenIn units t .unknown)) ∨
    NoneListed graph units s

theorem nestedClassesAreStatic_iff :
    ((ofUnits graph settings units).sourceLanguage s).nestedClassesAreStatic = true ↔
      StaticByLanguage graph units s := by
  obtain ⟨t, hfirst, hwritten⟩ | ⟨hnone, hlanguage⟩ := sourceLanguage_cases graph settings units s
  · constructor
    · intro hstatic
      refine Or.inl ⟨t, hfirst, ?_⟩
      cases hlanguage : (ofUnits graph settings units).sourceLanguage s with
      | kotlin => exact Or.inl (hlanguage ▸ hwritten)
      | unknown => exact Or.inr (hlanguage ▸ hwritten)
      | java =>
        rw [hlanguage] at hstatic
        cases hstatic
      | groovy =>
        rw [hlanguage] at hstatic
        cases hstatic
    · rintro (⟨t', hfirst', hwritten'⟩ | hnone)
      · obtain rfl := hfirst.unique hfirst'
        rcases hwritten' with hkotlin | hunknown
        · rw [writtenIn_unique hwritten hkotlin]
          rfl
        · rw [writtenIn_unique hwritten hunknown]
          rfl
      · exact absurd hfirst hnone.not_firstListed
  · rw [hlanguage]
    exact iff_of_true rfl (Or.inr hnone)

/-! ## Flags -/

/-- Whether a symbol stands directly in a class. -/
def StandsInClass (graph : SymbolGraph) (s : Symbol) : Prop :=
  ∃ outer, graph.enclosing? s = some outer ∧ outer.isClass = true

/-- Whether a shape has the symbol of a declared class and the flags that this class should have. -/
structure Flagged (graph : SymbolGraph) (units : List CompilationUnit) (d : ClassDeclaration)
    (shape : ClassShape) : Prop where
  declared : graph.classDeclaration? shape.symbol = some d
  isInner_iff : shape.isInner = true ↔ StandsInClass graph shape.symbol
  isStatic_iff : shape.isStatic = true ↔
    Modifier.inner ∉ d.modifiers ∧
      (Modifier.static ∈ d.modifiers ∨
        StandsInClass graph shape.symbol ∧ d.kind ≠ .plain ∨
        StandsInClass graph shape.symbol ∧ d.kind = .plain ∧
          StaticByLanguage graph units shape.symbol)

theorem isInner_eq_true_iff {r : Resolver} : r.isInner s = true ↔ StandsInClass r.graph s := by
  rw [isInner, Option.any_eq_true]
  rfl

theorem isStatic_eq_true_iff (d : ClassDeclaration) :
    (ofUnits graph settings units).isStatic s d = true ↔
      Modifier.inner ∉ d.modifiers ∧
        (Modifier.static ∈ d.modifiers ∨
          StandsInClass graph s ∧ d.kind ≠ .plain ∨
          StandsInClass graph s ∧ d.kind = .plain ∧ StaticByLanguage graph units s) := by
  have hinner : (ofUnits graph settings units).isInner s = true ↔ StandsInClass graph s :=
    isInner_eq_true_iff
  rw [isStatic, Bool.and_eq_true, Bool.or_eq_true, Bool.and_eq_true, Bool.or_eq_true, hinner,
    nestedClassesAreStatic_iff]
  simp only [Bool.not_eq_true', List.contains_eq_mem, decide_eq_false_iff_not, decide_eq_true_eq,
    bne_iff_ne, ne_eq]
  refine and_congr_right fun _ => or_congr_right ?_
  by_cases hkind : d.kind = .plain
  · simp [hkind]
  · simp [hkind]

/-- A class that is made has its flags, whatever its arguments are. -/
theorem flagged_declaredElement {d : ClassDeclaration} (hs : graph.classDeclaration? s = some d)
    (bindings : TypeArguments) :
    Flagged graph units d ((ofUnits graph settings units).declaredElement s d bindings).shape where
  declared := hs
  isInner_iff := isInner_eq_true_iff
  isStatic_iff := isStatic_eq_true_iff d

/-- The flags of a class are told by its symbol. -/
theorem Flagged.flags_eq {d d' : ClassDeclaration} {shape shape' : ClassShape}
    (h : Flagged graph units d shape) (h' : Flagged graph units d' shape')
    (hsymbol : shape.symbol = shape'.symbol) :
    shape.isInner = shape'.isInner ∧ shape.isStatic = shape'.isStatic := by
  have hd : d = d' := by
    have hdeclared := h.declared
    rw [hsymbol, h'.declared] at hdeclared
    exact (Option.some.inj hdeclared).symm
  constructor
  · rw [Bool.eq_iff_iff, h.isInner_iff, h'.isInner_iff, hsymbol]
  · rw [Bool.eq_iff_iff, h.isStatic_iff, h'.isStatic_iff, hsymbol, hd]

end Resolver

/-! ## The classes in an element -/

mutual

/-- Whether the shape of every declared class in an element has a property. -/
def ClassElement.EachClass (P : ClassShape → Prop) : ClassElement → Prop
  | .declared shape arguments => P shape ∧ arguments.EachClass P
  | .placeholder _ arguments _ captured => arguments.EachClass P ∧ captured.EachClass P

/-- Whether the shape of every declared class in a substitution has a property. -/
def TypeArguments.EachClass (P : ClassShape → Prop) : TypeArguments → Prop
  | .nil => True
  | .cons _ element rest => element.EachClass P ∧ rest.EachClass P

end

theorem TypeArguments.eachClass_iff {P : ClassShape → Prop} {bindings : TypeArguments} :
    bindings.EachClass P ↔ bindings.Each (fun _ => True) (ClassElement.EachClass P) := by
  induction bindings with
  | nil => exact iff_of_true trivial TypeArguments.each_empty
  | cons name e rest ih => rw [TypeArguments.EachClass, TypeArguments.each_cons, ih, true_and]

namespace Resolver

open CompilationUnit

variable {r : Resolver} {graph : SymbolGraph} {settings : Settings} {units : List CompilationUnit}
  {m m' : Memory} {s : Symbol} {e : ClassElement} {generics : TypeArguments}

/-- Whether a shape is that of an element that stands in for the top type, whose class cannot be
made. -/
structure StandsInForTop (r : Resolver) (shape : ClassShape) : Prop where
  missing : ∀ s d, r.graph.findClass? r.settings.topType = some s →
    r.graph.classDeclaration? s = some d → ¬ DeclaresAll r.graph d.typeParameters
  bare : shape = { (bareElement r.settings.topType).shape with
    dimensions := shape.dimensions, annotations := shape.annotations }

/-- A property of shapes that does not depend on dimensions and annotations is inherited, if classes
that are made have it and the element that stands in for the top type. -/
theorem inherited_eachClass {P : ClassShape → Prop}
    (hmade : ∀ s d bindings, r.graph.classDeclaration? s = some d →
      P (r.declaredElement s d bindings).shape)
    (hbare : ∀ shape, r.StandsInForTop shape → P shape)
    (hdimensions : ∀ shape dimensions, P shape → P { shape with dimensions })
    (hannotations : ∀ shape annotations, P shape → P { shape with annotations }) :
    Inherited r (fun _ => True) (ClassElement.EachClass P) where
  name _ := trivial
  declared hs h := ⟨hmade _ _ ∅ hs, TypeArguments.eachClass_iff.2 h.each⟩
  placeholder _ h := ⟨trivial, TypeArguments.eachClass_iff.2 h⟩
  bare h := ⟨hbare _ ⟨h, rfl⟩, trivial⟩
  withDimensions {e} h dimensions := by
    cases e with
    | declared shape arguments => exact ⟨hdimensions shape dimensions h.1, h.2⟩
    | placeholder shape arguments v captured => exact h
  withAnnotations {e} h annotations := by
    cases e with
    | declared shape arguments => exact ⟨hannotations shape annotations h.1, h.2⟩
    | placeholder shape arguments v captured => exact h
  withArguments {e} h arguments _ harguments := by
    cases e with
    | declared shape _ => exact ⟨h.1, TypeArguments.eachClass_iff.2 harguments⟩
    | placeholder shape _ v captured => exact ⟨TypeArguments.eachClass_iff.2 harguments, h.2⟩
  arguments {e} h := by
    cases e with
    | declared shape arguments => exact TypeArguments.eachClass_iff.1 h.2
    | placeholder shape arguments v captured => exact TypeArguments.eachClass_iff.1 h.1
  captured {e} h := by
    cases e with
    | declared shape arguments => exact TypeArguments.each_empty
    | placeholder shape arguments v captured => exact TypeArguments.eachClass_iff.1 h.2

/-- Whether a shape is flagged or stands in for the top type. -/
def FlaggedOrStandIn (graph : SymbolGraph) (settings : Settings) (units : List CompilationUnit)
    (shape : ClassShape) : Prop :=
  (∃ d, Flagged graph units d shape) ∨ (ofUnits graph settings units).StandsInForTop shape

theorem inherited_flagged (graph : SymbolGraph) (settings : Settings)
    (units : List CompilationUnit) :
    Inherited (ofUnits graph settings units) (fun _ => True)
      (ClassElement.EachClass (FlaggedOrStandIn graph settings units)) := by
  apply inherited_eachClass
  · intro s d bindings hs
    exact Or.inl ⟨d, flagged_declaredElement hs bindings⟩
  · intro shape h
    exact Or.inr h
  · rintro shape dimensions (⟨d, h⟩ | h)
    · exact Or.inl ⟨d, h.declared, h.isInner_iff, h.isStatic_iff⟩
    · exact Or.inr ⟨h.missing, congrArg (fun t : ClassShape => { t with dimensions }) h.bare⟩
  · rintro shape annotations (⟨d, h⟩ | h)
    · exact Or.inl ⟨d, h.declared, h.isInner_iff, h.isStatic_iff⟩
    · exact Or.inr ⟨h.missing, congrArg (fun t : ClassShape => { t with annotations }) h.bare⟩

/-- Wherever a class comes from, it has its flags or it stands in for the top type. -/
theorem Provides.flaggedOrStandIn (h : (ofUnits graph settings units).Provides e)
    (he : e.isPlaceholder = false) : FlaggedOrStandIn graph settings units e.shape := by
  cases h with
  | kept hm hkept =>
    cases hm.keyed _ e hkept with
    | declared hs bindings => exact Or.inl ⟨_, flagged_declaredElement hs bindings⟩
    | placeholder hs captured => cases he
  | obtained hconversation hobtained =>
    have heach := hconversation.of_obtained (inherited_flagged graph settings units) hobtained
    cases e with
    | declared shape arguments => exact heach.1
    | placeholder shape arguments v captured => cases he

/-! ## Classes that are asked for -/

/-- Whether an element is found for a class in a memory: it is asked for by its symbol or by a use,
perhaps of arrays of it, or as the class around a symbol. -/
inductive FoundFor (r : Resolver) (m : Memory) (s : Symbol) (e : ClassElement) : Prop
  | symbol {m' : Memory} (h : (r.elementOf s).run.run m = (.ok e, m'))
  | use {generics : TypeArguments} {use : TypeUse} {arguments : List TypeUse} {m' : Memory}
    (huse : use.beneathArrays = .declared s arguments)
    (h : (r.resolve generics use).run.run m = (.ok e, m'))
  | around {t : Symbol} {generics : TypeArguments} {m' : Memory}
    (ht : r.graph.encounter t = .nearestClass s)
    (h : (r.declaringClass? t generics).run.run m = (.ok (some e), m'))

/-- What a use of arrays stands for is what stands beneath them, in other dimensions. -/
theorem exists_run_beneathArrays : ∀ (use : TypeUse) {e : ClassElement},
    (r.resolve generics use).run.run m = (.ok e, m') →
    ∃ f, (r.resolve generics use.beneathArrays).run.run m = (.ok f, m') ∧
      ∃ dimensions, e = f.withDimensions dimensions
  | .array element _, e => by
    intro h
    rw [resolve] at h
    obtain ⟨inner, between, helement, hmade⟩ := run_bind_eq_ok h
    cases hmade
    obtain ⟨f, hf, dimensions, rfl⟩ := exists_run_beneathArrays element helement
    exact ⟨f, hf, _, ClassElement.withDimensions_withDimensions f _ _⟩
  | .declared _ _, e => fun h => ⟨e, h, e.dimensions, by cases e <;> rfl⟩
  | .typeVariable _, e => fun h => ⟨e, h, e.dimensions, by cases e <;> rfl⟩
  | .unresolved, e => fun h => ⟨e, h, e.dimensions, by cases e <;> rfl⟩

/-- What is found for a class is the class as it is made, in some dimensions. -/
theorem FoundFor.exists_eq_withDimensions (h : FoundFor r m s e) (hm : Keyed r m) :
    ∃ d bindings dimensions, r.graph.classDeclaration? s = some d ∧
      e = (r.declaredElement s d bindings).withDimensions dimensions := by
  cases h with
  | symbol h =>
    have hsteps := h
    obtain ⟨d, _, hknown, -⟩ := run_bind_eq_ok hsteps
    obtain ⟨hs, -⟩ := run_known_eq_ok hknown
    exact ⟨d, e.arguments, 0, hs, eq_declaredElement_of_run_elementOf hm hs h⟩
  | @use generics use arguments m' huse h =>
    obtain ⟨f, hf, dimensions, rfl⟩ := exists_run_beneathArrays use h
    rw [huse] at hf
    obtain ⟨d, hs, hmade⟩ := exists_eq_declaredElement_of_run_resolve hm hf
    exact ⟨d, f.arguments, dimensions, hs, congrArg (·.withDimensions dimensions) hmade⟩
  | around ht h =>
    obtain ⟨d, made, hs, hfound, hmade⟩ :=
      exists_eq_declaredElement_of_run_declaringClass? hm ht h
    obtain rfl := Option.some.inj hfound
    exact ⟨d, e.arguments, 0, hs, hmade⟩

/-! ## Flags of every class -/

/-- Whatever the graph and the units are, every way outward is over after as many steps as the graph
has declarations and one more. Every element that is found for a class has the symbol of the class
and its flags: it is inner if it stands directly in a class, and it is static if it is not marked
`inner` and is marked `static`, or is inner and no plain class, or is inner and plain and its
language makes it static.

The same holds of every class that the resolver provides, in any dimensions and with any arguments,
except of one that stands in for the top type. So classes of one symbol always have the same
flags. -/
theorem flags_of_classes (graph : SymbolGraph) (settings : Settings)
    (units : List CompilationUnit) :
    (∀ s, ∃ n ≤ graph.size + 1, graph.OverAt s n) ∧
    (∀ m s e, LeftByCalls (ofUnits graph settings units) m →
      FoundFor (ofUnits graph settings units) m s e →
      e.isPlaceholder = false ∧ e.symbol = s ∧ ∃ d, Flagged graph units d e.shape) ∧
    (∀ e, (ofUnits graph settings units).Provides e → e.isPlaceholder = false →
      (∃ d, Flagged graph units d e.shape) ∨
        (ofUnits graph settings units).StandsInForTop e.shape) ∧
    ∀ e f, (ofUnits graph settings units).Provides e → (ofUnits graph settings units).Provides f →
      e.isPlaceholder = false → f.isPlaceholder = false → e.symbol = f.symbol →
      ¬ (ofUnits graph settings units).StandsInForTop e.shape →
      ¬ (ofUnits graph settings units).StandsInForTop f.shape →
      e.shape.isInner = f.shape.isInner ∧ e.shape.isStatic = f.shape.isStatic := by
  refine ⟨graph.exists_overAt, fun m s e hm hfound => ?_, fun e he hclass => ?_,
    fun e f he hf hclass hclass' hsymbol hmade hmade' => ?_⟩
  · obtain ⟨d, bindings, dimensions, hs, rfl⟩ := hfound.exists_eq_withDimensions hm.keyed
    have hflagged : Flagged graph units d
        ((ofUnits graph settings units).declaredElement s d bindings).shape :=
      flagged_declaredElement hs bindings
    exact ⟨rfl, rfl, d, hflagged.declared, hflagged.isInner_iff, hflagged.isStatic_iff⟩
  · exact he.flaggedOrStandIn hclass
  · obtain ⟨d, hflagged⟩ := (he.flaggedOrStandIn hclass).resolve_right hmade
    obtain ⟨d', hflagged'⟩ := (hf.flaggedOrStandIn hclass').resolve_right hmade'
    exact hflagged.flags_eq hflagged' hsymbol

/-- A class with a nested class, and two classes that stand in each other. -/
def houseGraph : SymbolGraph :=
  .ofEdits [
    .addClass "House" .plain,
    .addNested "House" "House.Room" .plain [],
    .addNested "Band" "Ring" .plain [],
    .addNested "Ring" "Band" .plain []]

/-- Two units in different languages that list the same class. -/
def houseUnits : List CompilationUnit :=
  [{ path := "House.java", language := .java, declarations := [.ofClass "House"] },
    { path := "House.kt", language := .kotlin, declarations := [.ofClass "House"] }]

theorem listed_houseUnits : Listed houseUnits s ↔ s = .ofClass "House" := by
  simp [Listed, houseUnits]

/-- The nested class is static, since the last unit that lists the class around it is in a language
where such classes are. Of the two classes that stand in each other no unit lists any. -/
theorem flags_of_classes_houseGraph :
    ∃ room band, LeftByCalls (ofUnits houseGraph {} houseUnits) {} ∧
      FoundFor (ofUnits houseGraph {} houseUnits) {} (.ofClass "House.Room") room ∧
      room.shape.isInner = true ∧ room.shape.isStatic = true ∧
      FoundFor (ofUnits houseGraph {} houseUnits) {} (.ofClass "Band") band ∧
      band.shape.isInner = true ∧ band.shape.isStatic = true := by
  obtain ⟨-, hflags, -⟩ := flags_of_classes houseGraph {} houseUnits
  have hstart : LeftByCalls (ofUnits houseGraph {} houseUnits) {} := .start []
  have hroom : FoundFor (ofUnits houseGraph {} houseUnits) {} (.ofClass "House.Room") _ :=
    .symbol rfl
  have hband : FoundFor (ofUnits houseGraph {} houseUnits) {} (.ofClass "Band") _ := .symbol rfl
  obtain ⟨-, -, droom, hflagged⟩ := hflags _ _ _ hstart hroom
  obtain ⟨-, -, dband, hflagged'⟩ := hflags _ _ _ hstart hband
  have hlanguage : StaticByLanguage houseGraph houseUnits (.ofClass "House.Room") := by
    refine Or.inl ⟨.ofClass "House", ⟨1, rfl, listed_houseUnits.2 rfl, fun k hk t ht => ?_⟩,
      Or.inl ⟨[_], _, [], rfl, List.mem_cons_self, rfl, nofun⟩⟩
    obtain rfl : k = 0 := by omega
    cases ht
    rw [listed_houseUnits]
    decide
  have hcircle : StaticByLanguage houseGraph houseUnits (.ofClass "Band") := by
    refine Or.inr ⟨2, Or.inr ⟨0, Nat.zero_lt_two, rfl⟩, fun k hk t ht => ?_⟩
    rw [listed_houseUnits]
    obtain rfl | rfl : k = 0 ∨ k = 1 := by omega
    · cases ht
      decide
    · cases ht
      decide
  have hinner : StandsInClass houseGraph (.ofClass "House.Room") := ⟨.ofClass "House", rfl, rfl⟩
  have hinner' : StandsInClass houseGraph (.ofClass "Band") := ⟨.ofClass "Ring", rfl, rfl⟩
  refine ⟨_, _, hstart, hroom, hflagged.isInner_iff.2 hinner, ?_, hband,
    hflagged'.isInner_iff.2 hinner', ?_⟩
  · cases hflagged.declared
    exact hflagged.isStatic_iff.2
      ⟨List.not_mem_nil, Or.inr (Or.inr ⟨hinner, rfl, hlanguage⟩)⟩
  · cases hflagged'.declared
    exact hflagged'.isStatic_iff.2
      ⟨List.not_mem_nil, Or.inr (Or.inr ⟨hinner', rfl, hcircle⟩)⟩

end Resolver

end BeanProcessing

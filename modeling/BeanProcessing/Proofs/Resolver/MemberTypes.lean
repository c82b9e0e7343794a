import BeanProcessing.Proofs.Resolver.Substitution

/-!
# Types of members

The members of a class are looked at from a use of the class, and their generic types are the types
of their declarations with the arguments of that use in the places of the type parameters.

A member *follows* its declaration in a relation between type uses and elements when each of its
generic types is related to the type that is declared in its place.
-/

namespace BeanProcessing

variable {g : SymbolGraph} {P Q : TypeUse → ClassElement → Prop}

/-! ## Members and their declarations -/

/-- Whether the generic type of a parameter is related to the type that it is declared with. -/
def ParameterElement.Follows (g : SymbolGraph) (P : TypeUse → ClassElement → Prop)
    (p : ParameterElement) : Prop :=
  ∃ d, g.valueParameter? p.symbol = some d ∧ P d.type p.genericType

/-- Whether a constructor has the parameters that it is declared with, and they follow theirs. -/
def ConstructorElement.Follows (g : SymbolGraph) (P : TypeUse → ClassElement → Prop)
    (c : ConstructorElement) : Prop :=
  ∃ d, g.functionDeclaration? c.symbol = some d ∧ c.parameters.map (·.symbol) = d.parameters ∧
    ∀ p ∈ c.parameters, p.Follows g P

/-- Whether the generic return type of a method is related to the one that it is declared with, and
it has the parameters that it is declared with, which follow theirs. -/
def MethodElement.Follows (g : SymbolGraph) (P : TypeUse → ClassElement → Prop)
    (m : MethodElement) : Prop :=
  ∃ d, g.functionDeclaration? m.symbol = some d ∧ P d.returnType m.genericReturnType ∧
    m.parameters.map (·.symbol) = d.parameters ∧ ∀ p ∈ m.parameters, p.Follows g P

theorem ParameterElement.Follows.mono (hPQ : ∀ use e, P use e → Q use e) {p : ParameterElement}
    (h : p.Follows g P) : p.Follows g Q := by
  obtain ⟨d, hd, htype⟩ := h
  exact ⟨d, hd, hPQ _ _ htype⟩

theorem ConstructorElement.Follows.mono (hPQ : ∀ use e, P use e → Q use e)
    {c : ConstructorElement} (h : c.Follows g P) : c.Follows g Q := by
  obtain ⟨d, hd, hsymbols, hparameters⟩ := h
  exact ⟨d, hd, hsymbols, fun p hp => (hparameters p hp).mono hPQ⟩

theorem MethodElement.Follows.mono (hPQ : ∀ use e, P use e → Q use e) {m : MethodElement}
    (h : m.Follows g P) : m.Follows g Q := by
  obtain ⟨d, hd, htype, hsymbols, hparameters⟩ := h
  exact ⟨d, hd, hPQ _ _ htype, hsymbols, fun p hp => (hparameters p hp).mono hPQ⟩

namespace Resolver

variable {r : Resolver} {generics : TypeArguments}

/-! ## Direct resolution follows declarations -/

/-- Whether a type use comes to an element under a substitution. -/
def ComesTo (r : Resolver) (generics : TypeArguments) (use : TypeUse) (e : ClassElement) : Prop :=
  Direct.resolve r generics use = .ok e

theorem follows_parameterElement {s : Symbol} {p : ParameterElement}
    (h : Direct.parameterElement r generics s = .ok p) :
    p.symbol = s ∧ p.Follows r.graph (ComesTo r generics) := by
  unfold Direct.parameterElement at h
  obtain ⟨d, hd, h⟩ := Direct.bind_eq_ok.1 h
  cases hname : d.name.filter (!·.isEmpty) with
  | none =>
    rw [hname] at h
    cases h
  | some name =>
    rw [hname] at h
    obtain ⟨type, -, h⟩ := Direct.bind_eq_ok.1 h
    obtain ⟨genericType, hgenericType, h⟩ := Direct.bind_eq_ok.1 h
    cases h
    exact ⟨rfl, d, Direct.known_eq_ok.1 hd, hgenericType⟩

theorem follows_parameters {symbols : List Symbol} {ps : List ParameterElement}
    (h : symbols.mapM (Direct.parameterElement r generics) = .ok ps) :
    ps.map (·.symbol) = symbols ∧ ∀ p ∈ ps, p.Follows r.graph (ComesTo r generics) := by
  induction symbols generalizing ps with
  | nil =>
    cases h
    exact ⟨rfl, fun p hp => absurd hp List.not_mem_nil⟩
  | cons s rest ih =>
    rw [List.mapM_cons] at h
    obtain ⟨p, hp, h⟩ := Direct.bind_eq_ok.1 h
    obtain ⟨ps', hps', h⟩ := Direct.bind_eq_ok.1 h
    cases h
    obtain ⟨hsymbol, hfollows⟩ := follows_parameterElement hp
    obtain ⟨hsymbols, hrest⟩ := ih hps'
    exact ⟨by rw [List.map_cons, hsymbol, hsymbols], List.forall_mem_cons.2 ⟨hfollows, hrest⟩⟩

theorem follows_buildMethod {e : ClassElement} {s : Symbol} {d : FunctionDeclaration}
    (hs : r.graph.functionDeclaration? s = some d) {m : MethodElement}
    (h : Direct.buildMethod r e s d = .ok m) : m.Follows r.graph (ComesTo r e.arguments) := by
  obtain ⟨returnType, -, h⟩ := Direct.bind_eq_ok.1 h
  obtain ⟨genericReturnType, hgenericReturn, h⟩ := Direct.bind_eq_ok.1 h
  obtain ⟨ps, hps, h⟩ := Direct.bind_eq_ok.1 h
  cases h
  exact ⟨d, hs, hgenericReturn, follows_parameters hps⟩

theorem follows_buildConstructor {e : ClassElement} {s : Symbol} {d : FunctionDeclaration}
    (hs : r.graph.functionDeclaration? s = some d) {c : ConstructorElement}
    (h : Direct.buildConstructor r e s d = .ok c) : c.Follows r.graph (ComesTo r e.arguments) := by
  obtain ⟨ps, hps, h⟩ := Direct.bind_eq_ok.1 h
  cases h
  exact ⟨d, hs, follows_parameters hps⟩

theorem follows_methodElement {e : ClassElement} {s : Symbol} {m : MethodElement}
    (h : Direct.methodElement r e s = .ok m) : m.Follows r.graph (ComesTo r e.arguments) := by
  obtain ⟨d, hd, h⟩ := Direct.bind_eq_ok.1 h
  exact follows_buildMethod (Direct.known_eq_ok.1 hd) h

theorem follows_constructorElement {e : ClassElement} {s : Symbol} {c : ConstructorElement}
    (h : Direct.constructorElement r e s = .ok c) : c.Follows r.graph (ComesTo r e.arguments) := by
  obtain ⟨d, hd, h⟩ := Direct.bind_eq_ok.1 h
  exact follows_buildConstructor (Direct.known_eq_ok.1 hd) h

theorem follows_methods {e : ClassElement} {ms : List MethodElement}
    (h : Direct.methods r e = .ok ms) :
    ∀ m ∈ ms, m.Follows r.graph (ComesTo r e.arguments) := by
  intro m hm
  obtain ⟨d, -, h⟩ := Direct.bind_eq_ok.1 h
  obtain ⟨s, d', hs, hmade⟩ := exists_of_mem_membersWhere h hm
  exact follows_buildMethod hs hmade

theorem follows_constructors {e : ClassElement} {cs : List ConstructorElement}
    (h : Direct.constructors r e = .ok cs) :
    ∀ c ∈ cs, c.Follows r.graph (ComesTo r e.arguments) := by
  intro c hc
  obtain ⟨d, -, h⟩ := Direct.bind_eq_ok.1 h
  obtain ⟨s, d', hs, hmade⟩ := exists_of_mem_membersWhere h hc
  exact follows_buildConstructor hs hmade

/-! ## Members of a use of a class -/

/-- Whether an element is of the type that a use comes to, in any memory that is reached, when type
uses are put in the places of type parameters. Uses with other type variables do not matter. -/
def IsInstance (r : Resolver) (generics : TypeArguments) (parameters : List Symbol)
    (arguments : List TypeUse) (use : TypeUse) (e : ClassElement) : Prop :=
  use.InScope r.graph parameters → ∀ m, Reached r m →
    ∃ f, ((r.resolve generics
      (use.substitute (TypeUse.forParameters parameters arguments))).run.run m).1 = .ok f ∧
      (e == f) = true

/-- What a type comes to under the arguments of a use of a class, and what the members of that use
have for types, is what the type comes to with the arguments put in the places of the type
parameters of the class. -/
theorem resolve_arguments_eq_substitute (hr : r.Readable) {exchanges : List Exchange} {m : Memory}
    (h : Transcript r exchanges m) {owner : Symbol} {d : ClassDeclaration}
    (howner : r.graph.classDeclaration? owner = some d)
    (hnames : (declaredNames r.graph d.typeParameters).Nodup)
    (henclosed : ∀ p ∈ d.typeParameters, r.graph.enclosing? p = some owner)
    {arguments : List TypeUse} (hlength : arguments.length = d.typeParameters.length)
    (hgenerics : SuppliedBindings r.graph (returnedIn exchanges) generics) {c : ClassElement}
    (hc : ((r.resolve generics (.declared owner arguments)).run.run m).1 = .ok c) :
    (∀ use : TypeUse, use.InScope r.graph d.typeParameters →
      ∀ m₁ m₂, Reached r m₁ → Reached r m₂ →
      SameOutcome (fun e f => (e == f) = true) ((r.resolve c.arguments use).run.run m₁).1
        ((r.resolve generics
          (use.substitute (TypeUse.forParameters d.typeParameters arguments))).run.run m₂).1) ∧
    ∀ m₁, Reached r m₁ →
      (∀ s member, ((r.methodElement c s).run.run m₁).1 = .ok member →
        member.Follows r.graph (IsInstance r generics d.typeParameters arguments)) ∧
      (∀ s member, ((r.constructorElement c s).run.run m₁).1 = .ok member →
        member.Follows r.graph (IsInstance r generics d.typeParameters arguments)) ∧
      (∀ members, ((r.methods c).run.run m₁).1 = .ok members → ∀ member ∈ members,
        member.Follows r.graph (IsInstance r generics d.typeParameters arguments)) ∧
      (∀ members, ((r.constructors c).run.run m₁).1 = .ok members → ∀ member ∈ members,
        member.Follows r.graph (IsInstance r generics d.typeParameters arguments)) := by
  have hcanonical : generics.Canonical r :=
    canonical_of_suppliedBindings (h.invariant hr).2.1 hgenerics
  have hdirect : Direct.resolve r generics (.declared owner arguments) = .ok c := by
    rw [← hc]
    exact ((agrees_resolve hr hcanonical _).eq_of_reached hr ⟨exchanges, h⟩).symm
  have harguments : c.arguments.Canonical r :=
    (canonical_resolve hr hcanonical _ c hdirect).arguments
  have hsame : ∀ use : TypeUse, use.InScope r.graph d.typeParameters →
      SameTypeOutcome (Direct.resolve r c.arguments use) (Direct.resolve r generics
        (use.substitute (TypeUse.forParameters d.typeParameters arguments))) := fun use huse =>
    sameOutcome_resolve_arguments hr hcanonical howner hnames henclosed hlength hdirect huse
  -- whatever a type comes to under the arguments of the class is an instance of it
  have hinstance : ∀ use e, ComesTo r c.arguments use e →
      IsInstance r generics d.typeParameters arguments use e := by
    intro use e he huse m₂ hm₂
    obtain ⟨f, hf, hef⟩ := (hsame use huse).exists_eq_ok he
    exact ⟨f, by rw [(agrees_resolve hr hcanonical _).eq_of_reached hr hm₂, hf], hef⟩
  refine ⟨fun use huse m₁ m₂ hm₁ hm₂ => ?_, fun m₁ hm₁ => ⟨?_, ?_, ?_, ?_⟩⟩
  · rw [(agrees_resolve hr harguments use).eq_of_reached hr hm₁,
      (agrees_resolve hr hcanonical _).eq_of_reached hr hm₂]
    exact hsame use huse
  · intro s member hmember
    rw [(agrees_methodElement hr harguments s).eq_of_reached hr hm₁] at hmember
    exact (follows_methodElement hmember).mono hinstance
  · intro s member hmember
    rw [(agrees_constructorElement hr harguments s).eq_of_reached hr hm₁] at hmember
    exact (follows_constructorElement hmember).mono hinstance
  · intro members hmembers member hmember
    rw [(agrees_methods hr harguments).eq_of_reached hr hm₁] at hmembers
    exact (follows_methods hmembers member hmember).mono hinstance
  · intro members hmembers member hmember
    rw [(agrees_constructors hr harguments).eq_of_reached hr hm₁] at hmembers
    exact (follows_constructors hmembers member hmember).mono hinstance

/-- A type argument of one generic class in terms of the type parameter of the other. -/
def arraysOfCrated : List TypeUse := [.array (.typeVariable (.ofTypeParameter "Crate<T>")) 2]

/-- A type in terms of the type parameter of the class with this argument. -/
def crateOfBoxed : TypeUse :=
  .declared (.ofClass "Crate") [.array (.typeVariable (.ofTypeParameter "Box<T>")) 1]

/-- A box of arrays, under a substitution that binds the type parameter of the crate. -/
theorem resolve_arguments_eq_substitute_boxResolver :
    ∃ d c, boxResolver.Readable ∧ Transcript boxResolver textExchanges textMemory ∧
      boxGraph.classDeclaration? (.ofClass "Box") = some d ∧
      (declaredNames boxGraph d.typeParameters).Nodup ∧
      (∀ p ∈ d.typeParameters, boxGraph.enclosing? p = some (.ofClass "Box")) ∧
      arraysOfCrated.length = d.typeParameters.length ∧
      SuppliedBindings boxGraph (returnedIn textExchanges) textArrays ∧
      ((boxResolver.resolve textArrays (.declared (.ofClass "Box") arraysOfCrated)).run.run
        textMemory).1 = .ok c ∧
      SameOutcome (fun e f => (e == f) = true)
        ((boxResolver.resolve c.arguments crateOfBoxed).run.run textMemory).1
        ((boxResolver.resolve textArrays (crateOfBoxed.substitute
          (TypeUse.forParameters d.typeParameters arraysOfCrated))).run.run textMemory).1 := by
  have howner : boxResolver.graph.classDeclaration? (.ofClass "Box") = some _ := rfl
  have hnames : (declaredNames boxGraph [.ofTypeParameter "Box<T>"]).Nodup := by decide
  have henclosed : ∀ p ∈ [Symbol.ofTypeParameter "Box<T>"],
      boxGraph.enclosing? p = some (.ofClass "Box") := by decide
  have hsupplied : SuppliedBindings boxGraph (returnedIn textExchanges) textArrays :=
    suppliedBindings_textArrays []
  have hc : ((boxResolver.resolve textArrays (.declared (.ofClass "Box") arraysOfCrated)).run.run
      textMemory).1 = .ok _ := rfl
  have hscope : crateOfBoxed.InScope boxGraph [.ofTypeParameter "Box<T>"] :=
    fun v hv => Or.inl hv
  have hreached : Reached boxResolver textMemory := ⟨_, transcript_textMemory⟩
  exact ⟨_, _, readable_boxResolver, transcript_textMemory, howner, hnames, henclosed, rfl,
    hsupplied, hc, (resolve_arguments_eq_substitute readable_boxResolver transcript_textMemory
      howner hnames henclosed rfl hsupplied hc).1 _ hscope _ _ hreached hreached⟩

end Resolver

end BeanProcessing

import BeanProcessing.Proofs.Resolver.Transparency
import BeanProcessing.SymbolGraph.Edit

/-!
# Transcripts of a resolver

A resolver that remembers its answers cannot be told from one that makes every answer anew, as long
as its graph is readable and it is asked about what it has returned itself.

* `Call` and `Answer` are what a resolver can be asked and what it says.
* `Transcript` is the record of calls on one resolver, each of which passes on only type parameters
  of the graph and elements that calls before it returned.
* Every answer in a transcript is the answer of direct resolution to the same call.
-/

namespace BeanProcessing.Resolver

/-! ## Calls and answers -/

/-- What a resolver can be asked. -/
inductive Call where
  /-- The element of a class with its type parameters left open. -/
  | elementOf (s : Symbol)
  /-- The element of the first class with a qualified name. -/
  | elementNamed (qualifiedName : String)
  /-- What a type use stands for under a substitution. -/
  | resolve (use : TypeUse) (generics : TypeArguments)
  /-- The placeholder of a type parameter under a substitution. -/
  | placeholder (s : Symbol) (generics : TypeArguments)
  /-- The element of the top type. -/
  | topType
  /-- The nearest class around a symbol, bound by a substitution. -/
  | declaringClass (s : Symbol) (generics : TypeArguments)
  /-- The constructors of a class. -/
  | constructors (e : ClassElement)
  /-- The methods of a class. -/
  | methods (e : ClassElement)
  /-- A function as a method of a class. -/
  | method (s : Symbol) (declaringType : ClassElement)
  /-- A function as a constructor of a class. -/
  | constructor (s : Symbol) (declaringType : ClassElement)
  /-- A value parameter under a substitution. -/
  | parameter (s : Symbol) (generics : TypeArguments)
  /-- The bounds of a placeholder; a declared class has none. -/
  | bounds (e : ClassElement)
  /-- The class that a class or a type variable is declared in. -/
  | declaringElement (e : ClassElement)

/-- What a resolver can say. -/
inductive Answer where
  | element (e : ClassElement)
  | element? (e : Option ClassElement)
  | elements (es : List ClassElement)
  | constructor (c : ConstructorElement)
  | constructors (cs : List ConstructorElement)
  | method (m : MethodElement)
  | methods (ms : List MethodElement)
  | parameter (p : ParameterElement)

/-- The answer of a resolver with a memory. -/
def answer (r : Resolver) : Call → ResolveM Answer
  | .elementOf s => .element <$> r.elementOf s
  | .elementNamed qualifiedName => .element? <$> r.elementNamed? qualifiedName
  | .resolve use generics => .element <$> r.resolve generics use
  | .placeholder s generics => .element <$> r.placeholderOf s generics
  | .topType => .element <$> (liftM r.topType : ResolveM ClassElement)
  | .declaringClass s generics => .element? <$> r.declaringClass? s generics
  | .constructors e => .constructors <$> r.constructors e
  | .methods e => .methods <$> r.methods e
  | .method s declaringType => .method <$> r.methodElement declaringType s
  | .constructor s declaringType => .constructor <$> r.constructorElement declaringType s
  | .parameter s generics => .parameter <$> r.parameterElement generics s
  | .bounds (.declared _ _) => pure (.elements [])
  | .bounds (.placeholder _ _ typeVariable captured) =>
    .elements <$> r.boundsOf typeVariable captured
  | .declaringElement e => .element? <$> r.declaringElement? e.toElement

/-- The answer of direct resolution. -/
def Direct.answer (r : Resolver) : Call → Except Failure Answer
  | .elementOf s => .element <$> Direct.elementOf r s
  | .elementNamed qualifiedName => .element? <$> Direct.elementNamed? r qualifiedName
  | .resolve use generics => .element <$> Direct.resolve r generics use
  | .placeholder s generics => .element <$> Direct.placeholderOf r s generics
  | .topType => .ok (.element (Direct.topType r))
  | .declaringClass s generics => .element? <$> Direct.declaringClass? r s generics
  | .constructors e => .constructors <$> Direct.constructors r e
  | .methods e => .methods <$> Direct.methods r e
  | .method s declaringType => .method <$> Direct.methodElement r declaringType s
  | .constructor s declaringType => .constructor <$> Direct.constructorElement r declaringType s
  | .parameter s generics => .parameter <$> Direct.parameterElement r generics s
  | .bounds (.declared _ _) => .ok (.elements [])
  | .bounds (.placeholder _ _ typeVariable captured) =>
    .elements <$> Direct.boundsOf r typeVariable captured
  | .declaringElement e => .element? <$> Direct.declaringClass? r e.symbol e.captured

/-! ## The elements in an answer -/

/-- The types of a parameter. -/
def typesOfParameter (p : ParameterElement) : List ClassElement := [p.type, p.genericType]

/-- The types of a constructor and of its parameters. -/
def typesOfConstructor (c : ConstructorElement) : List ClassElement :=
  c.declaringType :: c.parameters.flatMap typesOfParameter

/-- The types of a method and of its parameters. -/
def typesOfMethod (m : MethodElement) : List ClassElement :=
  m.declaringType :: m.returnType :: m.genericReturnType :: m.parameters.flatMap typesOfParameter

/-- The class elements in an answer. -/
def Answer.types : Answer → List ClassElement
  | .element e => [e]
  | .element? e => e.toList
  | .elements es => es
  | .constructor c => typesOfConstructor c
  | .constructors cs => cs.flatMap typesOfConstructor
  | .method m => typesOfMethod m
  | .methods ms => ms.flatMap typesOfMethod
  | .parameter p => typesOfParameter p

/-! ## Transcripts -/

/-- Whether an element is one of those returned, perhaps with other dimensions, or a part of one. -/
inductive Supplied (returned : List ClassElement) : ClassElement → Prop
  | returned {e : ClassElement} (h : e ∈ returned) : Supplied returned e
  | withDimensions {e : ClassElement} (h : Supplied returned e) (dimensions : Nat) :
    Supplied returned (e.withDimensions dimensions)
  | argument {e f : ClassElement} {name : String} (h : Supplied returned e)
    (hf : (name, f) ∈ e.arguments.toList) : Supplied returned f
  | captured {e f : ClassElement} {name : String} (h : Supplied returned e)
    (hf : (name, f) ∈ e.captured.toList) : Supplied returned f

/-- Whether a substitution binds names of type parameters to supplied elements. -/
def SuppliedBindings (g : SymbolGraph) (returned : List ClassElement) (generics : TypeArguments) :
    Prop :=
  ∀ entry ∈ generics.toList, NamesParameter g entry.1 ∧ Supplied returned entry.2

/-- Whether a call passes on only what was supplied. -/
def Call.PassesOn (g : SymbolGraph) (returned : List ClassElement) : Call → Prop
  | .elementOf _ => True
  | .elementNamed _ => True
  | .resolve _ generics => SuppliedBindings g returned generics
  | .placeholder _ generics => SuppliedBindings g returned generics
  | .topType => True
  | .declaringClass _ generics => SuppliedBindings g returned generics
  | .constructors e => Supplied returned e
  | .methods e => Supplied returned e
  | .method _ declaringType => Supplied returned declaringType
  | .constructor _ declaringType => Supplied returned declaringType
  | .parameter _ generics => SuppliedBindings g returned generics
  | .bounds e => Supplied returned e
  | .declaringElement e => Supplied returned e

/-- A call with its answer. -/
abbrev Exchange := Call × Except Failure Answer

/-- The class elements that were returned in some exchanges. -/
def returnedIn (exchanges : List Exchange) : List ClassElement :=
  exchanges.flatMap fun exchange =>
    match exchange.2 with
    | .ok answer => answer.types
    | .error _ => []

/-- The exchanges on one resolver, and the memory that they leave behind. -/
inductive Transcript (r : Resolver) : List Exchange → Memory → Prop
  /-- A resolver that was not asked anything remembers nothing. -/
  | start (log : Log) : Transcript r [] { log }
  /-- A resolver answers one call more. -/
  | call {exchanges : List Exchange} {m : Memory} (h : Transcript r exchanges m) {c : Call}
    (hc : c.PassesOn r.graph (returnedIn exchanges)) :
    Transcript r (exchanges ++ [(c, ((r.answer c).run.run m).1)]) ((r.answer c).run.run m).2

/-! ## What is supplied is canonical -/

variable {r : Resolver}

theorem canonical_of_supplied {returned : List ClassElement}
    (hreturned : ∀ e ∈ returned, e.Canonical r) {e : ClassElement} (h : Supplied returned e) :
    e.Canonical r := by
  induction h with
  | returned h => exact hreturned _ h
  | withDimensions _ dimensions ih => exact ih.withDimensions dimensions
  | argument _ hf ih => exact (TypeArguments.canonical_iff.1 ih.arguments _ hf).2
  | captured _ hf ih => exact (TypeArguments.canonical_iff.1 ih.captured _ hf).2

theorem canonical_of_suppliedBindings {returned : List ClassElement}
    (hreturned : ∀ e ∈ returned, e.Canonical r) {generics : TypeArguments}
    (h : SuppliedBindings r.graph returned generics) : generics.Canonical r :=
  TypeArguments.canonical_iff.2 fun entry hentry =>
    ⟨(h entry hentry).1, canonical_of_supplied hreturned (h entry hentry).2⟩

/-- Whether what a call passes on is canonical. -/
def Call.Canonical (r : Resolver) : Call → Prop
  | .elementOf _ => True
  | .elementNamed _ => True
  | .resolve _ generics => generics.Canonical r
  | .placeholder _ generics => generics.Canonical r
  | .topType => True
  | .declaringClass _ generics => generics.Canonical r
  | .constructors e => e.Canonical r
  | .methods e => e.Canonical r
  | .method _ declaringType => declaringType.Canonical r
  | .constructor _ declaringType => declaringType.Canonical r
  | .parameter _ generics => generics.Canonical r
  | .bounds e => e.Canonical r
  | .declaringElement e => e.Canonical r

theorem Call.PassesOn.canonical {returned : List ClassElement} {c : Call}
    (h : c.PassesOn r.graph returned) (hreturned : ∀ e ∈ returned, e.Canonical r) :
    c.Canonical r := by
  cases c with
  | elementOf s => trivial
  | elementNamed qualifiedName => trivial
  | topType => trivial
  | resolve use generics => exact canonical_of_suppliedBindings hreturned h
  | placeholder s generics => exact canonical_of_suppliedBindings hreturned h
  | declaringClass s generics => exact canonical_of_suppliedBindings hreturned h
  | parameter s generics => exact canonical_of_suppliedBindings hreturned h
  | constructors e => exact canonical_of_supplied hreturned h
  | methods e => exact canonical_of_supplied hreturned h
  | method s declaringType => exact canonical_of_supplied hreturned h
  | constructor s declaringType => exact canonical_of_supplied hreturned h
  | bounds e => exact canonical_of_supplied hreturned h
  | declaringElement e => exact canonical_of_supplied hreturned h

/-! ## One call -/

section

variable (hr : r.Readable)
include hr

/-- Whatever was remembered, a call on canonical elements gets the answer of direct resolution. -/
theorem agrees_answer {c : Call} (hc : c.Canonical r) :
    Agrees r (r.canonicalRequests hr) (r.answer c).run (Direct.answer r c) := by
  cases c with
  | elementOf s => exact (agrees_elementOf_canonical hr s).map
  | elementNamed qualifiedName =>
    refine Agrees.map ?_
    unfold elementNamed? Direct.elementNamed?
    cases r.graph.findClass? qualifiedName with
    | none => exact Agrees.pure _
    | some s => exact (agrees_elementOf_canonical hr s).map
  | resolve use generics => exact (agrees_resolve hr hc use).map
  | placeholder s generics =>
    refine Agrees.map (Agrees.bindOk (Agrees.known s _) fun d hd => ?_)
    exact (agrees_placeholder (Direct.known_eq_ok.1 hd) hc).liftM
  | topType => exact (agrees_topType hr).liftM.map
  | declaringClass s generics => exact (agrees_declaringClass? hr hc s).map
  | constructors e => exact (agrees_constructors hr hc.arguments).map
  | methods e => exact (agrees_methods hr hc.arguments).map
  | method s declaringType => exact (agrees_methodElement hr hc.arguments s).map
  | constructor s declaringType => exact (agrees_constructorElement hr hc.arguments s).map
  | parameter s generics => exact (agrees_parameterElement hr hc s).map
  | bounds e =>
    cases e with
    | declared shape arguments => exact Agrees.pure _
    | placeholder shape arguments v captured =>
      exact Agrees.map (Agrees.mapM fun bound _ => agrees_resolve hr hc.captured bound)
  | declaringElement e =>
    cases e with
    | declared shape arguments => exact (agrees_declaringClass? hr hc.captured shape.symbol).map
    | placeholder shape arguments v captured =>
      exact (agrees_declaringClass? hr hc.captured shape.symbol).map

theorem canonical_typesOfParameter {generics : TypeArguments} (hgenerics : generics.Canonical r)
    {s : Symbol} {p : ParameterElement} (h : Direct.parameterElement r generics s = .ok p) :
    ∀ e ∈ typesOfParameter p, e.Canonical r := by
  unfold Direct.parameterElement at h
  obtain ⟨d, -, h⟩ := Direct.bind_eq_ok.1 h
  cases hname : d.name.filter (!·.isEmpty) with
  | none =>
    rw [hname] at h
    cases h
  | some name =>
    rw [hname] at h
    obtain ⟨type, htype, h⟩ := Direct.bind_eq_ok.1 h
    obtain ⟨genericType, hgenericType, h⟩ := Direct.bind_eq_ok.1 h
    cases h
    intro e he
    rcases List.mem_pair.1 he with rfl | rfl
    · exact canonical_resolve hr TypeArguments.canonical_empty d.type _ htype
    · exact canonical_resolve hr hgenerics d.type _ hgenericType

theorem canonical_typesOfParameters {generics : TypeArguments} (hgenerics : generics.Canonical r)
    {symbols : List Symbol} {ps : List ParameterElement}
    (h : symbols.mapM (Direct.parameterElement r generics) = .ok ps) :
    ∀ e ∈ ps.flatMap typesOfParameter, e.Canonical r := by
  intro e he
  obtain ⟨p, hp, he⟩ := List.mem_flatMap.1 he
  obtain ⟨s, -, hs⟩ := Direct.exists_of_mem_mapM h hp
  exact canonical_typesOfParameter hr hgenerics hs e he

theorem canonical_typesOfConstructor {declaringType : ClassElement}
    (hdeclaring : declaringType.Canonical r) {s : Symbol} {d : FunctionDeclaration}
    {c : ConstructorElement} (h : Direct.buildConstructor r declaringType s d = .ok c) :
    ∀ e ∈ typesOfConstructor c, e.Canonical r := by
  obtain ⟨ps, hps, h⟩ := Direct.bind_eq_ok.1 h
  cases h
  intro e he
  rcases List.mem_cons.1 he with rfl | he
  · exact hdeclaring
  · exact canonical_typesOfParameters hr hdeclaring.arguments hps e he

theorem canonical_typesOfMethod {declaringType : ClassElement}
    (hdeclaring : declaringType.Canonical r) {s : Symbol} {d : FunctionDeclaration}
    {m : MethodElement} (h : Direct.buildMethod r declaringType s d = .ok m) :
    ∀ e ∈ typesOfMethod m, e.Canonical r := by
  obtain ⟨returnType, hreturn, h⟩ := Direct.bind_eq_ok.1 h
  obtain ⟨genericReturnType, hgenericReturn, h⟩ := Direct.bind_eq_ok.1 h
  obtain ⟨ps, hps, h⟩ := Direct.bind_eq_ok.1 h
  cases h
  intro e he
  rcases List.mem_cons.1 he with rfl | he
  · exact hdeclaring
  rcases List.mem_cons.1 he with rfl | he
  · exact canonical_resolve hr TypeArguments.canonical_empty d.returnType _ hreturn
  rcases List.mem_cons.1 he with rfl | he
  · exact canonical_resolve hr hdeclaring.arguments d.returnType _ hgenericReturn
  · exact canonical_typesOfParameters hr hdeclaring.arguments hps e he

omit hr in
theorem exists_of_mem_membersWhere {α : Type} {wanted : FunctionDeclaration → Bool}
    {make : Symbol → FunctionDeclaration → Except Failure α} {members : List Symbol}
    {made : List α} (h : Direct.membersWhere r wanted make members = .ok made) {a : α}
    (ha : a ∈ made) : ∃ s d, r.graph.functionDeclaration? s = some d ∧ make s d = .ok a := by
  induction members generalizing made with
  | nil =>
    cases h
    cases ha
  | cons s rest ih =>
    obtain ⟨d, hd, h⟩ := Direct.bind_eq_ok.1 h
    split at h
    · obtain ⟨b, hb, h⟩ := Direct.bind_eq_ok.1 h
      obtain ⟨bs, hbs, h⟩ := Direct.bind_eq_ok.1 h
      cases h
      rcases List.mem_cons.1 ha with rfl | ha
      · exact ⟨s, d, Direct.known_eq_ok.1 hd, hb⟩
      · exact ih hbs ha
    · exact ih h ha

/-- A call on canonical elements gets an answer of canonical elements. -/
theorem canonical_types_of_answer {c : Call} (hc : c.Canonical r) {a : Answer}
    (h : Direct.answer r c = .ok a) : ∀ e ∈ a.types, e.Canonical r := by
  have hdeclaring : ∀ (s : Symbol) (generics : TypeArguments), generics.Canonical r →
      ∀ found, Direct.declaringClass? r s generics = .ok found →
      ∀ e ∈ found.toList, e.Canonical r := by
    intro s generics hgenerics found hfound e he
    rw [Option.mem_toList] at he
    rw [he] at hfound
    exact canonical_declaringClass? hgenerics hfound
  cases c with
  | elementOf s =>
    obtain ⟨e, he, rfl⟩ := Direct.map_eq_ok.1 h
    exact List.forall_mem_singleton.2 (canonical_elementOf he)
  | elementNamed qualifiedName =>
    obtain ⟨found, hfound, rfl⟩ := Direct.map_eq_ok.1 h
    intro e he
    rw [Answer.types, Option.mem_toList] at he
    rw [he] at hfound
    unfold Direct.elementNamed? at hfound
    split at hfound
    · obtain ⟨e', he', heq⟩ := Direct.map_eq_ok.1 hfound
      cases heq
      exact canonical_elementOf he'
    · cases hfound
  | resolve use generics =>
    obtain ⟨e, he, rfl⟩ := Direct.map_eq_ok.1 h
    exact List.forall_mem_singleton.2 (canonical_resolve hr hc use e he)
  | placeholder s generics =>
    obtain ⟨e, he, rfl⟩ := Direct.map_eq_ok.1 h
    obtain ⟨d, hd, he⟩ := Direct.bind_eq_ok.1 he
    cases he
    exact List.forall_mem_singleton.2 (canonical_placeholderElement (Direct.known_eq_ok.1 hd) hc)
  | topType =>
    cases h
    exact List.forall_mem_singleton.2 (canonical_topType hr)
  | declaringClass s generics =>
    obtain ⟨found, hfound, rfl⟩ := Direct.map_eq_ok.1 h
    exact hdeclaring s generics hc found hfound
  | constructors e =>
    obtain ⟨cs, hcs, rfl⟩ := Direct.map_eq_ok.1 h
    obtain ⟨d, -, hcs⟩ := Direct.bind_eq_ok.1 hcs
    intro f hf
    obtain ⟨c, hc', hf⟩ := List.mem_flatMap.1 hf
    obtain ⟨s, d', -, hmade⟩ := exists_of_mem_membersWhere hcs hc'
    exact canonical_typesOfConstructor hr hc hmade f hf
  | methods e =>
    obtain ⟨ms, hms, rfl⟩ := Direct.map_eq_ok.1 h
    obtain ⟨d, -, hms⟩ := Direct.bind_eq_ok.1 hms
    intro f hf
    obtain ⟨m, hm, hf⟩ := List.mem_flatMap.1 hf
    obtain ⟨s, d', -, hmade⟩ := exists_of_mem_membersWhere hms hm
    exact canonical_typesOfMethod hr hc hmade f hf
  | method s declaringType =>
    obtain ⟨m, hm, rfl⟩ := Direct.map_eq_ok.1 h
    obtain ⟨d, -, hm⟩ := Direct.bind_eq_ok.1 hm
    exact canonical_typesOfMethod hr hc hm
  | constructor s declaringType =>
    obtain ⟨c', hc', rfl⟩ := Direct.map_eq_ok.1 h
    obtain ⟨d, -, hc'⟩ := Direct.bind_eq_ok.1 hc'
    exact canonical_typesOfConstructor hr hc hc'
  | parameter s generics =>
    obtain ⟨p, hp, rfl⟩ := Direct.map_eq_ok.1 h
    exact canonical_typesOfParameter hr hc hp
  | bounds e =>
    cases e with
    | declared shape arguments =>
      cases h
      exact fun f hf => absurd hf List.not_mem_nil
    | placeholder shape arguments v captured =>
      obtain ⟨es, hes, rfl⟩ := Direct.map_eq_ok.1 h
      intro f hf
      obtain ⟨bound, -, hbound⟩ := Direct.exists_of_mem_mapM hes hf
      exact canonical_resolve hr hc.captured bound f hbound
  | declaringElement e =>
    obtain ⟨found, hfound, rfl⟩ := Direct.map_eq_ok.1 h
    exact hdeclaring e.symbol e.captured hc.captured found hfound

/-! ## Whole transcripts -/

/-- What holds of every transcript: the memory is faithful, what was returned is canonical, and
every answer was that of direct resolution. -/
theorem Transcript.invariant {exchanges : List Exchange} {m : Memory}
    (h : Transcript r exchanges m) :
    Faithful r (r.canonicalRequests hr) m ∧ (∀ e ∈ returnedIn exchanges, e.Canonical r) ∧
      ∀ exchange ∈ exchanges, exchange.2 = Direct.answer r exchange.1 := by
  induction h with
  | start log =>
    exact ⟨faithful_of_answers_eq_empty rfl, fun e he => absurd he List.not_mem_nil,
      fun exchange hexchange => absurd hexchange List.not_mem_nil⟩
  | @call exchanges m _ c hc ih =>
    obtain ⟨hfaithful, hreturned, hanswers⟩ := ih
    -- all that is passed on was returned before, and is canonical for that reason
    have hcanonical := hc.canonical hreturned
    obtain ⟨hanswer, hfaithful'⟩ := agrees_answer hr hcanonical m hfaithful
    refine ⟨hfaithful', ?_, ?_⟩
    · intro e he
      rw [returnedIn, List.flatMap_append, List.mem_append] at he
      rcases he with he | he
      · exact hreturned e he
      · rw [List.flatMap_singleton, hanswer] at he
        cases ha : Direct.answer r c with
        | error failure =>
          rw [ha] at he
          cases he
        | ok a =>
          rw [ha] at he
          exact canonical_types_of_answer hr hcanonical ha e he
    · intro exchange hexchange
      rcases List.mem_append.1 hexchange with hexchange | hexchange
      · exact hanswers exchange hexchange
      · rw [List.mem_singleton.1 hexchange]
        exact hanswer

/-- Whether some calls leave a memory behind. -/
def Reached (r : Resolver) (m : Memory) : Prop := ∃ exchanges, Transcript r exchanges m

/-- What agrees with direct resolution comes to the same in every memory that is reached. -/
theorem Agrees.eq_of_reached {β : Type} {action : StateM Memory β} {value : β}
    (h : Agrees r (r.canonicalRequests hr) action value) {m : Memory} (hm : Reached r m) :
    (action.run m).1 = value := by
  obtain ⟨exchanges, htranscript⟩ := hm
  exact (h m (htranscript.invariant hr).1).1

/-- However often and in whatever order a resolver is asked, each of its answers is the one that
direct resolution gives to the same call. -/
theorem Transcript.answer_eq_direct {exchanges : List Exchange} {m : Memory}
    (h : Transcript r exchanges m) :
    ∀ exchange ∈ exchanges, exchange.2 = Direct.answer r exchange.1 :=
  (h.invariant hr).2.2

end

/-! ## Two generic classes -/

/-- Two generic classes whose type parameters have one name; the one is bounded by the other. -/
def boxGraph : SymbolGraph :=
  .ofEdits [
    .addClass "Text" .plain,
    .addClass "Box" .plain,
    .addTypeParameter (.ofClass "Box") "T" [],
    .addClass "Crate" .plain,
    .addTypeParameter (.ofClass "Crate") "T" [.declared (.ofClass "Box") []],
    .addMethod "Box" "get" (.typeVariable (.ofTypeParameter "Box<T>")) []]

/-- A resolver of these classes. -/
def boxResolver : Resolver := .ofUnits boxGraph {} []

/-- A class without type parameters. -/
def textElement : ClassElement := .declared { symbol := .ofClass "Text", name := "Text" } ∅

/-- A substitution that binds the name of both type parameters to arrays. -/
def textArrays : TypeArguments := .cons "T" (textElement.withDimensions 1) .nil

/-- A use of the one class with the other for its argument, which has no argument itself. -/
def crateOfBox : TypeUse := .declared (.ofClass "Crate") [.declared (.ofClass "Box") []]

/-- The one call that makes the class without type parameters known. -/
def textExchanges : List Exchange :=
  [(.elementOf (.ofClass "Text"), .ok (.element textElement))]

/-- The memory that this call leaves behind. -/
def textMemory : Memory := ((boxResolver.answer (.elementOf (.ofClass "Text"))).run.run {}).2

theorem transcript_textMemory : Transcript boxResolver textExchanges textMemory :=
  Transcript.call (.start []) trivial

theorem readable_boxResolver : boxResolver.Readable where
  nodup_classNames := by decide
  plain_classNames := by decide
  plain_parameterNames := by decide
  open_parameterPaths := by decide
  plain_topType := by decide

theorem suppliedBindings_textArrays (returned : List ClassElement) :
    SuppliedBindings boxGraph (textElement :: returned) textArrays := by
  intro entry hentry
  rw [List.mem_singleton.1 hentry]
  exact ⟨⟨.ofTypeParameter "Box<T>", { name := "T" }, rfl, rfl⟩,
    .withDimensions (.returned List.mem_cons_self) 1⟩

/-- The second time a use is resolved, the answer comes from the memory, and it is the same. -/
theorem answer_eq_direct_boxResolver :
    boxResolver.Readable ∧ ∃ exchanges m, Transcript boxResolver exchanges m ∧
      exchanges.map Prod.fst = [.elementOf (.ofClass "Text"), .resolve crateOfBox textArrays,
        .resolve crateOfBox textArrays] ∧
      ∀ exchange ∈ exchanges, exchange.2 = Direct.answer boxResolver exchange.1 := by
  have hsecond := Transcript.call transcript_textMemory (c := .resolve crateOfBox textArrays)
    (suppliedBindings_textArrays _)
  have hthird := Transcript.call hsecond (c := .resolve crateOfBox textArrays)
    (suppliedBindings_textArrays _)
  exact ⟨readable_boxResolver, _, _, hthird, rfl,
    Transcript.answer_eq_direct readable_boxResolver hthird⟩

end BeanProcessing.Resolver

import BeanProcessing.Resolver.Member

/-!
# Direct resolution

What a resolver answers when it remembers nothing: every element is made anew from the graph, and
nothing but the graph, the settings and the substitution goes into an answer. These are the rules
of resolution by themselves, against which a resolver with a memory is measured.
-/

namespace BeanProcessing.Resolver.Direct

/-- What was found for a symbol, which is unknown if nothing was. -/
def known {α : Type} (s : Symbol) : Option α → Except Failure α
  | some a => .ok a
  | none => .error (.unknownSymbol s)

theorem known_eq_ok {α : Type} {s : Symbol} {found : Option α} {a : α} :
    known s found = .ok a ↔ found = some a := by
  cases found <;> simp [known]

/-- A chain of steps comes to something when each of its steps does. -/
theorem bind_eq_ok {α β : Type} {x : Except Failure α} {f : α → Except Failure β} {b : β} :
    x >>= f = .ok b ↔ ∃ a, x = .ok a ∧ f a = .ok b := by
  cases x <;> simp [bind, Except.bind]

theorem map_eq_ok {α β : Type} {f : α → β} {x : Except Failure α} {b : β} :
    f <$> x = .ok b ↔ ∃ a, x = .ok a ∧ f a = b := by
  cases x <;> simp [Functor.map, Except.map]

theorem exists_of_mem_mapM {α β : Type} {f : α → Except Failure β} {l : List α} {bs : List β}
    (h : l.mapM f = .ok bs) {b : β} (hb : b ∈ bs) : ∃ a ∈ l, f a = .ok b := by
  induction l generalizing bs with
  | nil =>
    cases h
    cases hb
  | cons a rest ih =>
    rw [List.mapM_cons] at h
    obtain ⟨c, hc, h⟩ := bind_eq_ok.1 h
    obtain ⟨cs, hcs, h⟩ := bind_eq_ok.1 h
    cases h
    rcases List.mem_cons.1 hb with rfl | hb
    · exact ⟨a, List.mem_cons_self, hc⟩
    · obtain ⟨a', ha', hfa'⟩ := ih hcs hb
      exact ⟨a', List.mem_cons_of_mem a ha', hfa'⟩

/-! ## Classes without arguments -/

/-- Binds type parameters to their own placeholders. -/
def bindToPlaceholders (r : Resolver) (generics bindings : TypeArguments) :
    List Symbol → Except Failure TypeArguments
  | [] => .ok bindings
  | parameter :: rest => do
    let d ← known parameter (r.graph.typeParameter? parameter)
    let element := r.placeholderElement parameter d generics
    bindToPlaceholders r generics (bindings.insert d.name element) rest

/-- The element of a declared class with its own type parameters left open. -/
def elementOf (r : Resolver) (s : Symbol) : Except Failure ClassElement := do
  let d ← known s (r.graph.classDeclaration? s)
  let bindings ← bindToPlaceholders r ∅ ∅ d.typeParameters
  return r.declaredElement s d bindings

/-- The element of the first class with a qualified name. -/
def elementNamed? (r : Resolver) (qualifiedName : String) :
    Except Failure (Option ClassElement) :=
  match r.graph.findClass? qualifiedName with
  | some s => some <$> elementOf r s
  | none => .ok none

/-- The element of the top type. -/
def topType (r : Resolver) : ClassElement :=
  match r.graph.findClass? r.settings.topType with
  | none => bareElement r.settings.topType
  | some s =>
    match elementOf r s with
    | .ok element => element
    | .error _ => bareElement r.settings.topType

/-- The placeholder of a type parameter under a substitution. -/
def placeholderOf (r : Resolver) (s : Symbol) (generics : TypeArguments) :
    Except Failure ClassElement := do
  let d ← known s (r.graph.typeParameter? s)
  return r.placeholderElement s d generics

/-- What a type parameter stands for under a substitution. -/
def bound (r : Resolver) (s : Symbol) (d : TypeParameterDeclaration) (generics : TypeArguments) :
    ClassElement :=
  match r.binding? s d.name generics with
  | some element => element
  | none => r.placeholderElement s d generics

/-! ## Type uses -/

mutual

/-- The class element that a type use stands for under a substitution. -/
def resolve (r : Resolver) (generics : TypeArguments) : TypeUse → Except Failure ClassElement
  | .declared s arguments => do
    let d ← known s (r.graph.classDeclaration? s)
    let bindings ← bindArguments r generics ∅ d.typeParameters arguments
    return r.declaredElement s d bindings
  | .typeVariable s => do
    let d ← known s (r.graph.typeParameter? s)
    return bound r s d generics
  | .array element dimensions => do
    let element ← resolve r generics element
    return element.withDimensions (element.dimensions + dimensions)
  | .unresolved => .ok (topType r)

/-- Binds type parameters to the arguments in the same positions. -/
def bindArguments (r : Resolver) (generics bindings : TypeArguments) (parameters : List Symbol) :
    List TypeUse → Except Failure TypeArguments
  | [] => bindToPlaceholders r generics bindings parameters
  | argument :: rest =>
    match parameters with
    | [] => .ok bindings
    | parameter :: parameters => do
      let d ← known parameter (r.graph.typeParameter? parameter)
      let element ← resolve r generics argument
      bindArguments r generics (bindings.insert d.name element) parameters rest

end

/-! ## Declaring classes and bounds -/

/-- Binds type parameters to what they stand for under a substitution. -/
def bindToBounds (r : Resolver) (generics bindings : TypeArguments) :
    List Symbol → Except Failure TypeArguments
  | [] => .ok bindings
  | parameter :: rest => do
    let d ← known parameter (r.graph.typeParameter? parameter)
    bindToBounds r generics (bindings.insert d.name (bound r parameter d generics)) rest

/-- The nearest class around a symbol, with its type parameters bound by a substitution as far as it
binds them. -/
def declaringClass? (r : Resolver) (s : Symbol) (generics : TypeArguments) :
    Except Failure (Option ClassElement) :=
  match r.graph.encounter s with
  | .outside => .ok none
  | .repetition repeated => .error (.cyclicContext repeated s)
  | .nearestClass outer => do
    let d ← known outer (r.graph.classDeclaration? outer)
    let bindings ← bindToBounds r generics ∅ d.typeParameters
    return some (r.declaredElement outer d bindings)

/-- The bounds of a type variable under the substitution that its placeholder captured. -/
def boundsOf (r : Resolver) (typeVariable : TypeVariable) (captured : TypeArguments) :
    Except Failure (List ClassElement) :=
  typeVariable.bounds.mapM (resolve r captured)

/-! ## Members -/

/-- A value parameter under a substitution; it has to have a name. -/
def parameterElement (r : Resolver) (generics : TypeArguments) (s : Symbol) :
    Except Failure ParameterElement := do
  let d ← known s (r.graph.valueParameter? s)
  match d.name.filter (!·.isEmpty) with
  | none => .error (.missingIdentifier s)
  | some name =>
    let type ← resolve r ∅ d.type
    let genericType ← resolve r generics d.type
    return { symbol := s, name, type, genericType, annotations := r.graph.annotations s }

/-- A declared function as a method of a class. -/
def buildMethod (r : Resolver) (declaringType : ClassElement) (s : Symbol)
    (d : FunctionDeclaration) : Except Failure MethodElement := do
  let returnType ← resolve r ∅ d.returnType
  let genericReturnType ← resolve r declaringType.arguments d.returnType
  let parameters ← d.parameters.mapM (parameterElement r declaringType.arguments)
  return {
    symbol := s
    name := d.name
    declaringType, returnType, genericReturnType, parameters
    modifiers := d.modifiers
    annotations := r.graph.annotations s
  }

/-- A declared function as a constructor of a class. -/
def buildConstructor (r : Resolver) (declaringType : ClassElement) (s : Symbol)
    (d : FunctionDeclaration) : Except Failure ConstructorElement := do
  let parameters ← d.parameters.mapM (parameterElement r declaringType.arguments)
  return {
    symbol := s
    declaringType, parameters
    modifiers := d.modifiers
    annotations := r.graph.annotations s
  }

/-- The function that a symbol names, as a method of a class. -/
def methodElement (r : Resolver) (declaringType : ClassElement) (s : Symbol) :
    Except Failure MethodElement := do
  buildMethod r declaringType s (← known s (r.graph.functionDeclaration? s))

/-- The function that a symbol names, as a constructor of a class. -/
def constructorElement (r : Resolver) (declaringType : ClassElement) (s : Symbol) :
    Except Failure ConstructorElement := do
  buildConstructor r declaringType s (← known s (r.graph.functionDeclaration? s))

/-- Those of some members that `build` wants, built in order; all of them have to be functions. -/
def membersWhere {α : Type} (r : Resolver) (wanted : FunctionDeclaration → Bool)
    (build : Symbol → FunctionDeclaration → Except Failure α) :
    List Symbol → Except Failure (List α)
  | [] => .ok []
  | s :: rest => do
    let d ← known s (r.graph.functionDeclaration? s)
    if wanted d then
      let member ← build s d
      return member :: (← membersWhere r wanted build rest)
    else
      membersWhere r wanted build rest

/-- The constructors of a class, in order of declaration. -/
def constructors (r : Resolver) (e : ClassElement) : Except Failure (List ConstructorElement) := do
  let d ← known e.symbol (r.graph.classDeclaration? e.symbol)
  membersWhere r (·.isConstructor) (buildConstructor r e) d.members

/-- The methods of a class, in order of declaration. -/
def methods (r : Resolver) (e : ClassElement) : Except Failure (List MethodElement) := do
  let d ← known e.symbol (r.graph.classDeclaration? e.symbol)
  membersWhere r (!·.isConstructor) (buildMethod r e) d.members

end BeanProcessing.Resolver.Direct

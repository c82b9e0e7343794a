import BeanProcessing.Event
import BeanProcessing.Failure
import BeanProcessing.Resolver.Key
import BeanProcessing.Settings
import BeanProcessing.SymbolGraph.Outward

/-!
# Resolvers

A resolver turns symbols and type uses into class elements. It holds a graph, the settings and the
languages of the units of the round; what it learns on the way goes into a `Memory`, which keeps
every answer under its key and a log of events. The memory outlives a failure.

This file has what needs no recursion: looking declarations up, making an element out of a
declaration and its bindings, and making a placeholder out of a type parameter.
-/

namespace BeanProcessing

/-- What a resolver holds for the time of a round. -/
structure Resolver where
  graph : SymbolGraph
  settings : Settings
  /-- The language of each symbol that a unit of the round declares. -/
  languages : Table Symbol Language := ∅

/-- What resolving leaves behind: the answers that were given, and the events on the way. -/
structure Memory where
  answers : Table CacheKey ClassElement := ∅
  log : Log := []

/-- A computation that resolves something, and may fail. -/
abbrev ResolveM := ExceptT Failure (StateM Memory)

namespace Memory

/-- Adds an event to the log. -/
def tell (event : Event) : StateM Memory Unit :=
  modify fun m => { m with log := event :: m.log }

/-- Keeps an answer. -/
def remember (key : CacheKey) (element : ClassElement) : StateM Memory Unit :=
  modify fun m => { m with answers := m.answers.insert key element }

/-- The answer that was given under a key. -/
def answer? (key : CacheKey) : StateM Memory (Option ClassElement) := do
  return (← get).answers.get? key

end Memory

namespace Resolver

/-! ## Units -/

/-- The language of each symbol in some units; the last unit to list a symbol decides. -/
def languagesOf (units : List CompilationUnit) : Table Symbol Language :=
  .ofList (units.flatMap fun unit => unit.declarations.map fun s => (s, unit.language))

/-- A resolver of a graph, for a round with some units. -/
def ofUnits (graph : SymbolGraph) (settings : Settings) (units : List CompilationUnit) : Resolver :=
  { graph, settings, languages := languagesOf units }

/-- The language that a symbol is written in: that of the first symbol on the way outward from it
that is listed in a unit of the round. -/
def sourceLanguage (r : Resolver) (s : Symbol) : Language :=
  ((s :: r.graph.outward s).findSome? r.languages.get?).getD .unknown

/-! ## Declarations -/

/-- What was found for a symbol, which is unknown if nothing was. -/
def known {α : Type} (s : Symbol) : Option α → ResolveM α
  | some a => pure a
  | none => throw (.unknownSymbol s)

/-- The class that a symbol names. -/
def classDeclaration (r : Resolver) (s : Symbol) : ResolveM ClassDeclaration :=
  known s (r.graph.classDeclaration? s)

/-- The function that a symbol names. -/
def functionDeclaration (r : Resolver) (s : Symbol) : ResolveM FunctionDeclaration :=
  known s (r.graph.functionDeclaration? s)

/-- The value parameter that a symbol names. -/
def valueParameter (r : Resolver) (s : Symbol) : ResolveM ValueParameterDeclaration :=
  known s (r.graph.valueParameter? s)

/-- The type parameter that a symbol names. -/
def typeParameter (r : Resolver) (s : Symbol) : ResolveM TypeParameterDeclaration :=
  known s (r.graph.typeParameter? s)

/-! ## Declared classes -/

/-- Whether a symbol stands directly in a class. -/
def isInner (r : Resolver) (s : Symbol) : Bool :=
  (r.graph.enclosing? s).any (·.isClass)

/-- Whether a class can be constructed without an instance of the class around it. A class marked
`inner` never can. Nested interfaces, enumerations and annotation types always can; for nested plain
classes the language decides unless they are marked `static`. -/
def isStatic (r : Resolver) (s : Symbol) (d : ClassDeclaration) : Bool :=
  !d.modifiers.contains .inner
    && (d.modifiers.contains .static
      || (r.isInner s && (d.kind != .plain || (r.sourceLanguage s).nestedClassesAreStatic)))

/-- The element of a declared class under bindings for its type parameters. -/
def declaredElement (r : Resolver) (s : Symbol) (d : ClassDeclaration) (bindings : TypeArguments) :
    ClassElement :=
  .declared
    { symbol := s
      name := d.qualifiedName
      kind := d.kind
      isInner := r.isInner s
      isStatic := r.isStatic s d
      annotations := r.graph.annotations s }
    bindings

/-- The element of a declared class under bindings, made at most once for each key. -/
def classElement (r : Resolver) (s : Symbol) (d : ClassDeclaration) (bindings : TypeArguments) :
    StateM Memory ClassElement := do
  let key := CacheKey.of s bindings
  match ← Memory.answer? key with
  | some element => return element
  | none =>
    let element := r.declaredElement s d bindings
    Memory.tell ⟨.trace, "resolved " ++ element.signature⟩
    Memory.remember key element
    return element

/-! ## Type variables -/

/-- How many steps are taken from a bound to the next before the name is given up. -/
def maxBoundSteps : Nat := 64

/-- The name that a bound leads to: that of its class, or the top type if it leads to a type
variable without bounds. A variable leads on to its first bound and an array to its elements, each
of which takes one of the places that are left. -/
def boundName? (r : Resolver) : (places : Nat) → TypeUse → Option String
  | 0, _ => none
  | places + 1, use =>
    match use with
    | .declared s _ => ((r.graph.classDeclaration? s).map (·.qualifiedName)).filter (!·.isEmpty)
    | .typeVariable s =>
      match r.graph.typeParameter? s with
      | none => none
      | some d =>
        match d.bounds with
        | [] => some r.settings.topType
        | next :: _ => r.boundName? places next
    | .array element _ => r.boundName? places element
    | .unresolved => none

/-- The name that the bounds of a type parameter lead to. -/
def nameOfBounds? (r : Resolver) (bounds : List TypeUse) : Option String :=
  match bounds with
  | [] => some r.settings.topType
  | first :: _ => r.boundName? (maxBoundSteps + 1) first

/-- The placeholder of a type parameter that was met under a substitution. -/
def placeholderElement (r : Resolver) (s : Symbol) (d : TypeParameterDeclaration)
    (generics : TypeArguments) : ClassElement :=
  .placeholder
    { symbol := s
      name := (r.nameOfBounds? d.bounds).getD r.settings.topType
      annotations := r.graph.annotations s }
    ∅ ⟨d.name, d.bounds⟩ generics

/-- The placeholder of a type parameter under a substitution, made at most once for each key. -/
def placeholder (r : Resolver) (s : Symbol) (d : TypeParameterDeclaration)
    (generics : TypeArguments) : StateM Memory ClassElement := do
  let key := CacheKey.of s generics
  match (← Memory.answer? key).filter (·.isPlaceholder) with
  | some element => return element
  | none =>
    if (r.nameOfBounds? d.bounds).isNone then
      Memory.tell
        ⟨.debug, "unresolved bound on " ++ toString s ++ ", falling back to " ++ r.settings.topType⟩
    let element := r.placeholderElement s d generics
    Memory.remember key element
    return element

/-- What a substitution binds a type parameter to. Substitutions come from the arguments of classes,
so they never bind the type parameter of a function, even if it has the name of a bound one. -/
def binding? (r : Resolver) (s : Symbol) (name : String) (generics : TypeArguments) :
    Option ClassElement :=
  if (r.graph.enclosing? s).all (·.isClass) then generics.get? name else none

/-- What a type parameter stands for under a substitution: its binding, or else its placeholder. -/
def bound (r : Resolver) (s : Symbol) (d : TypeParameterDeclaration) (generics : TypeArguments) :
    StateM Memory ClassElement :=
  match r.binding? s d.name generics with
  | some element => pure element
  | none => r.placeholder s d generics

end Resolver

end BeanProcessing

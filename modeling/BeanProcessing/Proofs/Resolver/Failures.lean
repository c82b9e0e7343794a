import BeanProcessing.Proofs.Resolver.PlaceholderNames

/-!
# Failures that are in the graph

Whether a type use can be resolved is up to the graph. Each class in it has to be declared with all
its type parameters, and so has each type variable; the first that is not is the symbol that
resolving it fails over. The substitution has no part in this, nor have the settings or the answers
that are kept. So a member whose types could be resolved as they were declared can be resolved under
the arguments of any class.

`FailsWith` says how a computation ends in every memory, and goes through binds, so that each
operation takes a few steps.
-/

namespace BeanProcessing

/-! ## What a type use needs -/

namespace TypeUse

mutual

/-- The first symbol that is looked up to resolve a type use and is not declared. Arguments beyond
the last type parameter of a class are not looked at. -/
def firstUndeclared? (g : SymbolGraph) : TypeUse → Option Symbol
  | declared s arguments =>
    match g.classDeclaration? s with
    | none => some s
    | some d => firstUndeclaredIn? g d.typeParameters arguments
  | typeVariable s => if (g.typeParameter? s).isSome then none else some s
  | array element _ => element.firstUndeclared? g
  | unresolved => none

/-- The first such symbol among the type parameters of a class and the arguments for them. -/
def firstUndeclaredIn? (g : SymbolGraph) (parameters : List Symbol) :
    List TypeUse → Option Symbol
  | [] => parameters.find? fun p => (g.typeParameter? p).isNone
  | argument :: rest =>
    match parameters with
    | [] => none
    | p :: parameters =>
      if (g.typeParameter? p).isSome then
        (argument.firstUndeclared? g).or (firstUndeclaredIn? g parameters rest)
      else some p

end

/-- Whether each class in a type use is declared with all its type parameters, and so is each type
variable. Arguments beyond the last type parameter of a class do not matter. -/
inductive AllDeclared (g : SymbolGraph) : TypeUse → Prop
  | declared {s : Symbol} {d : ClassDeclaration} {arguments : List TypeUse}
    (hs : g.classDeclaration? s = some d) (hparameters : Resolver.DeclaresAll g d.typeParameters)
    (harguments : ∀ a ∈ arguments.take d.typeParameters.length, AllDeclared g a) :
    AllDeclared g (.declared s arguments)
  | typeVariable {s : Symbol} (hs : (g.typeParameter? s).isSome) : AllDeclared g (.typeVariable s)
  | array {element : TypeUse} {dimensions : Nat} (h : AllDeclared g element) :
    AllDeclared g (.array element dimensions)
  | unresolved : AllDeclared g .unresolved

variable {g : SymbolGraph}

theorem allDeclared_declared {s : Symbol} {arguments : List TypeUse} :
    AllDeclared g (.declared s arguments) ↔ ∃ d, g.classDeclaration? s = some d ∧
      Resolver.DeclaresAll g d.typeParameters ∧
      ∀ a ∈ arguments.take d.typeParameters.length, a.AllDeclared g :=
  ⟨fun | .declared hs hparameters harguments => ⟨_, hs, hparameters, harguments⟩,
    fun ⟨_, hs, hparameters, harguments⟩ => .declared hs hparameters harguments⟩

theorem allDeclared_array {element : TypeUse} {dimensions : Nat} :
    AllDeclared g (.array element dimensions) ↔ element.AllDeclared g :=
  ⟨fun | .array h => h, .array⟩

theorem find?_isNone_eq_none_iff {parameters : List Symbol} :
    parameters.find? (fun p => (g.typeParameter? p).isNone) = none ↔
      Resolver.DeclaresAll g parameters := by
  simp [List.find?_eq_none, Resolver.DeclaresAll, Option.isSome_iff_ne_none]

mutual

/-- No symbol is missing exactly if all are declared. -/
theorem firstUndeclared?_eq_none_iff : ∀ use : TypeUse,
    use.firstUndeclared? g = none ↔ use.AllDeclared g
  | .declared s arguments => by
    rw [firstUndeclared?, allDeclared_declared]
    cases hs : g.classDeclaration? s with
    | none => simp
    | some d => simpa using firstUndeclaredIn?_eq_none_iff arguments d.typeParameters
  | .typeVariable s => by
    rw [firstUndeclared?]
    refine ⟨fun h => .typeVariable ?_, fun | .typeVariable hs => if_pos hs⟩
    by_contra hs
    rw [if_neg hs] at h
    cases h
  | .array element dimensions => by
    rw [firstUndeclared?, allDeclared_array]
    exact firstUndeclared?_eq_none_iff element
  | .unresolved => iff_of_true rfl .unresolved

theorem firstUndeclaredIn?_eq_none_iff : ∀ (arguments : List TypeUse) (parameters : List Symbol),
    firstUndeclaredIn? g parameters arguments = none ↔ Resolver.DeclaresAll g parameters ∧
      ∀ a ∈ arguments.take parameters.length, a.AllDeclared g
  | [], parameters => by
    rw [firstUndeclaredIn?, find?_isNone_eq_none_iff]
    simp
  | argument :: rest, [] => by simp [firstUndeclaredIn?, Resolver.DeclaresAll]
  | argument :: rest, p :: parameters => by
    have hargument := firstUndeclared?_eq_none_iff argument
    have hrest := firstUndeclaredIn?_eq_none_iff rest parameters
    rw [firstUndeclaredIn?]
    by_cases hp : (g.typeParameter? p).isSome
    · simp [hp, Resolver.DeclaresAll, hargument, hrest, and_left_comm]
    · simp [hp, Resolver.DeclaresAll]

end

end TypeUse

theorem findSome?_cons_or {α β : Type} (f : α → Option β) (a : α) (l : List α) :
    (a :: l).findSome? f = (f a).or (l.findSome? f) := by
  rw [List.findSome?_cons]
  cases f a <;> rfl

namespace Resolver

variable {r : Resolver} {β γ : Type} {m m' : Memory}

/-! ## One end in every memory -/

/-- Whether a computation fails with a given failure, whatever is remembered, or comes to something
whatever is remembered if no failure is given. -/
def FailsWith (expected : Option Failure) (action : ResolveM β) : Prop :=
  ∀ m, match (action.run.run m).1 with
    | .ok _ => expected = none
    | .error failure => expected = some failure

namespace FailsWith

variable {expected expected' : Option Failure}

theorem exists_ok_iff {action : ResolveM β} (h : FailsWith expected action) (m : Memory) :
    (∃ b, (action.run.run m).1 = .ok b) ↔ expected = none := by
  have hm := h m
  cases hresult : (action.run.run m).1 with
  | ok b =>
    rw [hresult] at hm
    exact iff_of_true ⟨b, rfl⟩ hm
  | error failure =>
    rw [hresult] at hm
    subst hm
    exact iff_of_false nofun nofun

theorem eq_error_iff {action : ResolveM β} (h : FailsWith expected action) {failure : Failure} :
    (action.run.run m).1 = .error failure ↔ expected = some failure := by
  have hm := h m
  cases hresult : (action.run.run m).1 with
  | ok b =>
    rw [hresult] at hm
    subst hm
    exact iff_of_false nofun nofun
  | error failure' =>
    rw [hresult] at hm
    subst hm
    rw [Except.error.injEq, Option.some.injEq]

theorem exists_run_eq_ok {action : ResolveM β} (h : FailsWith none action) (m : Memory) :
    ∃ b m', action.run.run m = (.ok b, m') := by
  obtain ⟨b, hb⟩ := (h.exists_ok_iff m).2 rfl
  exact ⟨b, (action.run.run m).2, Prod.ext hb rfl⟩

theorem eq_none_of_run_eq_ok {action : ResolveM β} (h : FailsWith expected action) {b : β}
    (hrun : action.run.run m = (.ok b, m')) : expected = none :=
  (h.exists_ok_iff m).1 ⟨b, by rw [hrun]⟩

theorem congr {action : ResolveM β} (h : FailsWith expected action)
    (heq : expected = expected') : FailsWith expected' action :=
  heq ▸ h

theorem pure (b : β) : FailsWith none (pure b : ResolveM β) := fun _ => rfl

theorem error (failure : Failure) : FailsWith (some failure) (throw failure : ResolveM β) :=
  fun _ => rfl

theorem state (action : StateM Memory β) : FailsWith none (liftM action : ResolveM β) :=
  fun _ => rfl

theorem bind {action : ResolveM β} {next : β → ResolveM γ} (h : FailsWith expected action)
    (hnext : ∀ b, FailsWith expected' (next b)) :
    FailsWith (expected.or expected') (action >>= next) := by
  intro m
  have hm := h m
  rw [ExceptT.run_bind, StateT.run_bind]
  cases hrun : action.run.run m with
  | mk result m' =>
    rw [hrun] at hm
    cases result with
    | error failure =>
      subst hm
      exact rfl
    | ok b =>
      subst hm
      exact hnext b m'

/-- What follows does not fail. -/
theorem andThen {action : ResolveM β} {next : β → ResolveM γ} (h : FailsWith expected action)
    (hnext : ∀ b, FailsWith none (next b)) : FailsWith expected (action >>= next) := by
  have hbind := h.bind hnext
  rwa [Option.or_none] at hbind

theorem lift {action : StateM Memory β} {next : β → ResolveM γ}
    (hnext : ∀ b, FailsWith expected (next b)) :
    FailsWith expected ((liftM action : ResolveM β) >>= next) :=
  (FailsWith.state action).bind hnext

/-- The first failure of a list of computations ends them all. -/
theorem mapM {expected : β → Option Failure} {f : β → ResolveM γ} {l : List β}
    (h : ∀ b ∈ l, FailsWith (expected b) (f b)) :
    FailsWith (l.findSome? expected) (l.mapM f) := by
  induction l with
  | nil => exact FailsWith.pure _
  | cons b rest ih =>
    obtain ⟨hb, hrest⟩ := List.forall_mem_cons.1 h
    rw [List.mapM_cons, findSome?_cons_or]
    exact hb.bind fun c => (ih hrest).andThen fun cs => FailsWith.pure _

/-- A lookup fails if nothing is found, and then nothing follows it. -/
theorem known {expected : β → Option Failure} {s : Symbol} {found : Option β}
    {next : β → ResolveM γ} (hnext : ∀ b, found = some b → FailsWith (expected b) (next b)) :
    FailsWith (found.elim (some (.unknownSymbol s)) expected) (known s found >>= next) := by
  cases found with
  | none => exact FailsWith.error _
  | some b => exact hnext b rfl

end FailsWith

/-! ## Type uses -/

/-- A type parameter that is looked up and bound, and then something that fails over the others. -/
theorem FailsWith.parameter {p : Symbol} {rest : List Symbol}
    {element : TypeParameterDeclaration → StateM Memory ClassElement}
    {next : TypeParameterDeclaration → ClassElement → ResolveM β}
    (hnext : ∀ d e, FailsWith
      ((TypeUse.firstUndeclaredIn? r.graph rest []).map .unknownSymbol) (next d e)) :
    FailsWith ((TypeUse.firstUndeclaredIn? r.graph (p :: rest) []).map .unknownSymbol)
      (r.typeParameter p >>= fun d => (liftM (element d) : ResolveM ClassElement) >>= next d) := by
  refine (FailsWith.known fun d _ => FailsWith.lift (hnext d)).congr ?_
  rw [TypeUse.firstUndeclaredIn?, TypeUse.firstUndeclaredIn?]
  cases hp : r.graph.typeParameter? p <;> simp [hp]

theorem failsWith_bindToPlaceholders (generics : TypeArguments) (parameters : List Symbol)
    (bindings : TypeArguments) :
    FailsWith ((TypeUse.firstUndeclaredIn? r.graph parameters []).map .unknownSymbol)
      (r.bindToPlaceholders generics bindings parameters) := by
  induction parameters generalizing bindings with
  | nil => exact FailsWith.pure _
  | cons p rest ih => exact FailsWith.parameter fun d e => ih _

theorem failsWith_bindToBounds (generics : TypeArguments) (parameters : List Symbol)
    (bindings : TypeArguments) :
    FailsWith ((TypeUse.firstUndeclaredIn? r.graph parameters []).map .unknownSymbol)
      (r.bindToBounds generics bindings parameters) := by
  induction parameters generalizing bindings with
  | nil => exact FailsWith.pure _
  | cons p rest ih => exact FailsWith.parameter fun d e => ih _

/-- A class that is looked up, and then something that fails over the type uses in it. -/
theorem FailsWith.declared {s : Symbol} {arguments : List TypeUse}
    {next : ClassDeclaration → ResolveM β}
    (hnext : ∀ d, r.graph.classDeclaration? s = some d → FailsWith
      ((TypeUse.firstUndeclaredIn? r.graph d.typeParameters arguments).map .unknownSymbol)
      (next d)) :
    FailsWith (((TypeUse.declared s arguments).firstUndeclared? r.graph).map .unknownSymbol)
      (r.classDeclaration s >>= next) := by
  refine (FailsWith.known hnext).congr ?_
  rw [TypeUse.firstUndeclared?]
  cases r.graph.classDeclaration? s <;> rfl

theorem failsWith_elementOf (s : Symbol) :
    FailsWith (((TypeUse.declared s []).firstUndeclared? r.graph).map .unknownSymbol)
      (r.elementOf s) :=
  FailsWith.declared fun d _ => (failsWith_bindToPlaceholders ∅ d.typeParameters ∅).andThen
    fun _ => FailsWith.state _

mutual

/-- Resolving a type use fails over the first symbol in it that is not declared. -/
theorem failsWith_resolve (generics : TypeArguments) : ∀ use : TypeUse,
    FailsWith ((use.firstUndeclared? r.graph).map .unknownSymbol) (r.resolve generics use)
  | .declared s arguments => by
    rw [resolve]
    exact FailsWith.declared fun d _ =>
      (failsWith_bindArguments generics arguments d.typeParameters ∅).andThen
        fun _ => FailsWith.state _
  | .typeVariable s => by
    rw [resolve, TypeUse.firstUndeclared?]
    refine (FailsWith.known fun d _ => FailsWith.state _).congr ?_
    cases hs : r.graph.typeParameter? s <;> simp
  | .array element dimensions => by
    rw [resolve, TypeUse.firstUndeclared?]
    exact (failsWith_resolve generics element).andThen fun e => FailsWith.pure _
  | .unresolved => by
    rw [resolve, TypeUse.firstUndeclared?]
    exact FailsWith.state _

theorem failsWith_bindArguments (generics : TypeArguments) : ∀ (arguments : List TypeUse)
    (parameters : List Symbol) (bindings : TypeArguments),
    FailsWith ((TypeUse.firstUndeclaredIn? r.graph parameters arguments).map .unknownSymbol)
      (r.bindArguments generics bindings parameters arguments)
  | [], parameters, bindings => by
    rw [bindArguments]
    exact failsWith_bindToPlaceholders generics parameters bindings
  | argument :: rest, [], _ => by
    rw [bindArguments, TypeUse.firstUndeclaredIn?]
    exact FailsWith.pure _
  | argument :: rest, p :: parameters, _ => by
    rw [bindArguments, TypeUse.firstUndeclaredIn?]
    refine (FailsWith.known fun d _ => (failsWith_resolve generics argument).bind fun e =>
      failsWith_bindArguments generics rest parameters _).congr ?_
    cases hp : r.graph.typeParameter? p <;> simp [Option.map_or]

end

/-! ## Members -/

end Resolver

namespace SymbolGraph

/-- What a value parameter fails with. It has to be declared and to have a name, and its type has to
be resolved. -/
def parameterFailure? (g : SymbolGraph) (p : Symbol) : Option Failure :=
  (g.valueParameter? p).elim (some (.unknownSymbol p)) fun d =>
    match d.name.filter (!·.isEmpty) with
    | none => some (.missingIdentifier p)
    | some _ => (d.type.firstUndeclared? g).map .unknownSymbol

/-- What a function fails with as a constructor: what its first parameter to fail fails with. -/
def constructorFailure? (g : SymbolGraph) (d : FunctionDeclaration) : Option Failure :=
  d.parameters.findSome? g.parameterFailure?

/-- What a function fails with as a method, whose return type comes before its parameters. -/
def methodFailure? (g : SymbolGraph) (d : FunctionDeclaration) : Option Failure :=
  ((d.returnType.firstUndeclared? g).map .unknownSymbol).or (g.constructorFailure? d)

/-- What some members fail with when those are built that are wanted. All of them have to be
functions. -/
def membersFailure? (g : SymbolGraph) (wanted : FunctionDeclaration → Bool)
    (failure? : FunctionDeclaration → Option Failure) (members : List Symbol) : Option Failure :=
  members.findSome? fun s => (g.functionDeclaration? s).elim (some (.unknownSymbol s)) fun d =>
    if wanted d then failure? d else none

theorem membersFailure?_cons {g : SymbolGraph} {wanted : FunctionDeclaration → Bool}
    {failure? : FunctionDeclaration → Option Failure} {s : Symbol} {rest : List Symbol} :
    g.membersFailure? wanted failure? (s :: rest)
      = (g.functionDeclaration? s).elim (some (.unknownSymbol s)) fun d =>
        (if wanted d then failure? d else none).or
          (g.membersFailure? wanted failure? rest) := by
  rw [membersFailure?, findSome?_cons_or]
  cases g.functionDeclaration? s <;> rfl

end SymbolGraph

namespace Resolver

variable {r : Resolver} {β : Type} {m m' : Memory}

/-- The types of a parameter as declared and under a substitution fail over the same symbol. -/
theorem failsWith_parameterElement (generics : TypeArguments) (p : Symbol) :
    FailsWith (r.graph.parameterFailure? p) (r.parameterElement generics p) := by
  refine FailsWith.known fun d _ => ?_
  cases d.name.filter (!·.isEmpty) with
  | none => exact FailsWith.error _
  | some name =>
    refine ((failsWith_resolve ∅ d.type).bind fun type =>
      (failsWith_resolve generics d.type).andThen fun genericType => FailsWith.pure _).congr ?_
    exact Option.or_self

theorem failsWith_parameters (generics : TypeArguments) (d : FunctionDeclaration) :
    FailsWith (r.graph.constructorFailure? d) (d.parameters.mapM (r.parameterElement generics)) :=
  FailsWith.mapM fun p _ => failsWith_parameterElement generics p

theorem failsWith_buildConstructor (e : ClassElement) (s : Symbol) (d : FunctionDeclaration) :
    FailsWith (r.graph.constructorFailure? d) (r.buildConstructor e s d) :=
  (failsWith_parameters e.arguments d).andThen fun _ => FailsWith.pure _

theorem failsWith_buildMethod (e : ClassElement) (s : Symbol) (d : FunctionDeclaration) :
    FailsWith (r.graph.methodFailure? d) (r.buildMethod e s d) := by
  unfold buildMethod
  refine ((failsWith_resolve ∅ d.returnType).bind fun returnType =>
    (failsWith_resolve e.arguments d.returnType).bind fun genericReturnType =>
      (failsWith_parameters e.arguments d).andThen fun parameters => FailsWith.pure _).congr ?_
  rw [← Option.or_assoc, Option.or_self]
  rfl

theorem failsWith_membersWhere {wanted : FunctionDeclaration → Bool}
    {failure? : FunctionDeclaration → Option Failure}
    {build : Symbol → FunctionDeclaration → ResolveM β}
    (hbuild : ∀ s d, FailsWith (failure? d) (build s d)) (members : List Symbol) :
    FailsWith (r.graph.membersFailure? wanted failure? members)
      (r.membersWhere wanted build members) := by
  induction members with
  | nil => exact FailsWith.pure _
  | cons s rest ih =>
    have hmember : ∀ d, FailsWith
        ((if wanted d then failure? d else none).or
          (r.graph.membersFailure? wanted failure? rest))
        (if wanted d then do
          let member ← build s d
          return member :: (← r.membersWhere wanted build rest)
        else r.membersWhere wanted build rest) := by
      intro d
      by_cases hwanted : wanted d = true
      · rw [if_pos hwanted, if_pos hwanted]
        exact (hbuild s d).bind fun member => ih.andThen fun members => FailsWith.pure _
      · rw [if_neg hwanted, if_neg hwanted]
        exact ih
    rw [SymbolGraph.membersFailure?_cons]
    exact FailsWith.known fun d _ => hmember d

/-- The constructors of a class fail with what the first constructor to fail fails with, or over a
member before it that is no function. -/
theorem failsWith_constructors (e : ClassElement) :
    FailsWith ((r.graph.classDeclaration? e.symbol).elim (some (.unknownSymbol e.symbol)) fun d =>
      r.graph.membersFailure? (·.isConstructor) r.graph.constructorFailure? d.members)
      (r.constructors e) :=
  FailsWith.known fun d _ => failsWith_membersWhere (failsWith_buildConstructor e) d.members

theorem failsWith_methods (e : ClassElement) :
    FailsWith ((r.graph.classDeclaration? e.symbol).elim (some (.unknownSymbol e.symbol)) fun d =>
      r.graph.membersFailure? (!·.isConstructor) r.graph.methodFailure? d.members)
      (r.methods e) :=
  FailsWith.known fun d _ => failsWith_membersWhere (failsWith_buildMethod e) d.members

/-! ## Elements that are classes -/

/-- The top type is a class and no array, even if its class cannot be made. -/
theorem plain_run_topType (hm : Keyed r m) :
    (r.topType.run m).1.isArray = false ∧ (r.topType.run m).1.isPlaceholder = false := by
  unfold topType
  cases hfind : r.graph.findClass? r.settings.topType with
  | none => exact ⟨rfl, rfl⟩
  | some s =>
    obtain ⟨d, hs, -⟩ := SymbolGraph.qualifiedName_of_findClass? hfind
    have hbind : ∀ next : Except Failure ClassElement → StateM Memory ClassElement,
        ((r.elementOf s).run >>= next).run m
          = (next ((r.elementOf s).run.run m).1).run ((r.elementOf s).run.run m).2 := fun _ => rfl
    dsimp only
    rw [hbind]
    cases hrun : (r.elementOf s).run.run m with
    | mk result m' =>
      cases result with
      | error failure => exact ⟨rfl, rfl⟩
      | ok e =>
        have hmade := eq_declaredElement_of_run_elementOf hm hs hrun
        show e.isArray = false ∧ e.isPlaceholder = false
        rw [hmade]
        exact ⟨rfl, rfl⟩

/-! ## The same failures under all substitutions -/

/-- A type use that could be resolved can be resolved again under any substitution. -/
theorem exists_run_resolve {generics : TypeArguments} {use : TypeUse} {e : ClassElement}
    (h : (r.resolve generics use).run.run m = (.ok e, m')) (generics' : TypeArguments)
    (later : Memory) : ∃ e' m'', (r.resolve generics' use).run.run later = (.ok e', m'') := by
  have hnone := (failsWith_resolve generics use).eq_none_of_run_eq_ok h
  have hresolve := failsWith_resolve (r := r) generics' use
  rw [hnone] at hresolve
  exact hresolve.exists_run_eq_ok later

/-- A parameter whose type could be resolved as it was declared has both its types. -/
theorem run_parameterElement {p : Symbol} {d : ValueParameterDeclaration} {name : String}
    (hp : r.graph.valueParameter? p = some d) (hname : d.name.filter (!·.isEmpty) = some name)
    {type : ClassElement} (h : (r.resolve ∅ d.type).run.run m = (.ok type, m'))
    (generics : TypeArguments) :
    ∃ genericType m'', (r.resolve generics d.type).run.run m' = (.ok genericType, m'') ∧
      (r.parameterElement generics p).run.run m
        = (.ok ⟨p, name, type, genericType, r.graph.annotations p⟩, m'') := by
  obtain ⟨genericType, m'', hgeneric⟩ := exists_run_resolve h generics m'
  refine ⟨genericType, m'', hgeneric, ?_⟩
  rw [parameterElement, valueParameter, hp, known, pure_bind, hname]
  dsimp only
  rw [run_bind_of_eq_ok h, run_bind_of_eq_ok hgeneric]
  rfl

/-- A method whose return type could be resolved as it was declared has both its return types, and
is built unless one of its parameters cannot be. -/
theorem run_buildMethod {d : FunctionDeclaration} {returnType : ClassElement}
    (h : (r.resolve ∅ d.returnType).run.run m = (.ok returnType, m')) (c : ClassElement)
    (s : Symbol) :
    (∃ genericReturnType m'',
      (r.resolve c.arguments d.returnType).run.run m' = (.ok genericReturnType, m'')) ∧
    ∀ failure, ((r.buildMethod c s d).run.run m).1 = .error failure →
      ∃ p ∈ d.parameters, ((r.parameterElement ∅ p).run.run m).1 = .error failure := by
  refine ⟨exists_run_resolve h c.arguments m', fun failure hfailure => ?_⟩
  have hfails := (failsWith_buildMethod c s d).eq_error_iff.1 hfailure
  -- the return type is not what it failed over
  have hnone := (failsWith_resolve ∅ d.returnType).eq_none_of_run_eq_ok h
  rw [SymbolGraph.methodFailure?, hnone, Option.none_or] at hfails
  obtain ⟨p, hp, hpfails⟩ := List.exists_of_findSome?_eq_some hfails
  exact ⟨p, hp, (failsWith_parameterElement ∅ p).eq_error_iff.2 hpfails⟩

/-- After any calls, a type use is resolved under all substitutions or under none. It is resolved if
each class in it is declared with all its type parameters and so is each type variable, and fails
over a symbol that is not declared otherwise. So the generic types of members do not fail where the
types did that are declared. The top type is always there: it is a class of that name and no array.
-/
theorem resolve_fails_alike (r : Resolver) (log : Log) (calls : List Call) (use : TypeUse)
    (generics generics' : TypeArguments) :
    ((∃ e e',
        ((r.resolve generics use).run.run (r.memoryAfter calls { log })).1 = .ok e ∧
        ((r.resolve generics' use).run.run (r.memoryAfter calls { log })).1 = .ok e') ∨
      ∃ s,
        ((r.resolve generics use).run.run (r.memoryAfter calls { log })).1
          = .error (.unknownSymbol s) ∧
        ((r.resolve generics' use).run.run (r.memoryAfter calls { log })).1
          = .error (.unknownSymbol s)) ∧
    ((∃ e, ((r.resolve generics use).run.run (r.memoryAfter calls { log })).1 = .ok e) ↔
      use.AllDeclared r.graph) ∧
    (∀ p d name type m', r.graph.valueParameter? p = some d →
      d.name.filter (!·.isEmpty) = some name →
      (r.resolve ∅ d.type).run.run (r.memoryAfter calls { log }) = (.ok type, m') →
      ∃ genericType m'', (r.resolve generics d.type).run.run m' = (.ok genericType, m'') ∧
        (r.parameterElement generics p).run.run (r.memoryAfter calls { log })
          = (.ok ⟨p, name, type, genericType, r.graph.annotations p⟩, m'')) ∧
    (∀ c s d returnType m',
      (r.resolve ∅ d.returnType).run.run (r.memoryAfter calls { log }) = (.ok returnType, m') →
      (∃ genericReturnType m'',
        (r.resolve c.arguments d.returnType).run.run m' = (.ok genericReturnType, m'')) ∧
      ∀ failure,
        ((r.buildMethod c s d).run.run (r.memoryAfter calls { log })).1 = .error failure →
        ∃ p ∈ d.parameters,
          ((r.parameterElement ∅ p).run.run (r.memoryAfter calls { log })).1 = .error failure) ∧
    ∃ e m', (r.resolve generics .unresolved).run.run (r.memoryAfter calls { log }) = (.ok e, m') ∧
      r.topType.run (r.memoryAfter calls { log }) = (e, m') ∧ e.name = r.settings.topType ∧
      e.isArray = false ∧ e.isPlaceholder = false := by
  have hm := keyed_memoryAfter r calls log
  generalize r.memoryAfter calls { log } = m at hm ⊢
  have hfails := failsWith_resolve (r := r) generics use
  have hfails' := failsWith_resolve (r := r) generics' use
  refine ⟨?_, ?_, fun p d name type m' hp hname htype =>
      run_parameterElement hp hname htype generics,
    fun c s d returnType m' hreturn => run_buildMethod hreturn c s, ?_⟩
  · cases hfirst : use.firstUndeclared? r.graph with
    | none =>
      rw [hfirst] at hfails hfails'
      obtain ⟨e, he⟩ := (hfails.exists_ok_iff m).2 rfl
      obtain ⟨e', he'⟩ := (hfails'.exists_ok_iff m).2 rfl
      exact Or.inl ⟨e, e', he, he'⟩
    | some s =>
      rw [hfirst] at hfails hfails'
      exact Or.inr ⟨s, hfails.eq_error_iff.2 rfl, hfails'.eq_error_iff.2 rfl⟩
  · rw [hfails.exists_ok_iff m, Option.map_eq_none_iff, TypeUse.firstUndeclared?_eq_none_iff]
  · refine ⟨(r.topType.run m).1, (r.topType.run m).2, ?_, rfl, name_of_run_topType hm,
      plain_run_topType hm⟩
    rw [resolve]
    rfl

end Resolver

end BeanProcessing

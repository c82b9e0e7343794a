import BeanProcessing.Proofs.Resolver.Canonical
import BeanProcessing.Proofs.SymbolGraph.RoundTrip
import BeanProcessing.Resolver.Member

/-!
# Resolving over closed graphs

A graph that was loaded is closed: it declares every symbol that it lists. That is not enough for
its classes to be resolved. A symbol may be listed in a place for another kind of symbol, and the
type uses of a graph, which loading does not look at, may mention symbols that are not declared.
Together with parameters that have no name these are all the causes there are. Resolving a class or
its members fails if one of them is there, and only then, whatever the settings are and whatever the
resolver has come across before.
-/

namespace BeanProcessing

/-! ## Closed graphs -/

namespace SymbolGraph

variable {g : SymbolGraph}

/-- Whether a graph declares every symbol that it lists. -/
def Closed (g : SymbolGraph) : Prop := ∀ s ∈ g.references, g.contains s = true

theorem closed_of_load {text : String} (h : load text = .ok g) : g.Closed := by
  unfold load at h
  cases hread : read text with
  | error fault =>
    rw [hread] at h
    cases h
  | ok g' =>
    rw [hread] at h
    dsimp only at h
    cases hfirst : g'.firstUndeclared? with
    | some s =>
      rw [hfirst] at h
      cases h
    | none =>
      rw [hfirst] at h
      cases h
      intro s hs
      simpa using List.find?_eq_none.1 hfirst s hs

theorem exists_entry_of_functionDeclaration? {s : Symbol} {d : FunctionDeclaration}
    (h : g.functionDeclaration? s = some d) :
    ∃ entry, (s.path, entry) ∈ g.functions.entries ∧ entry.declaration = d := by
  unfold functionDeclaration? at h
  split at h
  · obtain ⟨entry, hentry, rfl⟩ := Option.map_eq_some_iff.1 h
    exact ⟨entry, Table.mem_entries_of_get? hentry, rfl⟩
  · cases h

theorem mem_references_of_class {s t : Symbol} {d : ClassDeclaration}
    (hs : g.classDeclaration? s = some d) (ht : t ∈ d.typeParameters ++ d.members) :
    t ∈ g.references := by
  obtain ⟨-, entry, hentry, rfl⟩ := exists_entry_of_classDeclaration? hs
  refine List.mem_append_left _ (List.mem_append_right _ ?_)
  exact List.mem_flatMap.2 ⟨entry, List.mem_map_of_mem hentry, ht⟩

namespace Closed

variable (hg : g.Closed)
include hg

theorem typeParameters {s : Symbol} {d : ClassDeclaration} (hs : g.classDeclaration? s = some d) :
    ∀ p ∈ d.typeParameters, g.contains p = true := fun p hp =>
  hg p (mem_references_of_class hs (List.mem_append_left _ hp))

theorem members {s : Symbol} {d : ClassDeclaration} (hs : g.classDeclaration? s = some d) :
    ∀ t ∈ d.members, g.contains t = true := fun t ht =>
  hg t (mem_references_of_class hs (List.mem_append_right _ ht))

theorem parameters {s : Symbol} {d : FunctionDeclaration}
    (hs : g.functionDeclaration? s = some d) : ∀ p ∈ d.parameters, g.contains p = true := by
  obtain ⟨entry, hentry, rfl⟩ := exists_entry_of_functionDeclaration? hs
  intro p hp
  refine hg p (List.mem_append_right _ (List.mem_flatMap.2 ?_))
  exact ⟨entry, List.mem_map_of_mem hentry, List.mem_append_right _ hp⟩

end Closed

/-! A symbol that is declared is found in its place unless it is of another kind. -/

theorem functionDeclaration?_eq_none_iff {s : Symbol} (h : g.contains s = true) :
    g.functionDeclaration? s = none ↔ s.kind ≠ .function := by
  unfold contains placement? at h
  unfold functionDeclaration?
  cases hkind : s.kind <;> simp_all [Option.isSome_iff_ne_none]

theorem valueParameter?_eq_none_iff {s : Symbol} (h : g.contains s = true) :
    g.valueParameter? s = none ↔ s.kind ≠ .valueParameter := by
  unfold contains placement? at h
  unfold valueParameter?
  cases hkind : s.kind <;> simp_all [Option.isSome_iff_ne_none]

theorem typeParameter?_eq_none_iff {s : Symbol} (h : g.contains s = true) :
    g.typeParameter? s = none ↔ s.kind ≠ .typeParameter := by
  unfold contains placement? at h
  unfold typeParameter?
  cases hkind : s.kind <;> simp_all [Option.isSome_iff_ne_none]

end SymbolGraph

/-! ## Causes -/

/-- The failures over symbols that are listed where symbols of another kind have to be. -/
def Misplaced (kind : SymbolKind) (symbols : List Symbol) (f : Failure) : Prop :=
  ∃ s ∈ symbols, s.kind ≠ kind ∧ f = .unknownSymbol s

@[simp] theorem not_misplaced_nil {kind : SymbolKind} {f : Failure} : ¬Misplaced kind [] f := by
  rintro ⟨s, hs, -⟩
  cases hs

@[simp] theorem misplaced_cons {kind : SymbolKind} {s : Symbol} {rest : List Symbol}
    {f : Failure} : Misplaced kind (s :: rest) f ↔
      s.kind ≠ kind ∧ f = .unknownSymbol s ∨ Misplaced kind rest f :=
  List.exists_mem_cons_iff ..

/-- What may keep a type use from being resolved in a closed graph. Arguments beyond the last type
parameter of a class are not looked at. -/
inductive TypeUseFault (g : SymbolGraph) : TypeUse → Failure → Prop
  | undeclaredClass {s : Symbol} {arguments : List TypeUse} (h : g.classDeclaration? s = none) :
    TypeUseFault g (.declared s arguments) (.unknownSymbol s)
  | parameter {s : Symbol} {arguments : List TypeUse} {d : ClassDeclaration} {f : Failure}
    (hs : g.classDeclaration? s = some d) (h : Misplaced .typeParameter d.typeParameters f) :
    TypeUseFault g (.declared s arguments) f
  | argument {s : Symbol} {arguments : List TypeUse} {d : ClassDeclaration} {argument : TypeUse}
    {f : Failure} (hs : g.classDeclaration? s = some d)
    (hargument : argument ∈ arguments.take d.typeParameters.length)
    (h : TypeUseFault g argument f) : TypeUseFault g (.declared s arguments) f
  | undeclaredVariable {s : Symbol} (h : g.typeParameter? s = none) :
    TypeUseFault g (.typeVariable s) (.unknownSymbol s)
  | element {element : TypeUse} {dimensions : Nat} {f : Failure} (h : TypeUseFault g element f) :
    TypeUseFault g (.array element dimensions) f

/-- What may keep a value parameter from being resolved in a closed graph. -/
inductive ParameterFault (g : SymbolGraph) (p : Symbol) : Failure → Prop
  | kind (h : p.kind ≠ .valueParameter) : ParameterFault g p (.unknownSymbol p)
  | name {d : ValueParameterDeclaration} (hd : g.valueParameter? p = some d)
    (h : d.name.filter (!·.isEmpty) = none) : ParameterFault g p (.missingIdentifier p)
  | type {d : ValueParameterDeclaration} {f : Failure} (hd : g.valueParameter? p = some d)
    (h : TypeUseFault g d.type f) : ParameterFault g p f

/-- What may keep a function from being resolved as a member in a closed graph. The result of a
constructor is not resolved. -/
inductive FunctionFault (g : SymbolGraph) (d : FunctionDeclaration) : Failure → Prop
  | returnType {f : Failure} (hmethod : d.isConstructor = false)
    (h : TypeUseFault g d.returnType f) : FunctionFault g d f
  | parameter {p : Symbol} {f : Failure} (hp : p ∈ d.parameters) (h : ParameterFault g p f) :
    FunctionFault g d f

/-- What may keep the constructors, or the methods, of a class from being resolved in a closed
graph. Every member has to be a function, whichever of them are wanted. -/
inductive MemberFault (g : SymbolGraph) (wantsConstructors : Bool) (d : ClassDeclaration) :
    Failure → Prop
  | kind {f : Failure} (h : Misplaced .function d.members f) : MemberFault g wantsConstructors d f
  | function {s : Symbol} {member : FunctionDeclaration} {f : Failure} (hs : s ∈ d.members)
    (hmember : g.functionDeclaration? s = some member)
    (hwanted : member.isConstructor = wantsConstructors) (h : FunctionFault g member f) :
    MemberFault g wantsConstructors d f

namespace Resolver

variable {β γ : Type}

/-! ## Failing by a cause -/

/-- Whether a computation fails if there is a cause to, and then by one of the causes, whatever is
remembered. -/
def FailsBy (causes : Failure → Prop) (action : ResolveM β) : Prop :=
  ∀ m, match (action.run.run m).1 with
    | .ok _ => ∀ f, ¬causes f
    | .error f => causes f

namespace FailsBy

variable {causes causes' : Failure → Prop}

theorem congr {action : ResolveM β} (h : FailsBy causes action)
    (hcauses : ∀ f, causes f ↔ causes' f) : FailsBy causes' action := by
  obtain rfl : causes = causes' := funext fun f => propext (hcauses f)
  exact h

theorem exists_ok {action : ResolveM β} (h : FailsBy causes action) (hnone : ∀ f, ¬causes f)
    (m : Memory) : ∃ b, (action.run.run m).1 = .ok b := by
  have hm := h m
  cases hresult : (action.run.run m).1 with
  | ok b => exact ⟨b, rfl⟩
  | error f =>
    rw [hresult] at hm
    exact (hnone f hm).elim

theorem exists_error {action : ResolveM β} (h : FailsBy causes action) {f : Failure}
    (hf : causes f) (m : Memory) : ∃ f', causes f' ∧ (action.run.run m).1 = .error f' := by
  have hm := h m
  cases hresult : (action.run.run m).1 with
  | ok b =>
    rw [hresult] at hm
    exact (hm f hf).elim
  | error f' =>
    rw [hresult] at hm
    exact ⟨f', hm, rfl⟩

theorem pure (b : β) : FailsBy (fun _ => False) (pure b : ResolveM β) := fun _ _ => id

theorem state (action : StateM Memory β) :
    FailsBy (fun _ => False) (liftM action : ResolveM β) :=
  fun _ _ => id

theorem bind {action : ResolveM β} {next : β → ResolveM γ} (h : FailsBy causes action)
    (hnext : ∀ b, FailsBy causes' (next b)) :
    FailsBy (fun f => causes f ∨ causes' f) (action >>= next) := by
  intro m
  have hm := h m
  rw [ExceptT.run_bind, StateT.run_bind]
  cases hrun : action.run.run m with
  | mk result m' =>
    rw [hrun] at hm
    cases result with
    | error f => exact Or.inl hm
    | ok b =>
      -- the first part has no causes, so that those that are left are causes of the second
      have hm' := hnext b m'
      show match ((next b).run.run m').1 with
        | .ok _ => _
        | .error f => _
      cases hresult : ((next b).run.run m').1 with
      | error f =>
        rw [hresult] at hm'
        exact Or.inr hm'
      | ok c =>
        rw [hresult] at hm'
        exact fun f hf => hf.elim (hm f) (hm' f)

/-- What follows keeps the causes if it has none of its own. -/
theorem andThen {action : ResolveM β} {next : β → ResolveM γ} (h : FailsBy causes action)
    (hnext : ∀ b, FailsBy (fun _ => False) (next b)) : FailsBy causes (action >>= next) :=
  (h.bind hnext).congr fun _ => by rw [or_false]

theorem lift {action : StateM Memory β} {next : β → ResolveM γ}
    (hnext : ∀ b, FailsBy causes (next b)) :
    FailsBy causes ((liftM action : ResolveM β) >>= next) :=
  ((FailsBy.state action).bind hnext).congr fun _ => by rw [false_or]

theorem mapM {causes : β → Failure → Prop} {f : β → ResolveM γ} {l : List β}
    (h : ∀ b ∈ l, FailsBy (causes b) (f b)) :
    FailsBy (fun failure => ∃ b ∈ l, causes b failure) (l.mapM f) := by
  induction l with
  | nil => exact (FailsBy.pure _).congr fun f => by simp
  | cons b rest ih =>
    obtain ⟨hb, hrest⟩ := List.forall_mem_cons.1 h
    rw [List.mapM_cons]
    refine (hb.bind fun c => (ih hrest).andThen fun cs => FailsBy.pure _).congr fun f => ?_
    simp

/-- A lookup fails if nothing is found. The causes of what follows may be there even then. -/
theorem known (causes : Failure → Prop) {s : Symbol} {found : Option β} {next : β → ResolveM γ}
    (hnext : ∀ b, found = some b → FailsBy causes (next b)) :
    FailsBy (fun f => found = none ∧ f = .unknownSymbol s ∨ causes f)
      (known s found >>= next) := by
  cases found with
  | none => exact fun _ => Or.inl ⟨rfl, rfl⟩
  | some b => exact (hnext b rfl).congr fun f => by simp

/-- A lookup fails if nothing is found, and what follows it by causes in what is found. -/
theorem knownSome (causes : β → Failure → Prop) {s : Symbol} {found : Option β}
    {next : β → ResolveM γ} (hnext : ∀ b, found = some b → FailsBy (causes b) (next b)) :
    FailsBy (fun f => found = none ∧ f = .unknownSymbol s ∨ ∃ b, found = some b ∧ causes b f)
      (Resolver.known s found >>= next) := by
  refine known _ fun b hb => (hnext b hb).congr fun f => ?_
  simp [hb]

end FailsBy

/-! ## Type uses -/

section

variable {r : Resolver}

theorem failsBy_bindToPlaceholders (generics : TypeArguments) {parameters : List Symbol}
    (hdeclared : ∀ p ∈ parameters, r.graph.contains p = true) (bindings : TypeArguments) :
    FailsBy (Misplaced .typeParameter parameters)
      (r.bindToPlaceholders generics bindings parameters) := by
  induction parameters generalizing bindings with
  | nil => exact (FailsBy.pure _).congr fun f => by simp
  | cons p rest ih =>
    obtain ⟨hp, hrest⟩ := List.forall_mem_cons.1 hdeclared
    refine (FailsBy.known _ fun d _ => FailsBy.lift fun e => ih hrest _).congr fun f => ?_
    rw [SymbolGraph.typeParameter?_eq_none_iff hp, misplaced_cons]

theorem failsBy_elementOf (hclosed : r.graph.Closed) {s : Symbol} {d : ClassDeclaration}
    (hs : r.graph.classDeclaration? s = some d) :
    FailsBy (Misplaced .typeParameter d.typeParameters) (r.elementOf s) := by
  unfold elementOf classDeclaration
  rw [hs]
  exact (failsBy_bindToPlaceholders ∅ (hclosed.typeParameters hs) ∅).andThen fun bindings =>
    FailsBy.state _

mutual

theorem failsBy_resolve (hclosed : r.graph.Closed) (generics : TypeArguments) :
    ∀ use : TypeUse, FailsBy (TypeUseFault r.graph use) (r.resolve generics use)
  | .declared s arguments => by
    rw [resolve]
    -- which symbols and arguments are looked at depends on the class that is found
    refine (FailsBy.knownSome _ fun d hd =>
      (failsBy_bindArguments hclosed generics arguments _ (hclosed.typeParameters hd) ∅).andThen
        fun bindings => FailsBy.state _).congr fun f => ?_
    constructor
    · rintro (⟨hnone, rfl⟩ | ⟨d, hd, hparameter | ⟨a, ha, hfault⟩⟩)
      · exact .undeclaredClass hnone
      · exact .parameter hd hparameter
      · exact .argument hd ha hfault
    · rintro (⟨hnone⟩ | ⟨hd, hparameter⟩ | ⟨hd, ha, hfault⟩)
      · exact Or.inl ⟨hnone, rfl⟩
      · exact Or.inr ⟨_, hd, Or.inl hparameter⟩
      · exact Or.inr ⟨_, hd, Or.inr ⟨_, ha, hfault⟩⟩
  | .typeVariable s => by
    rw [resolve]
    refine (FailsBy.known _ fun d _ => FailsBy.state _).congr fun f => ?_
    constructor
    · rintro (⟨hnone, rfl⟩ | hfalse)
      · exact .undeclaredVariable hnone
      · exact hfalse.elim
    · intro hfault
      cases hfault with
      | undeclaredVariable hnone => exact Or.inl ⟨hnone, rfl⟩
  | .array element dimensions => by
    rw [resolve]
    refine ((failsBy_resolve hclosed generics element).andThen fun e =>
      FailsBy.pure _).congr fun f => ?_
    refine ⟨.element, fun hfault => ?_⟩
    cases hfault with
    | element hfault => exact hfault
  | .unresolved => by
    rw [resolve]
    exact (FailsBy.state _).congr fun f => ⟨False.elim, nofun⟩

theorem failsBy_bindArguments (hclosed : r.graph.Closed) (generics : TypeArguments) :
    ∀ (arguments : List TypeUse) (parameters : List Symbol)
    (_ : ∀ p ∈ parameters, r.graph.contains p = true) (bindings : TypeArguments),
    FailsBy (fun f => Misplaced .typeParameter parameters f ∨
        ∃ a ∈ arguments.take parameters.length, TypeUseFault r.graph a f)
      (r.bindArguments generics bindings parameters arguments)
  | [] => by
    intro parameters hdeclared bindings
    rw [bindArguments]
    exact (failsBy_bindToPlaceholders generics hdeclared bindings).congr fun f => by simp
  | argument :: rest => by
    intro parameters hdeclared bindings
    cases parameters with
    | nil =>
      rw [bindArguments]
      exact (FailsBy.pure _).congr fun f => by simp
    | cons p parameters =>
      obtain ⟨hp, hrest⟩ := List.forall_mem_cons.1 hdeclared
      rw [bindArguments]
      refine (FailsBy.known _ fun d _ => (failsBy_resolve hclosed generics argument).bind
        fun e => failsBy_bindArguments hclosed generics rest _ hrest _).congr fun f => ?_
      rw [SymbolGraph.typeParameter?_eq_none_iff hp, misplaced_cons, List.length_cons,
        List.take_succ_cons, List.exists_mem_cons_iff, or_assoc,
        or_left_comm (b := Misplaced .typeParameter parameters f)]

end

/-! ## Members -/

variable (hclosed : r.graph.Closed)
include hclosed

theorem failsBy_parameterElement (generics : TypeArguments) {p : Symbol}
    (hp : r.graph.contains p = true) :
    FailsBy (ParameterFault r.graph p) (r.parameterElement generics p) := by
  unfold parameterElement
  refine (FailsBy.knownSome (fun d f =>
    d.name.filter (!·.isEmpty) = none ∧ f = .missingIdentifier p ∨ TypeUseFault r.graph d.type f)
    fun d _ => ?_).congr fun f => ?_
  · cases d.name.filter (!·.isEmpty) with
    | none => exact fun _ => Or.inl ⟨rfl, rfl⟩
    | some name =>
      -- the type is resolved twice, and both times by the same causes
      refine ((failsBy_resolve hclosed ∅ d.type).bind fun type =>
        (failsBy_resolve hclosed generics d.type).andThen fun genericType =>
          FailsBy.pure _).congr fun f => ?_
      simp
  · rw [SymbolGraph.valueParameter?_eq_none_iff hp]
    constructor
    · rintro (⟨hkind, rfl⟩ | ⟨d, hd, ⟨hname, rfl⟩ | hfault⟩)
      · exact .kind hkind
      · exact .name hd hname
      · exact .type hd hfault
    · rintro (⟨hkind⟩ | ⟨hd, hname⟩ | ⟨hd, hfault⟩)
      · exact Or.inl ⟨hkind, rfl⟩
      · exact Or.inr ⟨_, hd, Or.inl ⟨hname, rfl⟩⟩
      · exact Or.inr ⟨_, hd, Or.inr hfault⟩

theorem failsBy_parameters (generics : TypeArguments) {s : Symbol} {d : FunctionDeclaration}
    (hs : r.graph.functionDeclaration? s = some d) :
    FailsBy (fun f => ∃ p ∈ d.parameters, ParameterFault r.graph p f)
      (d.parameters.mapM (r.parameterElement generics)) :=
  FailsBy.mapM fun _ hp => failsBy_parameterElement hclosed generics
    (hclosed.parameters hs _ hp)

theorem failsBy_buildConstructor (e : ClassElement) {s : Symbol} {d : FunctionDeclaration}
    (hs : r.graph.functionDeclaration? s = some d) (hconstructor : d.isConstructor = true) :
    FailsBy (FunctionFault r.graph d) (r.buildConstructor e s d) := by
  unfold buildConstructor
  refine ((failsBy_parameters hclosed e.arguments hs).andThen fun parameters =>
    FailsBy.pure _).congr fun f => ?_
  constructor
  · rintro ⟨p, hp, hfault⟩
    exact .parameter hp hfault
  · rintro (⟨hmethod, -⟩ | ⟨hp, hfault⟩)
    · cases hconstructor.symm.trans hmethod
    · exact ⟨_, hp, hfault⟩

theorem failsBy_buildMethod (e : ClassElement) {s : Symbol} {d : FunctionDeclaration}
    (hs : r.graph.functionDeclaration? s = some d) (hmethod : d.isConstructor = false) :
    FailsBy (FunctionFault r.graph d) (r.buildMethod e s d) := by
  unfold buildMethod
  refine ((failsBy_resolve hclosed ∅ d.returnType).bind fun returnType =>
    (failsBy_resolve hclosed e.arguments d.returnType).bind fun genericReturnType =>
      (failsBy_parameters hclosed e.arguments hs).andThen fun parameters =>
        FailsBy.pure _).congr fun f => ?_
  constructor
  · rintro (hreturn | hreturn | ⟨p, hp, hfault⟩)
    · exact .returnType hmethod hreturn
    · exact .returnType hmethod hreturn
    · exact .parameter hp hfault
  · rintro (⟨-, hreturn⟩ | ⟨hp, hfault⟩)
    · exact Or.inl hreturn
    · exact Or.inr (Or.inr ⟨_, hp, hfault⟩)

omit hclosed in
/-- Members are resolved one by one, and all of them have to be functions. -/
theorem failsBy_membersWhere {wanted : FunctionDeclaration → Bool}
    {build : Symbol → FunctionDeclaration → ResolveM β}
    {causes : FunctionDeclaration → Failure → Prop}
    (hbuild : ∀ s d, r.graph.functionDeclaration? s = some d → wanted d = true →
      FailsBy (causes d) (build s d))
    {members : List Symbol} (hdeclared : ∀ s ∈ members, r.graph.contains s = true) :
    FailsBy (fun f => Misplaced .function members f ∨ ∃ s ∈ members, ∃ d,
        r.graph.functionDeclaration? s = some d ∧ wanted d = true ∧ causes d f)
      (r.membersWhere wanted build members) := by
  induction members with
  | nil => exact (FailsBy.pure _).congr fun f => by simp
  | cons s rest ih =>
    obtain ⟨hs, hrest⟩ := List.forall_mem_cons.1 hdeclared
    -- the faults of the other members are causes even if this one is not a function
    refine (FailsBy.known (fun f =>
      (∃ d, r.graph.functionDeclaration? s = some d ∧ wanted d = true ∧ causes d f) ∨
        Misplaced .function rest f ∨ ∃ s ∈ rest, ∃ d,
          r.graph.functionDeclaration? s = some d ∧ wanted d = true ∧ causes d f)
      fun d hd => ?_).congr fun f => ?_
    · by_cases hwanted : wanted d = true
      · rw [if_pos hwanted]
        refine ((hbuild s d hd hwanted).bind fun member =>
          (ih hrest).andThen fun members => FailsBy.pure _).congr fun f => ?_
        simp [hd, hwanted]
      · rw [if_neg hwanted]
        refine (ih hrest).congr fun f => ?_
        simp [hd, hwanted]
    · rw [SymbolGraph.functionDeclaration?_eq_none_iff hs, misplaced_cons,
        List.exists_mem_cons_iff, or_assoc, or_left_comm (b := Misplaced .function rest f)]

theorem failsBy_members {s : Symbol} {d : ClassDeclaration}
    (hs : r.graph.classDeclaration? s = some d) (wantsConstructors : Bool)
    {wanted : FunctionDeclaration → Bool}
    (hwanted : ∀ d, wanted d = true ↔ d.isConstructor = wantsConstructors)
    {build : Symbol → FunctionDeclaration → ResolveM β}
    (hbuild : ∀ s d, r.graph.functionDeclaration? s = some d → d.isConstructor = wantsConstructors →
      FailsBy (FunctionFault r.graph d) (build s d)) :
    FailsBy (MemberFault r.graph wantsConstructors d) (r.membersWhere wanted build d.members) := by
  refine (failsBy_membersWhere (fun s d hd h => hbuild s d hd ((hwanted d).1 h))
    (hclosed.members hs)).congr fun f => ?_
  constructor
  · rintro (hkind | ⟨t, ht, member, hmember, h, hfault⟩)
    · exact .kind hkind
    · exact .function ht hmember ((hwanted member).1 h) hfault
  · rintro (hkind | ⟨ht, hmember, h, hfault⟩)
    · exact Or.inl hkind
    · exact Or.inr ⟨_, ht, _, hmember, (hwanted _).2 h, hfault⟩

end

/-! ## Loaded graphs -/

/-- A class of a loaded graph is resolved unless it lists a type parameter that is none, and its
constructors and methods are resolved unless there is a fault in one of them; otherwise the failure
is one of these faults. -/
theorem failsBy_of_load {text : String} {r : Resolver}
    (hload : SymbolGraph.load text = .ok r.graph) {s : Symbol} {d : ClassDeclaration}
    (hs : r.graph.classDeclaration? s = some d) :
    FailsBy (Misplaced .typeParameter d.typeParameters) (r.elementOf s) ∧
      ∀ e : ClassElement, e.symbol = s →
        FailsBy (MemberFault r.graph true d) (r.constructors e) ∧
          FailsBy (MemberFault r.graph false d) (r.methods e) := by
  have hclosed := SymbolGraph.closed_of_load hload
  refine ⟨failsBy_elementOf hclosed hs, ?_⟩
  rintro e rfl
  unfold constructors methods classDeclaration
  rw [hs]
  constructor
  · exact failsBy_members hclosed hs true (fun _ => Iff.rfl) fun _ _ =>
      failsBy_buildConstructor hclosed e
  · exact failsBy_members hclosed hs false (fun _ => by simp) fun _ _ =>
      failsBy_buildMethod hclosed e

/-- A graph of a class with a method whose result is a class that is not declared, and of a class
that lists the other one as a type parameter. -/
def rack : SymbolGraph where
  classes := {
    entries := [
      ("Rack", { declaration := {
        qualifiedName := "Rack"
        members := [.ofFunction "Rack#take#0"] } }),
      ("Shelf", { declaration := {
        qualifiedName := "Shelf"
        typeParameters := [.ofClass "Rack"] } })]
    nodup_keys := by decide
  }
  functions := {
    entries := [("Rack#take#0", {
      declaration := { name := "take", returnType := .declared (.ofClass "Gone") [] }
      placement := { enclosing := some (.ofClass "Rack") }
    })]
    nodup_keys := by decide
  }

theorem load_rack : SymbolGraph.load rack.toText = .ok rack := by
  have hfits : rack.Fits := by
    refine ⟨?_, nofun, nofun⟩
    simp [rack, Table.values, TypeUse.Fits, TypeUse.AllFit]
  rw [SymbolGraph.load_of_read hfits.read_toText]
  rfl

/-- A resolver of that graph. -/
def rackResolver : Resolver := .ofUnits rack {} []

theorem failsBy_of_load_rack :
    SymbolGraph.load rack.toText = .ok rackResolver.graph ∧
      (∀ m, ∃ e, ((rackResolver.elementOf (.ofClass "Rack")).run.run m).1 = .ok e) ∧
      ∀ e : ClassElement, e.symbol = .ofClass "Rack" → ∀ m,
        (∃ l, ((rackResolver.constructors e).run.run m).1 = .ok l) ∧
          ∃ f, ((rackResolver.methods e).run.run m).1 = .error f := by
  obtain ⟨helement, hmembers⟩ :=
    failsBy_of_load (r := rackResolver) load_rack (s := .ofClass "Rack") rfl
  refine ⟨load_rack, helement.exists_ok fun f => not_misplaced_nil, fun e he m => ?_⟩
  obtain ⟨hconstructors, hmethods⟩ := hmembers e he
  refine ⟨hconstructors.exists_ok ?_ m, ?_⟩
  · rintro f (⟨s, hs, hkind, -⟩ | ⟨hs, hmember, hconstructor, -⟩)
    · obtain rfl := List.mem_singleton.1 hs
      exact hkind rfl
    · obtain rfl := List.mem_singleton.1 hs
      cases hmember
      cases hconstructor
  · obtain ⟨f, -, hf⟩ := hmethods.exists_error
      (.function List.mem_cons_self rfl rfl (.returnType rfl (.undeclaredClass rfl))) m
    exact ⟨f, hf⟩

/-- A class may be resolved and its methods not, and a class may not be resolved although all that
it lists is declared. -/
theorem exists_unknownSymbol_of_load :
    SymbolGraph.load rack.toText = .ok rackResolver.graph ∧
      ∃ e m, (rackResolver.elementOf (.ofClass "Rack")).run.run {} = (.ok e, m) ∧
        ((rackResolver.methods e).run.run m).1 = .error (.unknownSymbol (.ofClass "Gone")) ∧
        ((rackResolver.elementOf (.ofClass "Shelf")).run.run m).1
          = .error (.unknownSymbol (.ofClass "Rack")) :=
  ⟨load_rack, _, _, rfl, rfl, rfl⟩

end Resolver

end BeanProcessing

import BeanProcessing.Proofs.BeanDefinition.Creators

/-!
# What the definition visitor makes

The visit of a class comes to one of four things. A class that carries no bean stereotype is passed
over, an abstract bean is worth a warning, a bean without a constructor to choose is an error, and
everything else gets one definition, which `Defines` describes by what the graph declares. An
interface is none of the first three, whatever it carries: it is not constructed but implemented at
run time, so it always gets its definition.

A bean only needs the constructor that makes it, but all its constructors are built before the
choice is made. So the visit of a bean whose constructor can be built fails if another one cannot.
-/

namespace BeanProcessing

/-! ## Computations in the course of a visit -/

namespace VisitM

variable {σ β γ : Type} {v v' : Visit σ}

theorem run_bind_of_eq_error {action : VisitM σ β} {next : β → VisitM σ γ} {failure : Failure}
    (h : action.run.run v = (.error failure, v')) :
    (action >>= next).run.run v = (.error failure, v') := by
  have hbind : (action >>= next).run.run v
      = (ExceptT.bindCont next (action.run.run v).1).run (action.run.run v).2 := rfl
  rw [hbind, h]
  rfl

theorem run_resolving {action : ResolveM β} {result : Except Failure β} {m : Memory}
    (h : action.run.run v.memory = (result, m)) :
    (resolving action : VisitM σ β).run.run v = (result, { v with memory := m }) := by
  have hrun : (resolving action : VisitM σ β).run.run v
      = ((action.run.run v.memory).1, { v with memory := (action.run.run v.memory).2 }) := rfl
  rw [hrun, h]

end VisitM

/-! ## Definitions as they should be -/

/-- Whether a class carries one of the bean stereotypes. -/
def Settings.Marks (settings : Settings) (c : ClassElement) : Prop :=
  ∃ stereotype ∈ settings.beanStereotypes, c.annotations.hasStereotype stereotype = true

/-- Whether the declaration of a class is abstract. -/
def SymbolGraph.DeclaresAbstract (g : SymbolGraph) (s : Symbol) : Prop :=
  ∃ d, g.classDeclaration? s = some d ∧ .abstract ∈ d.modifiers

namespace Resolver

/-- Whether a class is a bean to be constructed: no interface, but with a bean stereotype and not
abstract. -/
structure Constructible (r : Resolver) (c : ClassElement) : Prop where
  kind : c.kind ≠ .interface
  marked : r.settings.Marks c
  concrete : ¬ r.graph.DeclaresAbstract c.symbol

/-- Whether a class declares no constructor that could make its beans. -/
structure NoneCreates (r : Resolver) (c : ClassElement) : Prop where
  notInjected : ∀ x ∈ r.graph.constructorsOf c.symbol, r.isInjected x = false
  notOnly : (r.graph.constructorsOf c.symbol).length ≠ 1
  notAccessible : ∀ x ∈ r.graph.constructorsOf c.symbol, isAccessible x = false

/-- Whether a declared function carries the stereotype of methods that are processed at run time. -/
def isExecutable (r : Resolver) (x : Symbol × FunctionDeclaration) : Bool :=
  (r.graph.annotations x.1).hasStereotype r.settings.executableStereotype

/-- The methods among some that carry this stereotype. -/
def executableAmong (r : Resolver) (methods : List MethodElement) : List MethodElement :=
  methods.filter (·.annotations.hasStereotype r.settings.executableStereotype)

/-- Whether a definition has a constructor that a class declares, with the names of its parameters.
-/
def MadeBy (r : Resolver) (m : Memory) (c : ClassElement) (x : Symbol × FunctionDeclaration)
    (d : BeanDefinition) : Prop :=
  ∃ k, d.creator = some k ∧ Settled (r.constructorElement c x.1) m k ∧ k.symbol = x.1 ∧
    k.returnType = c ∧ k.declaringType = c ∧
    d.injectionPoints.map some = r.graph.parameterNamesOf x.2

/-- Whether a definition is what a class should get. -/
structure Defines (r : Resolver) (m : Memory) (c : ClassElement) (d : BeanDefinition) : Prop where
  beanType : d.beanType = c
  isOpen : d.isFrozen = false
  isIntroduction_iff : d.isIntroduction = true ↔ c.kind = .interface
  notMade : c.kind = .interface → d.creator = none
  made : c.kind ≠ .interface → ∃ x, r.Creates c x ∧ r.MadeBy m c x d
  /-- The methods with the stereotype, in order of declaration. -/
  executableMethods :
    List.Forall₂ (fun x method => Settled (r.methodElement c x.1) m method ∧ method.symbol = x.1)
      ((r.graph.methodsOf c.symbol).filter r.isExecutable) d.executableMethods

variable {r : Resolver} {c : ClassElement} {x : Symbol × FunctionDeclaration} {m m' : Memory}
  {d : BeanDefinition}

theorem isBean_iff : r.settings.isBean c = true ↔ r.settings.Marks c :=
  List.any_eq_true

theorem isAbstract_iff {s : Symbol} :
    r.isAbstract s = true ↔ r.graph.DeclaresAbstract s := by
  simp [isAbstract, SymbolGraph.DeclaresAbstract, Option.any_eq_true]

theorem exists_creates_iff : (∃ x, r.Creates c x) ↔ ¬ r.NoneCreates c := by
  refine exists_chosen_iff.trans (not_congr ⟨fun ⟨hnone, hlength, hclosed⟩ => ?_, fun h => ?_⟩)
  · exact ⟨hnone, hlength, hclosed⟩
  · exact ⟨h.notInjected, h.notOnly, h.notAccessible⟩

theorem settled_executableMethods {ms : List MethodElement} (hm : Keyed r m)
    (h : (r.methods c).run.run m = (.ok ms, m')) {later : Memory} (hlater : m'.Within later) :
    List.Forall₂
      (fun x method => Settled (r.methodElement c x.1) later method ∧ method.symbol = x.1)
      ((r.graph.methodsOf c.symbol).filter r.isExecutable) (r.executableAmong ms) := by
  have hmethods := settled_of_run_methods hm h
  refine (List.rel_filter (fun x method hx => ?_) hmethods).imp fun x method hx =>
    ⟨hx.1.mono hlater, hx.2.1⟩
  show r.isExecutable x = true ↔ method.annotations.hasStereotype _ = true
  rw [isExecutable, hx.2.2]

end Resolver

/-! ## The outcomes of a visit -/

namespace BeanDefinition

open Resolver

variable {r : Resolver} {c : ClassElement} {x : Symbol × FunctionDeclaration} {m m' : Memory}
  {σ : Type} {v : Visit σ} {failure : Failure}

/-- Completing a definition adds the methods that the class has with the stereotype, and tells. -/
theorem run_complete {d : BeanDefinition} {ms : List MethodElement}
    (h : (r.methods d.beanType).run.run v.memory = (.ok ms, m')) :
    ∃ m'', m'.Within m'' ∧ (complete r d).run.run v
      = (.ok [{ d with executableMethods := r.executableAmong ms }], { v with memory := m'' }) := by
  have hmethods : (executableMethodsOf r d.beanType : VisitM σ _).run.run v
      = (.ok (r.executableAmong ms), { v with memory := m' }) := by
    unfold executableMethodsOf
    rw [run_bind_of_eq_ok (VisitM.run_resolving h)]
    rfl
  unfold complete
  rw [run_bind_of_eq_ok hmethods]
  refine ⟨_, ?_, rfl⟩
  exact Memory.Within.refl m'

theorem visitor_of_interface (hkind : c.kind = .interface) :
    (visitor r c : VisitM σ _) = complete r { ofClass c with isIntroduction := true } := by
  unfold visitor
  exact if_pos (beq_iff_eq.2 hkind)

/-- The visit of an interface makes an introduction. -/
theorem visit_of_interface (own : σ) (hm : Keyed r m) (hkind : c.kind = .interface)
    {ms : List MethodElement} (h : (r.methods c).run.run m = (.ok ms, m')) :
    ∃ d m'', (visitor r c).run.run { own, memory := m } = (.ok [d], { own, memory := m'' }) ∧
      r.Defines m'' c d := by
  rw [visitor_of_interface hkind]
  obtain ⟨m'', hwithin, hcomplete⟩ := run_complete (σ := σ) (v := { own, memory := m })
    (d := { ofClass c with isIntroduction := true }) h
  refine ⟨_, m'', hcomplete, ?_⟩
  exact {
    beanType := rfl
    isOpen := rfl
    isIntroduction_iff := iff_of_true rfl hkind
    notMade := fun _ => rfl
    made := fun h => absurd hkind h
    executableMethods := settled_executableMethods hm h hwithin }

/-- The visit of a class without a bean stereotype makes nothing. -/
theorem visit_of_not_marked (own : σ) (hkind : c.kind ≠ .interface)
    (hmarked : ¬ r.settings.Marks c) :
    ∃ m', (visitor r c).run.run { own, memory := m } = (.ok [], { own, memory := m' }) := by
  unfold visitor
  dsimp only
  rw [if_neg (mt beq_iff_eq.1 hkind), if_pos (by simpa [← isBean_iff] using hmarked)]
  exact ⟨_, rfl⟩

/-- The visit of an abstract bean makes nothing, and warns. -/
theorem visit_of_abstract (own : σ) (hkind : c.kind ≠ .interface) (hmarked : r.settings.Marks c)
    (habstract : r.graph.DeclaresAbstract c.symbol) :
    ∃ m', (visitor r c).run.run { own, memory := m }
      = (.ok [], { own, memory := m', reports :=
          [⟨.warning, "abstract class cannot be instantiated", c.symbol⟩] }) := by
  unfold visitor
  dsimp only
  rw [if_neg (mt beq_iff_eq.1 hkind), if_neg (by simpa [← isBean_iff] using hmarked),
    if_pos (isAbstract_iff.2 habstract)]
  exact ⟨_, rfl⟩

/-- The visit of a bean to be constructed builds its constructors before anything else. -/
theorem visitor_of_constructible (hc : r.Constructible c) :
    (visitor r c : VisitM σ _) = (do
      let constructors ← VisitM.resolving (r.constructors c)
      match r.settings.chooseCreator? constructors with
      | some k => complete r { ofClass c with creator := some k }
      | none => do
        VisitM.report ⟨.error, "no accessible constructor", c.symbol⟩
        return []) := by
  have hmarked : ¬ (!r.settings.isBean c) = true := by simp [isBean_iff.2 hc.marked]
  have hconcrete := mt isAbstract_iff.1 hc.concrete
  unfold visitor
  exact (if_neg (mt beq_iff_eq.1 hc.kind)).trans ((if_neg hmarked).trans (if_neg hconcrete))

/-- The visit of a bean without a constructor to choose makes nothing, and is an error. -/
theorem visit_of_noneCreates (own : σ) (hm : Keyed r m) (hc : r.Constructible c)
    (hnone : r.NoneCreates c) {ks : List ConstructorElement}
    (h : (r.constructors c).run.run m = (.ok ks, m')) :
    ∃ m'', (visitor r c).run.run { own, memory := m }
      = (.ok [], { own, memory := m'', reports :=
          [⟨.error, "no accessible constructor", c.symbol⟩] }) := by
  have hchoice := (chooseCreator?_eq_none_iff hm h).2 fun hx => exists_creates_iff.1 hx hnone
  rw [visitor_of_constructible hc, run_bind_of_eq_ok (VisitM.run_resolving h), hchoice]
  exact ⟨_, rfl⟩

/-- The visit of a bean with a constructor to choose makes a definition with this constructor. -/
theorem visit_of_creates (own : σ) (hm : Keyed r m) (hc : r.Constructible c) (hx : r.Creates c x)
    {ks : List ConstructorElement} (h : (r.constructors c).run.run m = (.ok ks, m'))
    {ms : List MethodElement} {m'' : Memory}
    (hmethods : (r.methods c).run.run m' = (.ok ms, m'')) :
    ∃ d later, (visitor r c).run.run { own, memory := m }
      = (.ok [d], { own, memory := later }) ∧ r.Defines later c d ∧ r.MadeBy later c x d := by
  obtain ⟨k, hchoice, hsettled, hmade⟩ := hx.exists_chooseCreator? hm h
  have hkeyed := (composed_constructors c).keyed_and_within_of_run hm h
  obtain ⟨later, hwithin, hcomplete⟩ := run_complete (σ := σ) (v := { own, memory := m' })
    (d := { ofClass c with creator := some k }) hmethods
  have hwithin' := ((composed_methods c).keyed_and_within_of_run hkeyed.1 hmethods).2
  have hmadeBy : r.MadeBy later c x
      { ofClass c with creator := some k, executableMethods := r.executableAmong ms } :=
    ⟨k, rfl, hsettled.mono (hwithin'.trans hwithin), hmade.symbol, hmade.declaringType,
      hmade.declaringType, hmade.names⟩
  refine ⟨_, later, ?_, ?_, hmadeBy⟩
  · rw [visitor_of_constructible hc, run_bind_of_eq_ok (VisitM.run_resolving h), hchoice]
    exact hcomplete
  · exact {
      beanType := rfl
      isOpen := rfl
      isIntroduction_iff := iff_of_false nofun hc.kind
      notMade := fun h => absurd h hc.kind
      made := fun _ => ⟨x, hx, hmadeBy⟩
      executableMethods := settled_executableMethods hkeyed.1 hmethods hwithin }

/-- The visit of a class whose members can be built comes to one of four things. If it is no
interface and carries no bean stereotype, nothing is made and nothing reported. If it is an abstract
bean, nothing is made and one warning reported. If it is a concrete bean that declares no
constructor with the inject annotation, not just one, and none that is not private, nothing is made
and one error reported. Otherwise, which is so for every interface, nothing is reported and one
definition is made, which is the one that the class should get. -/
theorem visit_outcome (r : Resolver) (log : Log) (calls : List Call) (c : ClassElement) (own : σ)
    (hconstructors : ∃ ks, ((r.constructors c).run.run (r.memoryAfter calls { log })).1 = .ok ks)
    (hmethods : ∃ ms, ((r.methods c).run.run (r.memoryAfter calls { log })).1 = .ok ms) :
    ∃ definitions reports memory,
      (visitor r c).run.run { own, memory := r.memoryAfter calls { log } }
        = (.ok definitions, { own, memory, reports }) ∧
      (c.kind ≠ .interface → ¬ r.settings.Marks c → definitions = [] ∧ reports = []) ∧
      (c.kind ≠ .interface → r.settings.Marks c → r.graph.DeclaresAbstract c.symbol →
        definitions = [] ∧
        reports = [⟨.warning, "abstract class cannot be instantiated", c.symbol⟩]) ∧
      (r.Constructible c → r.NoneCreates c →
        definitions = [] ∧ reports = [⟨.error, "no accessible constructor", c.symbol⟩]) ∧
      (c.kind = .interface ∨ r.Constructible c ∧ ¬ r.NoneCreates c →
        reports = [] ∧ ∃ d, definitions = [d] ∧ r.Defines memory c d) := by
  have hm := keyed_memoryAfter r calls log
  generalize r.memoryAfter calls { log } = m at hm hconstructors hmethods ⊢
  obtain ⟨ks, hks⟩ := hconstructors
  have hbuilt : (r.constructors c).run.run m = (.ok ks, ((r.constructors c).run.run m).2) :=
    Prod.ext hks rfl
  generalize ((r.constructors c).run.run m).2 = m₁ at hbuilt
  -- methods that can be built in one memory can be built in every memory
  have hfails := failsWith_methods (r := r) c
  rw [(hfails.exists_ok_iff m).1 hmethods] at hfails
  by_cases hkind : c.kind = .interface
  · obtain ⟨ms, m₂, hms⟩ := hfails.exists_run_eq_ok m
    obtain ⟨d, memory, hvisit, hd⟩ := visit_of_interface own hm hkind hms
    exact ⟨[d], [], memory, hvisit, fun h => absurd hkind h, fun h => absurd hkind h,
      fun h => absurd hkind h.kind, fun _ => ⟨rfl, d, rfl, hd⟩⟩
  by_cases hmarked : r.settings.Marks c
  swap
  · obtain ⟨memory, hvisit⟩ := visit_of_not_marked (m := m) own hkind hmarked
    exact ⟨[], [], memory, hvisit, fun _ _ => ⟨rfl, rfl⟩, fun _ h => absurd h hmarked,
      fun h => absurd h.marked hmarked,
      fun h => h.elim (absurd · hkind) fun h => absurd h.1.marked hmarked⟩
  by_cases habstract : r.graph.DeclaresAbstract c.symbol
  · obtain ⟨memory, hvisit⟩ := visit_of_abstract (m := m) own hkind hmarked habstract
    exact ⟨[], _, memory, hvisit, fun _ h => absurd hmarked h, fun _ _ _ => ⟨rfl, rfl⟩,
      fun h => absurd habstract h.concrete,
      fun h => h.elim (absurd · hkind) fun h => absurd habstract h.1.concrete⟩
  have hc : r.Constructible c := ⟨hkind, hmarked, habstract⟩
  by_cases hnone : r.NoneCreates c
  · obtain ⟨memory, hvisit⟩ := visit_of_noneCreates own hm hc hnone hbuilt
    exact ⟨[], _, memory, hvisit, fun _ h => absurd hmarked h, fun _ _ h => absurd h habstract,
      fun _ _ => ⟨rfl, rfl⟩, fun h => h.elim (absurd · hkind) fun h => absurd hnone h.2⟩
  · obtain ⟨x, hx⟩ := exists_creates_iff.2 hnone
    obtain ⟨ms, m₂, hms⟩ := hfails.exists_run_eq_ok m₁
    obtain ⟨d, memory, hvisit, hd, -⟩ := visit_of_creates own hm hc hx hbuilt hms
    exact ⟨[d], [], memory, hvisit, fun _ h => absurd hmarked h, fun _ _ h => absurd h habstract,
      fun _ h => absurd h hnone, fun _ => ⟨rfl, d, rfl, hd⟩⟩

/-- A bean with a private constructor and another, and with a method that is processed at run time.
-/
def kettleGraph : SymbolGraph :=
  .ofEdits [
    .addClass "Text" .plain,
    .addClass "Kettle" .plain,
    .annotate (.ofClass "Kettle") "jakarta.inject.Singleton",
    .addConstructor "Kettle" [],
    .setFunctionModifiers (.ofFunction "Kettle#<init>#0") [.privateAccess],
    .addConstructor "Kettle"
      [{ name := some "label", type := .declared (.ofClass "Text") [] }],
    .addMethod "Kettle" "boil" .unresolved [],
    .addStereotype (.ofFunction "Kettle#boil#2") "io.micronaut.context.annotation.Executable"]

/-- A resolver of this bean. -/
def kettleResolver : Resolver := .ofUnits kettleGraph {} []

/-- The class of the bean. -/
def kettle : ClassElement :=
  .declared
    { symbol := .ofClass "Kettle"
      name := "Kettle"
      annotations := kettleGraph.annotations (.ofClass "Kettle") } ∅

theorem constructible_kettle : kettleResolver.Constructible kettle where
  kind := by decide
  marked := ⟨"jakarta.inject.Singleton", by decide, by decide⟩
  concrete := by
    rw [← isAbstract_iff]
    decide

/-- The private constructor is not chosen. -/
theorem exists_creates_kettle :
    ∃ d, kettleResolver.Creates kettle (.ofFunction "Kettle#<init>#1", d) :=
  ⟨_, .accessible rfl (by decide) (by decide)⟩

/-- The bean gets its definition, which takes the text. -/
theorem visit_outcome_kettle :
    (∃ ks, ((kettleResolver.constructors kettle).run.run {}).1 = .ok ks) ∧
      (∃ ms, ((kettleResolver.methods kettle).run.run {}).1 = .ok ms) ∧
      ∃ d memory, (visitor kettleResolver kettle).run.run { own := (), memory := {} }
          = (.ok [d], { own := (), memory }) ∧
        kettleResolver.Defines memory kettle d ∧ d.injectionPoints = ["label"] := by
  refine ⟨⟨_, rfl⟩, ⟨_, rfl⟩, ?_⟩
  obtain ⟨definitions, reports, memory, hvisit, -, -, -, hdefined⟩ :=
    visit_outcome kettleResolver [] [] kettle () ⟨_, rfl⟩ ⟨_, rfl⟩
  obtain ⟨d, hd⟩ := exists_creates_kettle
  obtain ⟨rfl, d, rfl, hdefines⟩ :=
    hdefined (Or.inr ⟨constructible_kettle, exists_creates_iff.1 ⟨_, hd⟩⟩)
  have hpoints : ((visitor kettleResolver kettle).run.run
      { own := (), memory := kettleResolver.memoryAfter [] {} }).1.map
        (·.map injectionPoints) = .ok [["label"]] := rfl
  rw [hvisit] at hpoints
  exact ⟨d, memory, hvisit, hdefines, List.head_eq_of_cons_eq (Except.ok.inj hpoints)⟩

/-! ## Constructors that are not chosen -/

/-- If the methods of a class can be built, all its members are functions, so its constructors can
be built unless one of them fails. -/
theorem failsWith_constructorsOf {ms : List MethodElement}
    (h : (r.methods c).run.run m = (.ok ms, m')) :
    FailsWith
      ((r.graph.constructorsOf c.symbol).findSome? fun x => r.graph.constructorFailure? x.2)
      (r.constructors c) := by
  have hnone := (failsWith_methods c).eq_none_of_run_eq_ok h
  have hconstructors := failsWith_constructors (r := r) c
  cases hd : r.graph.classDeclaration? c.symbol with
  | none =>
    rw [hd] at hnone
    cases hnone
  | some d =>
    rw [hd, Option.elim_some] at hnone hconstructors
    have hfunctions := SymbolGraph.isSome_of_membersFailure?_eq_none hnone
    rwa [SymbolGraph.membersFailure?_eq_findSome? hfunctions,
      ← SymbolGraph.functionsOf_eq hd] at hconstructors

theorem failsWith_constructorElement (hx : x ∈ r.graph.constructorsOf c.symbol) :
    FailsWith (r.graph.constructorFailure? x.2) (r.constructorElement c x.1) := by
  rw [constructorElement_eq (SymbolGraph.functionDeclaration?_of_mem_functionsOf hx)]
  exact failsWith_buildConstructor c x.1 x.2

/-- A visit fails if the constructors of a bean to be constructed cannot be built. -/
theorem visit_of_constructors_error (own : σ) (hc : r.Constructible c)
    (h : (r.constructors c).run.run m = (.error failure, m')) :
    (visitor r c).run.run { own, memory := m }
      = (.error failure, { own, memory := m' }) := by
  rw [visitor_of_constructible hc]
  exact VisitM.run_bind_of_eq_error (VisitM.run_resolving h)

theorem visit_error_of_failure (own : σ) (hc : r.Constructible c) {ms : List MethodElement}
    (hmethods : (r.methods c).run.run m = (.ok ms, m'))
    (h : (r.graph.constructorsOf c.symbol).findSome?
      (fun x => r.graph.constructorFailure? x.2) = some failure) :
    ((visitor r c).run.run { own, memory := m }).1 = .error failure := by
  have hfails := (failsWith_constructorsOf hmethods).eq_error_iff (m := m).2 h
  rw [visit_of_constructors_error own hc (Prod.ext hfails rfl)]

/-- All constructors of a bean have a part in its visit, not only the one that makes it. If that one
can be built and so can the methods, the visit makes a definition with this constructor exactly if
every other constructor can be built too. If one cannot, the visit fails as the first of them does.
-/
theorem visit_makes_iff (r : Resolver) (log : Log) (calls : List Call) (c : ClassElement)
    (own : σ) (hc : r.Constructible c) {x : Symbol × FunctionDeclaration} (hx : r.Creates c x)
    (hcreator : ∃ k,
      ((r.constructorElement c x.1).run.run (r.memoryAfter calls { log })).1 = .ok k)
    (hmethods : ∃ ms, ((r.methods c).run.run (r.memoryAfter calls { log })).1 = .ok ms) :
    ((∃ d memory, (visitor r c).run.run { own, memory := r.memoryAfter calls { log } }
        = (.ok [d], { own, memory }) ∧ r.MadeBy memory c x d) ↔
      ∀ y ∈ r.graph.constructorsOf c.symbol, y.1 ≠ x.1 → ∃ k,
        ((r.constructorElement c y.1).run.run (r.memoryAfter calls { log })).1 = .ok k) ∧
    ∀ before y after failure, r.graph.constructorsOf c.symbol = before ++ y :: after →
      (∀ z ∈ before, ∃ k,
        ((r.constructorElement c z.1).run.run (r.memoryAfter calls { log })).1 = .ok k) →
      ((r.constructorElement c y.1).run.run (r.memoryAfter calls { log })).1 = .error failure →
      ((visitor r c).run.run { own, memory := r.memoryAfter calls { log } }).1
        = .error failure := by
  have hm := keyed_memoryAfter r calls log
  generalize r.memoryAfter calls { log } = m at hm hcreator hmethods ⊢
  obtain ⟨ms, hms⟩ := hmethods
  have hmethods : (r.methods c).run.run m = (.ok ms, ((r.methods c).run.run m).2) :=
    Prod.ext hms rfl
  have hfails := failsWith_constructorsOf hmethods
  refine ⟨⟨?_, fun hothers => ?_⟩, fun before y after failure hsplit hbefore hy => ?_⟩
  · rintro ⟨d, memory, hvisit, -⟩ y hy -
    rw [(failsWith_constructorElement hy).exists_ok_iff m]
    cases hfirst : (r.graph.constructorsOf c.symbol).findSome?
      fun x => r.graph.constructorFailure? x.2 with
    | none => exact List.findSome?_eq_none_iff.1 hfirst y hy
    | some failure =>
      have herror := visit_error_of_failure own hc hmethods hfirst
      rw [hvisit] at herror
      cases herror
  · have hall : ∀ y ∈ r.graph.constructorsOf c.symbol, r.graph.constructorFailure? y.2 = none := by
      intro y hy
      rw [← (failsWith_constructorElement hy).exists_ok_iff m]
      by_cases hsame : y.1 = x.1
      · rw [hsame]
        exact hcreator
      · exact hothers y hy hsame
    rw [List.findSome?_eq_none_iff.2 hall] at hfails
    obtain ⟨ks, m₁, hks⟩ := hfails.exists_run_eq_ok m
    -- the methods are built after the constructors
    have hagain := failsWith_methods (r := r) c
    rw [hagain.eq_none_of_run_eq_ok hmethods] at hagain
    obtain ⟨ms', m₂, hms'⟩ := hagain.exists_run_eq_ok m₁
    obtain ⟨d, memory, hvisit, -, hmade⟩ := visit_of_creates own hm hc hx hks hms'
    exact ⟨d, memory, hvisit, hmade⟩
  · have hmember : ∀ z ∈ before ++ [y], z ∈ r.graph.constructorsOf c.symbol := by
      intro z hz
      rw [hsplit]
      simp only [List.mem_append, List.mem_cons] at hz ⊢
      tauto
    refine visit_error_of_failure own hc hmethods ?_
    have hnone : before.findSome? (fun z => r.graph.constructorFailure? z.2) = none := by
      refine List.findSome?_eq_none_iff.2 fun z hz => ?_
      have hz' := hmember z (List.mem_append_left _ hz)
      exact ((failsWith_constructorElement hz').exists_ok_iff m).1 (hbefore z hz)
    have hy' := hmember y (List.mem_append_right _ List.mem_cons_self)
    rw [hsplit, List.findSome?_append, hnone, Option.none_or, List.findSome?_cons,
      (failsWith_constructorElement hy').eq_error_iff.1 hy]

/-- The private constructor of the bean can be built too, so the bean gets its definition. -/
theorem visit_makes_iff_kettle :
    kettleResolver.Constructible kettle ∧ ∃ x, kettleResolver.Creates kettle x ∧
      (∃ k, ((kettleResolver.constructorElement kettle x.1).run.run {}).1 = .ok k) ∧
      (∃ ms, ((kettleResolver.methods kettle).run.run {}).1 = .ok ms) ∧
      ∃ d memory, (visitor kettleResolver kettle).run.run { own := (), memory := {} }
          = (.ok [d], { own := (), memory }) ∧ kettleResolver.MadeBy memory kettle x d := by
  obtain ⟨d, hd⟩ := exists_creates_kettle
  refine ⟨constructible_kettle, _, hd, ⟨_, rfl⟩, ⟨_, rfl⟩, ?_⟩
  have hmakes := visit_makes_iff kettleResolver [] [] kettle () constructible_kettle hd ⟨_, rfl⟩
    ⟨_, rfl⟩
  refine hmakes.1.2 fun y hy _ => ?_
  have hall : ∀ y ∈ kettleGraph.constructorsOf (.ofClass "Kettle"),
      kettleGraph.constructorFailure? y.2 = none := by decide
  exact ((failsWith_constructorElement hy).exists_ok_iff _).2 (hall y hy)

/-- A bean whose constructor has the inject annotation and takes nothing. It has another one, with a
parameter without a name. -/
def teapotGraph : SymbolGraph :=
  .ofEdits [
    .addClass "Teapot" .plain,
    .annotate (.ofClass "Teapot") "jakarta.inject.Singleton",
    .addConstructor "Teapot" [],
    .annotate (.ofFunction "Teapot#<init>#0") "jakarta.inject.Inject",
    .addConstructor "Teapot" [{ type := .unresolved }]]

/-- A resolver of this bean. -/
def teapotResolver : Resolver := .ofUnits teapotGraph {} []

/-- The class of the bean. -/
def teapot : ClassElement :=
  .declared
    { symbol := .ofClass "Teapot"
      name := "Teapot"
      annotations := teapotGraph.annotations (.ofClass "Teapot") } ∅

/-- The constructor that makes the bean can be built, and so can its methods. But the visit fails
over the other constructor. -/
theorem exists_failure_of_other_constructor :
    teapotResolver.Constructible teapot ∧ ∃ x, teapotResolver.Creates teapot x ∧
      (∃ k, ((teapotResolver.constructorElement teapot x.1).run.run {}).1 = .ok k) ∧
      (∃ ms, ((teapotResolver.methods teapot).run.run {}).1 = .ok ms) ∧
      ((visitor teapotResolver teapot).run.run { own := (), memory := {} }).1
        = .error (.missingIdentifier (.ofValueParameter "Teapot#<init>#1/0")) := by
  refine ⟨⟨by decide, ⟨"jakarta.inject.Singleton", by decide, by decide⟩, ?_⟩,
    _, .preferred rfl, ⟨_, rfl⟩, ⟨_, rfl⟩, rfl⟩
  rw [← isAbstract_iff]
  decide

end BeanDefinition

end BeanProcessing

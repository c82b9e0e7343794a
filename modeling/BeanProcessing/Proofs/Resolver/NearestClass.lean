import BeanProcessing.Proofs.Resolver.Failures
import BeanProcessing.Proofs.SymbolGraph.Outward

/-!
# The nearest class around a symbol

Which class is found around a symbol, that there is none, or what it is that keeps it from being
found, is decided by the way outward from the symbol and by what the graph declares. The
substitution that the class is asked for under has a part in its type arguments only.
-/

namespace BeanProcessing

/-- What the class around a symbol is by the graph: none, a failure, or the symbol of a class. -/
def SymbolGraph.nearestClass? (g : SymbolGraph) (s : Symbol) : Except Failure (Option Symbol) :=
  match g.encounter s with
  | .outside => .ok none
  | .repetition repeated => .error (.cyclicContext repeated s)
  | .nearestClass owner =>
    match (TypeUse.declared owner []).firstUndeclared? g with
    | none => .ok (some owner)
    | some missing => .error (.unknownSymbol missing)

namespace Resolver

variable {r : Resolver} {m m' : Memory}

/-- What an answer says about the class around a symbol, apart from what the class is made of. -/
def decision (answer : Except Failure (Option ClassElement)) : Except Failure (Option Symbol) :=
  answer.map (Option.map (·.symbol))

/-- Resolving a class gives an element with the symbol of the class, or fails over the first symbol
that is not declared. -/
theorem symbol_of_elementOf (hm : Keyed r m) (s : Symbol) :
    (((r.elementOf s).run.run m).1.map fun e => some e.symbol)
      = match (TypeUse.declared s []).firstUndeclared? r.graph with
        | none => .ok (some s)
        | some missing => .error (.unknownSymbol missing) := by
  have hfails := failsWith_elementOf (r := r) s
  cases hfirst : (TypeUse.declared s []).firstUndeclared? r.graph with
  | some missing =>
    rw [hfirst] at hfails
    rw [hfails.eq_error_iff.2 rfl]
    rfl
  | none =>
    rw [hfirst] at hfails
    obtain ⟨e, m', hrun⟩ := hfails.exists_run_eq_ok m
    obtain ⟨d, hs, -⟩ := TypeUse.allDeclared_declared.1
      ((TypeUse.firstUndeclared?_eq_none_iff _).1 hfirst)
    have hmade := eq_declaredElement_of_run_elementOf hm hs hrun
    rw [hrun, hmade]
    rfl

theorem failsWith_declaringClass? {s owner : Symbol}
    (h : r.graph.encounter s = .nearestClass owner) (generics : TypeArguments) :
    FailsWith (((TypeUse.declared owner []).firstUndeclared? r.graph).map .unknownSymbol)
      (r.declaringClass? s generics) := by
  unfold declaringClass?
  rw [h]
  exact FailsWith.declared fun d _ =>
    (failsWith_bindToBounds generics d.typeParameters ∅).andThen
      fun _ => FailsWith.lift fun _ => FailsWith.pure _

/-- The class around a symbol is made of its declaration, whatever its arguments are. -/
theorem exists_eq_declaredElement_of_run_declaringClass? (hm : Keyed r m) {s owner : Symbol}
    (h : r.graph.encounter s = .nearestClass owner) {generics : TypeArguments}
    {found : Option ClassElement}
    (hrun : (r.declaringClass? s generics).run.run m = (.ok found, m')) :
    ∃ d e, r.graph.classDeclaration? owner = some d ∧ found = some e ∧
      e = r.declaredElement owner d e.arguments := by
  unfold declaringClass? at hrun
  rw [h] at hrun
  obtain ⟨d, between, hknown, hnext⟩ := run_bind_eq_ok hrun
  obtain ⟨howner, rfl⟩ := run_known_eq_ok hknown
  obtain ⟨bindings, asked, hbind, hnext⟩ := run_bind_eq_ok hnext
  have hcomposed := composed_bindToBounds (r := r) generics d.typeParameters ∅
  have hkeyed := (hcomposed.keyed_and_within_of_run hm hbind).1
  have hmade :=
    @eq_declaredElement_of_run_classElement r asked _ bindings hkeyed owner d howner _ rfl
  cases hnext
  exact ⟨d, _, howner, rfl, hmade⟩

theorem symbol_of_run_declaringClass? (hm : Keyed r m) {s owner : Symbol}
    (h : r.graph.encounter s = .nearestClass owner) {generics : TypeArguments}
    {found : Option ClassElement}
    (hrun : (r.declaringClass? s generics).run.run m = (.ok found, m')) :
    found.map (·.symbol) = some owner := by
  obtain ⟨d, e, -, rfl, he⟩ := exists_eq_declaredElement_of_run_declaringClass? hm h hrun
  exact congrArg (fun e : ClassElement => some e.symbol) he

/-- The class around a symbol is that of the graph, whatever it is asked for under. -/
theorem decision_declaringClass? (hm : Keyed r m) (s : Symbol) (generics : TypeArguments) :
    decision ((r.declaringClass? s generics).run.run m).1 = r.graph.nearestClass? s := by
  unfold SymbolGraph.nearestClass?
  cases hencounter : r.graph.encounter s with
  | outside =>
    unfold declaringClass?
    rw [hencounter]
    rfl
  | repetition repeated =>
    unfold declaringClass?
    rw [hencounter]
    rfl
  | nearestClass owner =>
    have hfails := failsWith_declaringClass? hencounter generics
    dsimp only
    cases hfirst : (TypeUse.declared owner []).firstUndeclared? r.graph with
    | some missing =>
      rw [hfirst] at hfails
      rw [hfails.eq_error_iff.2 rfl]
      rfl
    | none =>
      rw [hfirst] at hfails
      obtain ⟨found, m', hrun⟩ := hfails.exists_run_eq_ok m
      have hsymbol := symbol_of_run_declaringClass? hm hencounter hrun
      rw [hrun]
      exact congrArg Except.ok hsymbol

/-! ## By the way outward alone -/

theorem decision_eq_error_iff {answer : Except Failure (Option ClassElement)}
    {failure : Failure} : answer = .error failure ↔ decision answer = .error failure := by
  cases answer <;> simp [decision, Except.map]

theorem decision_eq_ok_none_iff {answer : Except Failure (Option ClassElement)} :
    answer = .ok none ↔ decision answer = .ok none := by
  cases answer <;> simp [decision, Except.map]

theorem exists_eq_ok_some_iff {answer : Except Failure (Option ClassElement)} {owner : Symbol} :
    (∃ e, answer = .ok (some e) ∧ e.symbol = owner) ↔ decision answer = .ok (some owner) := by
  cases answer <;> simp [decision, Except.map]

end Resolver

namespace SymbolGraph

variable {g : SymbolGraph} {s : Symbol}

theorem nearestClass?_eq_cyclicContext_iff :
    (∃ u, g.nearestClass? s = .error (.cyclicContext u s)) ↔
      (∃ u, g.ComesBackTo s u) ∨ g.Endless s := by
  rw [← encounter_eq_repetition_iff]
  unfold nearestClass?
  cases g.encounter s with
  | outside => simp
  | repetition repeated => simp
  | nearestClass owner =>
    dsimp only
    cases (TypeUse.declared owner []).firstUndeclared? g <;> simp

theorem nearestClass?_eq_none_iff : g.nearestClass? s = .ok none ↔ g.EndsOutside s := by
  rw [← encounter_eq_outside_iff]
  unfold nearestClass?
  cases g.encounter s with
  | outside => simp
  | repetition repeated => simp
  | nearestClass owner =>
    dsimp only
    cases (TypeUse.declared owner []).firstUndeclared? g <;> simp

/-- The failure names a symbol that the way comes back to. -/
theorem comesBackTo_of_nearestClass? {u : Symbol}
    (h : g.nearestClass? s = .error (.cyclicContext u s)) : g.ComesBackTo s u := by
  have hspec := encounter_spec g s
  unfold nearestClass? at h
  cases hencounter : g.encounter s with
  | outside =>
    rw [hencounter] at h
    cases h
  | repetition repeated =>
    rw [hencounter] at h hspec
    cases h
    exact hspec
  | nearestClass owner =>
    rw [hencounter] at h
    dsimp only at h
    cases hfirst : (TypeUse.declared owner []).firstUndeclared? g <;> rw [hfirst] at h <;> cases h

/-- The class that comes first has to be declared, with all its type parameters. -/
theorem nearestClass?_of_encounter {owner : Symbol} (h : g.encounter s = .nearestClass owner) :
    (g.classDeclaration? owner = none → g.nearestClass? s = .error (.unknownSymbol owner)) ∧
      ∀ d, g.classDeclaration? owner = some d →
        (¬ Resolver.DeclaresAll g d.typeParameters → ∃ p ∈ d.typeParameters,
          g.typeParameter? p = none ∧ g.nearestClass? s = .error (.unknownSymbol p)) ∧
        (Resolver.DeclaresAll g d.typeParameters → g.nearestClass? s = .ok (some owner)) := by
  unfold nearestClass?
  rw [h]
  dsimp only
  rw [TypeUse.firstUndeclared?]
  refine ⟨fun hnone => by rw [hnone], fun d hd => ?_⟩
  rw [hd]
  dsimp only
  rw [TypeUse.firstUndeclaredIn?]
  constructor
  · intro hmissing
    cases hfind : d.typeParameters.find? fun p => (g.typeParameter? p).isNone with
    | none => exact absurd (TypeUse.find?_isNone_eq_none_iff.1 hfind) hmissing
    | some p =>
      have hp := List.find?_some hfind
      exact ⟨p, List.mem_of_find?_eq_some hfind, Option.isNone_iff_eq_none.1 hp, rfl⟩
  · intro hdeclares
    rw [TypeUse.find?_isNone_eq_none_iff.2 hdeclares]

end SymbolGraph

/-! ## The class around a symbol -/

/-- The way outward from a symbol is the sequence of the symbols around it, as far as it is asked
for. Asking for the class around the symbol always comes to an answer, also in a graph with cycles.
It fails over a cycle exactly if the way comes back to a symbol, the start included, before it has
met a class or with the first class that it meets; a way without end and without a class does. It
finds none exactly if the way ends without a class. Otherwise the first class is resolved: that
fails over the class or one of its type parameters if they are not declared, and gives an element of
the class if they are. Under any other substitution and after any other calls it is the same. -/
theorem Resolver.declaringClass?_along (r : Resolver) (log : Log) (calls : List Call) (s : Symbol)
    (generics : TypeArguments) (limit : Nat) :
    (∀ i, (r.graph.enclosingChain s limit)[i]?
      = if i < limit then r.graph.ancestor? s (i + 1) else none) ∧
    ∃ answer,
      ((r.declaringClass? s generics).run.run (r.memoryAfter calls { log })).1 = answer ∧
      ((∃ u, answer = .error (.cyclicContext u s)) ↔
        (∃ u, r.graph.ComesBackTo s u) ∨ r.graph.Endless s) ∧
      (∀ u, answer = .error (.cyclicContext u s) → r.graph.ComesBackTo s u) ∧
      (answer = .ok none ↔ r.graph.EndsOutside s) ∧
      (((∃ u, r.graph.ComesBackTo s u) ∨ r.graph.Endless s) ∨ r.graph.EndsOutside s ∨
        ∃ owner, r.graph.FirstClass s owner) ∧
      (∀ owner, r.graph.FirstClass s owner →
        ¬ ((∃ u, r.graph.ComesBackTo s u) ∨ r.graph.Endless s) →
        decision answer
            = ((r.elementOf owner).run.run (r.memoryAfter calls { log })).1.map
              (fun e => some e.symbol) ∧
        (r.graph.classDeclaration? owner = none → answer = .error (.unknownSymbol owner)) ∧
        ∀ d, r.graph.classDeclaration? owner = some d →
          (¬ DeclaresAll r.graph d.typeParameters → ∃ p ∈ d.typeParameters,
            r.graph.typeParameter? p = none ∧ answer = .error (.unknownSymbol p)) ∧
          (DeclaresAll r.graph d.typeParameters →
            ∃ e, answer = .ok (some e) ∧ e.symbol = owner)) ∧
      ∀ generics' log' calls', decision answer
        = decision
          ((r.declaringClass? s generics').run.run (r.memoryAfter calls' { log := log' })).1 := by
  have hm := keyed_memoryAfter r calls log
  have hdecision := decision_declaringClass? hm s generics
  refine ⟨r.graph.getElem?_enclosingChain s limit, _, rfl, ?_, ?_, ?_,
    SymbolGraph.encounter_cases r.graph s, fun owner hfirst hback => ?_,
    fun generics' log' calls' => ?_⟩
  · simp only [decision_eq_error_iff, hdecision, SymbolGraph.nearestClass?_eq_cyclicContext_iff]
  · intro u hu
    rw [decision_eq_error_iff, hdecision] at hu
    exact SymbolGraph.comesBackTo_of_nearestClass? hu
  · rw [decision_eq_ok_none_iff, hdecision, SymbolGraph.nearestClass?_eq_none_iff]
  · have hencounter := SymbolGraph.encounter_eq_nearestClass_iff.2 ⟨hfirst, hback⟩
    have hgraph := SymbolGraph.nearestClass?_of_encounter hencounter
    simp only [decision_eq_error_iff, exists_eq_ok_some_iff, hdecision]
    refine ⟨?_, hgraph⟩
    rw [symbol_of_elementOf hm, SymbolGraph.nearestClass?, hencounter]
  · rw [hdecision, decision_declaringClass? (keyed_memoryAfter r calls' log') s generics']

end BeanProcessing

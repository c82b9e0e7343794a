import BeanProcessing.Session

/-!
# Visitors that keep more than others

A session knows its visitor by its state only. A visitor that does what another does with a part of
its state, and keeps more beside it, therefore leaves every round and every session as the other
does, up to what it keeps more: `Visitor.Extends` is the relation between the two visitors, and
`mapOwn` takes what they leave from the one state to the other.

The use of it is in visitors that take notes. `Visitor.noting` keeps a note of every visit behind
the state of a visitor, and changes nothing by that.
-/

namespace BeanProcessing

variable {σ σ' τ α ν : Type}

/-! ## The part of a state -/

/-- The visit with a part of the visitor's state. -/
def Visit.mapOwn (f : σ' → σ) (visit : Visit σ') : Visit σ :=
  { visit with own := f visit.own }

/-- The round with a part of the visitor's state. -/
def Round.mapOwn (f : σ' → σ) (round : Round σ' α) : Round σ α :=
  { round with own := f round.own }

/-- The session with a part of the visitor's state. -/
def Session.mapOwn (f : σ' → σ) (s : Session σ' α) : Session σ α :=
  { s with own := f s.own }

/-- Whether a visitor does what another does with a part of its state. -/
def Visitor.Extends (f : σ' → σ) (visitor' : Visitor σ' α) (visitor : Visitor σ α) : Prop :=
  ∀ r e visit, ((visitor' r e).run.run visit).map id (Visit.mapOwn f)
    = (visitor r e).run.run (visit.mapOwn f)

/-- The visitor that notes something of every visit behind its state. -/
def Visitor.noting (note : ClassElement → Except Failure (List α) → List Diagnostic → ν)
    (visitor : Visitor σ α) : Visitor (σ × List ν) α := fun r e =>
  ExceptT.mk fun visit =>
    let (result, after) := (visitor r e).run.run { visit with own := visit.own.1 }
    (result, { after with own := (after.own, visit.own.2 ++ [note e result after.reports]) })

theorem Visitor.noting_extends
    (note : ClassElement → Except Failure (List α) → List Diagnostic → ν) (visitor : Visitor σ α) :
    (visitor.noting note).Extends Prod.fst visitor :=
  fun _ _ _ => rfl

variable {f : σ' → σ} {visitor' : Visitor σ' α} {visitor : Visitor σ α}

/-! ## Rounds -/

namespace Round

theorem mapOwn_visit (h : visitor'.Extends f visitor) (r : Resolver) (e : ClassElement)
    (round : Round σ' α) :
    (round.visit visitor' r e).map id (mapOwn f) = (round.mapOwn f).visit visitor r e := by
  have hvisit := h r e { own := round.own, memory := round.memory }
  unfold visit
  rw [show ({ own := (round.mapOwn f).own, memory := (round.mapOwn f).memory } : Visit σ)
    = Visit.mapOwn f { own := round.own, memory := round.memory } from rfl, ← hvisit]
  rfl

theorem mapOwn_fail (failure : DeclarationFailure) (round : Round σ' α) :
    (round.fail failure).mapOwn f = (round.mapOwn f).fail failure := rfl

theorem mapOwn_skip (e : ClassElement) (failure : Failure) (round : Round σ' α) :
    (round.skip e failure).mapOwn f = (round.mapOwn f).skip e failure := by
  unfold skip
  by_cases hrejection : failure.isRejection = true
  · rw [if_pos hrejection, if_pos hrejection]
    rfl
  · rw [if_neg hrejection, if_neg hrejection]
    rfl

theorem mapOwn_visitEach (h : visitor'.Extends f visitor) (r : Resolver) (es : List ClassElement)
    (round : Round σ' α) :
    (visitEach visitor' r es round).map id (mapOwn f)
      = visitEach visitor r es (round.mapOwn f) := by
  induction es generalizing round with
  | nil => rfl
  | cons e rest ih =>
    unfold visitEach
    rw [← mapOwn_visit h]
    obtain ⟨result, after⟩ := round.visit visitor' r e
    cases result with
    | ok artifacts => exact ih _
    | error failure =>
      -- both rounds end here, or neither does
      by_cases hfailFast : r.settings.failFast = true
      · simp only [Prod.map, id, hfailFast, if_true]
      · simp only [Prod.map, id, hfailFast]
        rw [← mapOwn_skip]
        exact ih _

theorem mapOwn_foldl_fail (failures : List DeclarationFailure) (round : Round σ' α) :
    (failures.foldl (fun round f => round.fail f) round).mapOwn f
      = failures.foldl (fun round f => round.fail f) (round.mapOwn f) := by
  induction failures generalizing round with
  | nil => rfl
  | cons failure rest ih =>
    rw [List.foldl_cons, List.foldl_cons, ← mapOwn_fail]
    exact ih (round.fail failure)

theorem mapOwn_run (h : visitor'.Extends f visitor) (r : Resolver) (number : Nat)
    (units : List CompilationUnit) (own : σ') (log : Log) :
    (run visitor' r number units own log).map id (mapOwn f)
      = run visitor r number units (f own) log := by
  unfold run
  obtain ⟨result, memory⟩ := (r.survey units).run.run { log }
  cases result with
  | error failure => rfl
  | ok survey =>
    have hstart := mapOwn_foldl_fail (f := f) survey.failures ({ own, memory } : Round σ' α)
    have hvisits := mapOwn_visitEach h r survey.candidates
      (survey.failures.foldl (fun round f => round.fail f) { own, memory })
    dsimp only
    rw [show ({ own := f own, memory } : Round σ α) = mapOwn f { own, memory } from rfl, ← hstart,
      ← hvisits]
    obtain ⟨ending, round⟩ := visitEach visitor' r survey.candidates
      (survey.failures.foldl (fun round f => round.fail f) { own, memory })
    cases ending with
    | none => rfl
    | some failure => rfl

end Round

/-! ## Sessions -/

namespace Session

theorem mapOwn_processUnits (h : visitor'.Extends f visitor) (graph : SymbolGraph)
    (units : List CompilationUnit) (s : Session σ' α) :
    (s.processUnits visitor' graph units).map id (mapOwn f)
      = (s.mapOwn f).processUnits visitor graph units := by
  have hrun := Round.mapOwn_run h (.ofUnits graph s.settings units) (s.rounds + 1) units s.own s.log
  unfold processUnits
  dsimp only [mapOwn]
  rw [← hrun]
  rfl

variable [Artifact α]

theorem mapOwn_finish (sink : Sink τ α) (state : τ) (s : Session σ' α) :
    (s.finish sink state).2.1.mapOwn f = ((s.mapOwn f).finish sink state).2.1 := by
  unfold finish finishThrough
  dsimp only [mapOwn]
  rcases (sink.outlet.write s.settings s.pending).run.run state with ⟨result, state'⟩
  cases result with
  | ok _ => rfl
  | error failure => rfl

end Session

end BeanProcessing

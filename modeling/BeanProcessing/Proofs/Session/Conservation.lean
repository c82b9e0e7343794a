import BeanProcessing.BeanDefinition
import BeanProcessing.Proofs.Session.History
import BeanProcessing.Sink.Recording
import BeanProcessing.SymbolGraph.Edit
import Mathlib.Data.List.Induction

/-!
# Conservation of artifacts

Over a session no artifact is lost, duplicated or put out of order: what was written to sinks,
followed by what is pending, is what the visits came to, one after the other. A visit in which an
error is reported comes to nothing, and whether one is reported depends on that visit only, although
it is found out by comparing counts of all errors of the round.

The invariant of a round is `Round.Balanced`, the invariant of a session `History.Accounts`. Each is
shown to be kept by one step, and from that by all of them.
-/

namespace BeanProcessing

variable {σ τ α : Type}

/-! ## Visits -/

/-- There are more errors than before when one of the reports that were added is an error. -/
theorem Diagnostic.errorCount_lt_append_iff (before reports : List Diagnostic) :
    errorCount before < errorCount (before ++ reports) ↔ reports.any (·.severity == .error) = true := by
  rw [errorCount, errorCount, List.countP_append, List.any_eq_true]
  constructor
  · intro hlt
    have hpos : 0 < reports.countP isError := by omega
    exact List.countP_pos_iff.1 hpos
  · intro herror
    have hpos : 0 < reports.countP isError := List.countP_pos_iff.2 herror
    omega

namespace Round

/-- What a visit comes to is what is kept of it, whatever was reported before. -/
theorem outcome_eq_ok_or_kept_eq_nil (result : Except Failure (List α))
    (before reports : List Diagnostic) :
    outcome result before (before ++ reports) = .ok (VisitRecord.kept ⟨result, reports⟩) ∨
      (∃ failure, outcome result before (before ++ reports) = .error failure) ∧
        VisitRecord.kept ⟨result, reports⟩ = [] := by
  cases result with
  | error failure => exact Or.inr ⟨⟨failure, rfl⟩, rfl⟩
  | ok artifacts =>
    unfold outcome VisitRecord.kept
    dsimp only
    by_cases herror : reports.any (·.severity == .error) = true
    · rw [if_pos herror, if_pos ((Diagnostic.errorCount_lt_append_iff before reports).2 herror)]
      exact Or.inr ⟨⟨_, rfl⟩, rfl⟩
    · rw [if_neg herror, if_neg (mt (Diagnostic.errorCount_lt_append_iff before reports).1 herror)]
      exact Or.inl rfl

/-- Whether what is kept of all visits is what there was before the round, followed by the artifacts
of the round. -/
def Balanced (base : List α) (round : Round (σ × List (VisitRecord α)) α) : Prop :=
  round.own.2.flatMap VisitRecord.kept = base ++ round.artifacts

variable {base : List α} {round : Round (σ × List (VisitRecord α)) α}

theorem Balanced.skip (h : round.Balanced base) (e : ClassElement) (failure : Failure) :
    (round.skip e failure).Balanced base := by
  unfold Round.skip
  by_cases hrejection : failure.isRejection = true
  · rw [if_pos hrejection]
    exact h
  · rw [if_neg hrejection]
    exact h

/-- A visit is recorded once, and comes to what is kept of its record. -/
theorem exists_record_of_visit (visitor : Visitor σ α) (r : Resolver) (e : ClassElement)
    {result : Except Failure (List α)} {after : Round (σ × List (VisitRecord α)) α}
    (hvisit : round.visit visitor.recorded r e = (result, after)) :
    ∃ v : VisitRecord α, after.own.2 = round.own.2 ++ [v] ∧ after.artifacts = round.artifacts ∧
      (result = .ok v.kept ∨ (∃ failure, result = .error failure) ∧ v.kept = []) := by
  obtain rfl : (round.visit visitor.recorded r e).1 = result := congrArg Prod.fst hvisit
  obtain rfl : (round.visit visitor.recorded r e).2 = after := congrArg Prod.snd hvisit
  let made := (visitor r e).run.run { own := round.own.1, memory := round.memory }
  exact ⟨⟨made.1, made.2.reports⟩, rfl, rfl, outcome_eq_ok_or_kept_eq_nil _ _ _⟩

/-- A visit that comes to artifacts is balanced once they are added to those of the round. -/
theorem Balanced.add (h : round.Balanced base) {visitor : Visitor σ α} {r : Resolver}
    {e : ClassElement} {artifacts : List α} {after : Round (σ × List (VisitRecord α)) α}
    (hvisit : round.visit visitor.recorded r e = (.ok artifacts, after)) :
    Balanced base { after with artifacts := after.artifacts ++ artifacts } := by
  obtain ⟨v, hown, hartifacts, hkept | ⟨⟨failure, herror⟩, -⟩⟩ :=
    exists_record_of_visit visitor r e hvisit
  · cases hkept
    show after.own.2.flatMap VisitRecord.kept = base ++ (after.artifacts ++ v.kept)
    rw [hown, hartifacts, List.flatMap_append, List.flatMap_singleton, ← List.append_assoc, h]
  · cases herror

/-- A visit that fails comes to nothing. -/
theorem Balanced.of_error (h : round.Balanced base) {visitor : Visitor σ α} {r : Resolver}
    {e : ClassElement} {failure : Failure} {after : Round (σ × List (VisitRecord α)) α}
    (hvisit : round.visit visitor.recorded r e = (.error failure, after)) :
    after.Balanced base := by
  obtain ⟨v, hown, hartifacts, hkept | ⟨-, hkept⟩⟩ := exists_record_of_visit visitor r e hvisit
  · cases hkept
  · unfold Balanced
    rw [hown, hartifacts, List.flatMap_append, List.flatMap_singleton, hkept, List.append_nil, h]

theorem balanced_visitEach (visitor : Visitor σ α) (r : Resolver) (es : List ClassElement)
    (h : round.Balanced base) : (visitEach visitor.recorded r es round).2.Balanced base := by
  induction es generalizing round with
  | nil => exact h
  | cons e rest ih =>
    unfold visitEach
    rcases hvisit : round.visit visitor.recorded r e with ⟨result, after⟩
    cases result with
    | ok artifacts => exact ih (h.add hvisit)
    | error failure =>
      -- whether the failure ends the round or not, the visit has added nothing
      by_cases hfailFast : r.settings.failFast = true
      · simp only [hfailFast, if_true]
        exact h.of_error hvisit
      · simp only [hfailFast]
        exact ih ((h.of_error hvisit).skip e failure)

theorem balanced_failures (failures : List DeclarationFailure) (h : round.Balanced base) :
    (failures.foldl (fun round f => round.fail f) round).Balanced base := by
  induction failures generalizing round with
  | nil => exact h
  | cons f rest ih => exact ih (show (round.fail f).Balanced base from h)

theorem balanced_run (visitor : Visitor σ α) (r : Resolver) (number : Nat)
    (units : List CompilationUnit) (own : σ × List (VisitRecord α)) (log : Log) :
    (run visitor.recorded r number units own log).2.Balanced (own.2.flatMap VisitRecord.kept) := by
  unfold run
  rcases (r.survey units).run.run { log } with ⟨result, memory⟩
  have hstart : Balanced (own.2.flatMap VisitRecord.kept) ({ own, memory } : Round _ α) :=
    (List.append_nil _).symm
  cases result with
  | error failure => exact hstart
  | ok survey =>
    have hvisits := balanced_visitEach visitor r survey.candidates
      (balanced_failures survey.failures hstart)
    dsimp only
    rcases heach : visitEach visitor.recorded r survey.candidates
      (survey.failures.foldl (fun round f => round.fail f) { own, memory }) with ⟨ending, round⟩
    rw [heach] at hvisits
    cases ending with
    | none => exact hvisits
    | some failure => exact hvisits

end Round

/-! ## Sessions -/

/-- The artifact that a call passes on. -/
def SinkCall.artifact? : SinkCall α → Option α
  | .reference _ => none
  | .artifact a => some a
  | .flush => none

/-- Whether a call is a flush. -/
def SinkCall.isFlush : SinkCall α → Bool
  | .reference _ => false
  | .artifact _ => false
  | .flush => true

variable [Artifact α]

namespace History

/-- Whether a history has come about by writing artifacts in batches: what is kept of all visits is
what was written, followed by what is pending, and the calls are those that it takes to write the
batches, of which there is one for each time that something was pending. -/
structure Accounts (h : History σ α) (settings : Settings) (batches : List (List α)) : Prop where
  settings_eq : h.session.settings = settings
  kept_eq : h.visits.flatMap VisitRecord.kept = batches.flatten ++ h.session.pending
  calls_eq : h.calls.map Prod.fst = batches.flatMap (Sink.batchCalls settings)
  forall_ne_nil : ∀ batch ∈ batches, batch ≠ []
  length_eq : batches.length = h.writings

variable {h : History σ α} {settings : Settings} {batches : List (List α)}

theorem accounts_start (settings : Settings) (own : σ) :
    (start settings own : History σ α).Accounts settings [] :=
  ⟨rfl, rfl, rfl, fun _ hbatch => absurd hbatch List.not_mem_nil, rfl⟩

theorem Accounts.processUnits (hh : h.Accounts settings batches) (visitor : Visitor σ α)
    (graph : SymbolGraph) (units : List CompilationUnit) :
    (h.after visitor (.processUnits graph units)).Accounts settings batches := by
  refine ⟨hh.settings_eq, ?_, hh.calls_eq, hh.forall_ne_nil, hh.length_eq⟩
  have hround := Round.balanced_run visitor (.ofUnits graph h.session.settings units)
    (h.session.rounds + 1) units h.session.own h.session.log
  -- the round starts with what was kept of all visits before
  refine Eq.trans hround ?_
  rw [show h.session.own.2.flatMap VisitRecord.kept = _ from hh.kept_eq, List.append_assoc]
  rfl

/-- Writing moves what is pending into a batch of its own. -/
theorem Accounts.finish (hh : h.Accounts settings batches) (visitor : Visitor σ α)
    (sink : Sink τ α) (state : τ)
    (hcalls : ∀ call ∈ (h.after visitor (.finish sink state)).calls, call.2 = .ok ()) :
    ∃ batches', (h.after visitor (.finish sink state)).Accounts settings batches' := by
  obtain ⟨made, hsession, hmade, hexpected⟩ :=
    Session.finish_traced sink state h.calls h.session
  obtain ⟨log, hlog⟩ := Session.finish_eq sink state h.session
  have hafter : h.after visitor (.finish sink state)
      = { session := { h.session with pending := [], log }, calls := h.calls ++ made,
          writings := if h.session.pending.isEmpty then h.writings else h.writings + 1 } := by
    rw [← hlog, ← hsession, ← hmade]
    rfl
  rw [hafter] at hcalls ⊢
  have hnew : made.map Prod.fst = Sink.batchCalls settings h.session.pending := by
    rw [← hh.settings_eq]
    exact hexpected fun call hcall => hcalls call (List.mem_append_right _ hcall)
  by_cases hpending : h.session.pending = []
  · -- no call is made, and no batch is added
    refine ⟨batches, hh.settings_eq, ?_, ?_, hh.forall_ne_nil, ?_⟩
    · exact hpending ▸ hh.kept_eq
    · show (h.calls ++ made).map Prod.fst = _
      rw [List.map_append, hh.calls_eq, hnew, hpending]
      exact List.append_nil _
    · rw [hh.length_eq, hpending]
      rfl
  · -- what was pending is the last batch
    refine ⟨batches ++ [h.session.pending], hh.settings_eq, ?_, ?_, ?_, ?_⟩
    · show h.visits.flatMap VisitRecord.kept = _
      rw [hh.kept_eq, List.flatten_append, List.flatten_singleton]
      exact (List.append_nil _).symm
    · show (h.calls ++ made).map Prod.fst = _
      rw [List.map_append, hh.calls_eq, hnew, List.flatMap_append, List.flatMap_singleton]
    · exact List.forall_mem_append.2
        ⟨hh.forall_ne_nil, List.forall_mem_singleton.2 hpending⟩
    · have hne : h.session.pending.isEmpty = false := by
        rw [List.isEmpty_eq_false_iff]
        exact hpending
      rw [List.length_append, hh.length_eq, hne]
      rfl

/-- The calls of sinks are never forgotten. -/
theorem mem_calls_after (visitor : Visitor σ α) (h : History σ α) (step : SessionStep α)
    {call : SinkCall α × Except Failure Unit} (hcall : call ∈ h.calls) :
    call ∈ (h.after visitor step).calls := by
  cases step with
  | process graph => exact hcall
  | processUnits graph units => exact hcall
  | finish sink state =>
    obtain ⟨made, -, hmade, -⟩ := Session.finish_traced sink state h.calls h.session
    show call ∈ (h.session.finish sink.traced (state, h.calls)).2.2.2
    rw [hmade]
    exact List.mem_append_left _ hcall

theorem exists_accounts_run (visitor : Visitor σ α) (settings : Settings) (own : σ)
    (steps : List (SessionStep α))
    (hcalls : ∀ call ∈ ((start settings own).run visitor steps).calls, call.2 = .ok ()) :
    ∃ batches, ((start settings own).run visitor steps).Accounts settings batches := by
  -- by the last step: no call before it failed either, since calls are never forgotten
  induction steps using List.reverseRecOn with
  | nil => exact ⟨[], accounts_start settings own⟩
  | append_singleton steps step ih =>
    rw [History.run, List.foldl_append] at hcalls ⊢
    obtain ⟨batches, hh⟩ := ih fun call hcall => hcalls call (mem_calls_after visitor _ step hcall)
    cases step with
    | process graph => exact ⟨batches, hh.processUnits visitor graph graph.units⟩
    | processUnits graph units => exact ⟨batches, hh.processUnits visitor graph units⟩
    | finish sink state => exact hh.finish visitor sink state hcalls

/-! ## What sinks were given -/

theorem filterMap_artifact?_callsFor (settings : Settings) (artifacts : List α) :
    (artifacts.flatMap (Sink.callsFor settings)).filterMap SinkCall.artifact?
      = artifacts.map Artifact.freeze := by
  induction artifacts with
  | nil => rfl
  | cons a rest ih =>
    rw [List.flatMap_cons, List.filterMap_append, ih]
    rfl

theorem filterMap_artifact?_batchCalls (settings : Settings) (batch : List α) :
    (Sink.batchCalls settings batch).filterMap SinkCall.artifact? = batch.map Artifact.freeze := by
  cases batch with
  | nil => rfl
  | cons a rest =>
    rw [Sink.batchCalls, List.filterMap_append, filterMap_artifact?_callsFor]
    exact List.append_nil _

theorem countP_isFlush_callsFor (settings : Settings) (artifacts : List α) :
    (artifacts.flatMap (Sink.callsFor settings)).countP SinkCall.isFlush = 0 := by
  induction artifacts with
  | nil => rfl
  | cons a rest ih =>
    rw [List.flatMap_cons, List.countP_append, ih]
    rfl

theorem countP_isFlush_batchCalls (settings : Settings) {batch : List α} (h : batch ≠ []) :
    (Sink.batchCalls settings batch).countP SinkCall.isFlush = 1 := by
  cases batch with
  | nil => exact absurd rfl h
  | cons a rest =>
    rw [Sink.batchCalls, List.countP_append, countP_isFlush_callsFor]
    rfl

/-- There are as many flushes as batches. -/
theorem countP_isFlush_flatMap_batchCalls (settings : Settings)
    (hbatches : ∀ batch ∈ batches, batch ≠ []) :
    (batches.flatMap (Sink.batchCalls settings)).countP SinkCall.isFlush = batches.length := by
  induction batches with
  | nil => rfl
  | cons batch rest ih =>
    obtain ⟨hbatch, hrest⟩ := List.forall_mem_cons.1 hbatches
    rw [List.flatMap_cons, List.countP_append, countP_isFlush_batchCalls settings hbatch,
      ih hrest, List.length_cons]
    omega

theorem Accounts.accepted_eq (hh : h.Accounts settings batches) :
    (h.calls.map Prod.fst).filterMap SinkCall.artifact?
      = batches.flatten.map Artifact.freeze := by
  rw [hh.calls_eq, List.filterMap_flatMap, List.map_flatten]
  simp only [filterMap_artifact?_batchCalls, List.flatMap_def]

theorem Accounts.flushes_eq (hh : h.Accounts settings batches) :
    (h.calls.map Prod.fst).countP SinkCall.isFlush = h.writings := by
  rw [hh.calls_eq, countP_isFlush_flatMap_batchCalls settings hh.forall_ne_nil, hh.length_eq]

/-- Each artifact is written behind its own reference, and each batch ends in a flush. -/
theorem batchCalls_of_ne_nil (settings : Settings) {batch : List α} (h : batch ≠ []) :
    Sink.batchCalls settings batch = (batch.flatMap fun a =>
      [.reference {
          beanType := Artifact.beanType a
          requiresMethodProcessing := Artifact.requiresMethodProcessing a
          contextScope := settings.contextScopeMarker ∈ (Artifact.annotations a).declared },
        .artifact (Artifact.freeze a)]) ++ [.flush] := by
  cases batch with
  | nil => exact absurd rfl h
  | cons a rest => rfl

/-- Where no call of a sink fails, what the visits came to is what was written in batches, followed
by what is pending. The sinks were called with a reference to each artifact right before the
artifact itself, frozen, and with one flush for each time that something pending was written. The
reference has the type of the bean, whether its methods have to be processed, and whether the marker
of the context scope is declared on it. All this is the history of the session that goes through the
same steps. -/
theorem artifacts_conserved (visitor : Visitor σ α) (settings : Settings) (own : σ)
    (steps : List (SessionStep α)) (h : History σ α)
    (hrun : (start settings own).run visitor steps = h)
    (hcalls : ∀ call ∈ h.calls, call.2 = .ok ()) :
    ∃ batches : List (List α),
      (∀ batch ∈ batches, batch ≠ []) ∧
      h.visits.flatMap VisitRecord.kept = batches.flatten ++ h.session.pending ∧
      (h.calls.map Prod.fst = batches.flatMap fun batch => (batch.flatMap fun a =>
        [.reference {
            beanType := Artifact.beanType a
            requiresMethodProcessing := Artifact.requiresMethodProcessing a
            contextScope := settings.contextScopeMarker ∈ (Artifact.annotations a).declared },
          .artifact (Artifact.freeze a)]) ++ [.flush]) ∧
      (h.calls.map Prod.fst).filterMap SinkCall.artifact?
        = batches.flatten.map Artifact.freeze ∧
      (h.calls.map Prod.fst).countP SinkCall.isFlush = h.writings ∧
      h.session.forget = steps.foldl (Session.after visitor) { settings, own } := by
  subst hrun
  obtain ⟨batches, hh⟩ := exists_accounts_run visitor settings own steps hcalls
  refine ⟨batches, hh.forall_ne_nil, hh.kept_eq, ?_, hh.accepted_eq, hh.flushes_eq,
    forget_run visitor (start settings own) steps⟩
  rw [hh.calls_eq, List.flatMap_def, List.flatMap_def]
  refine congrArg List.flatten (List.map_congr_left fun batch hbatch => ?_)
  exact batchCalls_of_ne_nil settings (hh.forall_ne_nil batch hbatch)

/-- A visitor that makes a definition of every class and finds fault with every second. -/
def everySecond : Visitor Nat BeanDefinition := fun _ e => do
  let visit ← get
  set { visit with own := visit.own + 1 }
  if visit.own % 2 = 1 then
    VisitM.report ⟨.error, "every second", e.symbol⟩
  return [.ofClass e]

/-- A graph with three classes and a symbol that it does not declare. -/
def threeClasses : SymbolGraph :=
  .ofEdits [
    .addClass "A" .plain, .addClass "B" .plain, .addClass "C" .plain,
    .addUnit (.ofPath "a.kt" [.ofClass "A", .ofClass "Gone", .ofClass "B", .ofClass "C"])]

/-- Two rounds, each of which is written, a writing with nothing to write, and a round more. -/
def threeRounds : List (SessionStep BeanDefinition) :=
  [.process threeClasses, .finish Recording.sink {}, .finish Recording.sink {},
    .processUnits threeClasses [.ofPath "b.java" [.ofClass "A", .ofClass "B"]],
    .finish Recording.sink {}, .process threeClasses]

/-- A graph with the same classes, of which the first is marked for the scope of the context. -/
def markedClasses : SymbolGraph :=
  .ofEdits [
    .addClass "A" .plain, .addClass "B" .plain, .addClass "C" .plain,
    .annotate (.ofClass "A") ({} : Settings).contextScopeMarker,
    .addUnit (.ofPath "a.kt" [.ofClass "A", .ofClass "Gone", .ofClass "B", .ofClass "C"])]

/-- A round over these classes, which is written, before the other rounds. -/
def fourRounds : List (SessionStep BeanDefinition) :=
  .process markedClasses :: .finish Recording.sink {} :: threeRounds

/-- Of eleven visits, six are kept; four artifacts are written in three batches, and two are
pending. The first batch has the marked class and another. -/
theorem artifacts_conserved_fourRounds :
    ∃ h : History Nat BeanDefinition, (start {} 0).run everySecond fourRounds = h ∧
      (∀ call ∈ h.calls, call.2 = .ok ()) ∧ h.visits.length = 11 ∧ h.writings = 3 ∧
      (∃ a c rest, h.calls.map Prod.fst
        = .reference { beanType := "A", requiresMethodProcessing := false, contextScope := true }
          :: .artifact a
          :: .reference { beanType := "C", requiresMethodProcessing := false, contextScope := false }
          :: .artifact c :: .flush :: rest) ∧
      ∃ batches : List (List BeanDefinition),
        (∀ batch ∈ batches, batch ≠ []) ∧
        h.visits.flatMap VisitRecord.kept = batches.flatten ++ h.session.pending ∧
        (h.calls.map Prod.fst = batches.flatMap fun batch => (batch.flatMap fun a =>
          [.reference {
              beanType := Artifact.beanType a
              requiresMethodProcessing := Artifact.requiresMethodProcessing a
              contextScope :=
                ({} : Settings).contextScopeMarker ∈ (Artifact.annotations a).declared },
            .artifact (Artifact.freeze a)]) ++ [.flush]) ∧
        (h.calls.map Prod.fst).filterMap SinkCall.artifact?
          = batches.flatten.map Artifact.freeze ∧
        (h.calls.map Prod.fst).countP SinkCall.isFlush = 3 ∧
        h.session.forget
          = fourRounds.foldl (Session.after everySecond) { settings := {}, own := 0 } := by
  have hcalls : ∀ call ∈ ((start {} 0).run everySecond fourRounds).calls, call.2 = .ok () := by
    have hresults : ((start {} 0).run everySecond fourRounds).calls.map Prod.snd
        = List.replicate 11 (.ok ()) := rfl
    intro call hcall
    exact List.eq_of_mem_replicate (hresults ▸ List.mem_map_of_mem hcall)
  exact ⟨_, rfl, hcalls, rfl, rfl, ⟨_, _, _, rfl⟩,
    artifacts_conserved everySecond {} 0 fourRounds _ rfl hcalls⟩

end History

end BeanProcessing

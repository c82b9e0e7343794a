import BeanProcessing.Proofs.Session.Journal
import Mathlib.Algebra.GroupWithZero.Nat
import Mathlib.Data.List.Forall2

/-!
# Accounting for rounds

Where failures do not end a round, every round comes to a report, and its numbers are those of lists
that are known: every declaration is excluded, is a candidate or has failed; every candidate is
visited once, in the order of the survey; what is added to the pending artifacts and to the failures
is what came of the visits, behind the failures of the survey. Rounds and writings in any order keep
the failures and the diagnostics that there are.

`Session.Accounted` is what is said of one round. It holds of every round of a session, because a
session counts its rounds and keeps its settings from step to step.
-/

namespace BeanProcessing

variable {σ σ' α κ : Type}

/-! ## Counts by reason -/

namespace Table

variable [DecidableEq κ] {k : κ} {counts : List (κ × Nat)}

theorem sum_insertEntry_zero (h : lookup k counts = none) :
    ((insertEntry k 0 counts).map Prod.snd).sum = (counts.map Prod.snd).sum := by
  induction counts with
  | nil => rfl
  | cons entry rest ih =>
    obtain ⟨key, count⟩ := entry
    by_cases hkey : key = k
    · rw [lookup, if_pos hkey] at h
      cases h
    · rw [lookup, if_neg hkey] at h
      rw [insertEntry, if_neg hkey, List.map_cons, List.sum_cons, ih h, List.map_cons,
        List.sum_cons]

theorem sum_modifyEntry_succ (h : (lookup k counts).isSome) :
    ((modifyEntry k (· + 1) counts).map Prod.snd).sum = (counts.map Prod.snd).sum + 1 := by
  induction counts with
  | nil => cases h
  | cons entry rest ih =>
    obtain ⟨key, count⟩ := entry
    by_cases hkey : key = k
    · rw [modifyEntry, if_pos hkey, List.map_cons, List.map_cons, List.sum_cons, List.sum_cons]
      omega
    · rw [lookup, if_neg hkey] at h
      rw [modifyEntry, if_neg hkey, List.map_cons, List.map_cons, List.sum_cons, List.sum_cons,
        ih h]
      omega

end Table

namespace Round

/-- One reason more raises the counts by one. -/
theorem sum_count (counts : Table Exclusion Nat) (reason : Exclusion) :
    ((counts.insertIfNew reason 0).modify reason (· + 1)).values.sum
      = counts.values.sum + 1 := by
  unfold Table.insertIfNew Table.contains
  by_cases hcontains : (counts.get? reason).isSome = true
  · rw [if_pos hcontains]
    exact Table.sum_modifyEntry_succ hcontains
  · rw [if_neg hcontains]
    -- a reason that is new comes in with a count of zero, and is counted then
    have hnone : Table.lookup reason counts.entries = none :=
      Option.not_isSome_iff_eq_none.1 hcontains
    have hsome : (Table.lookup reason (Table.insertEntry reason 0 counts.entries)).isSome := by
      rw [Table.lookup_insertEntry, if_pos rfl]
      rfl
    exact (Table.sum_modifyEntry_succ hsome).trans
      (congrArg (· + 1) (Table.sum_insertEntry_zero hnone))

/-- The counts of all reasons add up to the number of reasons given. -/
theorem sum_tally (reasons : List Exclusion) : (tally reasons).values.sum = reasons.length := by
  have hfold : ∀ counts : Table Exclusion Nat,
      (reasons.foldl (fun counts reason =>
        (counts.insertIfNew reason 0).modify reason (· + 1)) counts).values.sum
        = counts.values.sum + reasons.length := by
    induction reasons with
    | nil => exact fun _ => rfl
    | cons reason rest ih =>
      intro counts
      rw [List.foldl_cons, ih, sum_count, List.length_cons]
      omega
  exact (hfold ∅).trans (Nat.zero_add _)

end Round

/-! ## One round -/

namespace Session

/-- Whether a report accounts for what a round made of a survey has added to a session; `made` is
what came of showing the candidates to the visitor, and `outcomes` is what each visit comes to. -/
structure Accounted (s after : Session (σ × List (Showing α)) α) (survey : Survey)
    (report : RoundReport) (made : List (Showing α)) (outcomes : List (VisitOutcome α)) :
    Prop where
  declarations_eq : report.declarations
    = report.excluded.values.sum + report.candidates + survey.failures.length
  candidates_eq : report.candidates = survey.candidates.length
  /-- The visitor was shown the candidates, each once, and nothing else. -/
  elements_eq : made.map (·.element) = survey.candidates
  journal_eq : after.own.2 = s.own.2 ++ made
  comesTo : List.Forall₂ Showing.ComesTo made outcomes
  pending_eq : after.pending = s.pending ++ outcomes.flatMap VisitOutcome.artifacts
  artifacts_eq : report.artifacts = (outcomes.flatMap VisitOutcome.artifacts).length
  failures_eq : after.failures
    = s.failures ++ (survey.failures ++ outcomes.filterMap VisitOutcome.failure?)
  failureCount_eq : report.failures
    = (survey.failures ++ outcomes.filterMap VisitOutcome.failure?).length

/-- A round that no failure ends comes to a report, which accounts for it. -/
theorem exists_accounted (visitor : Visitor σ α) (graph : SymbolGraph)
    (units : List CompilationUnit) {s : Session (σ × List (Showing α)) α}
    (hlenient : s.settings.failFast = false) :
    ∃ report after made outcomes,
      s.processUnits visitor.journaling graph units = (.ok report, after) ∧
      report.round = s.rounds + 1 ∧
      s.Accounted after ((Resolver.ofUnits graph s.settings units).classifiedSurvey
        (units.flatMap (·.declarations))) report made outcomes := by
  let r := Resolver.ofUnits graph s.settings units
  let survey := r.classifiedSurvey (units.flatMap (·.declarations))
  have hr : r.settings.failFast = false := hlenient
  have hverdicts : ((r.survey units).run.run { log := s.log }).1 = .ok survey :=
    (Resolver.agrees_survey hr units _ (Resolver.faithful_of_answers_eq_empty rfl)).1
  obtain ⟨made, last, ending, after, hvisited, hrun⟩ :=
    Round.run_of_survey visitor r (s.rounds + 1) units s.own (Prod.ext hverdicts rfl)
  -- a visit ends a round only where failures do
  obtain rfl : last = none := Option.eq_none_iff_forall_not_mem.2 fun x hx => by
    have hstrict := (hvisited.failFast_of_last x hx).1
    rw [hr] at hstrict
    cases hstrict
  obtain rfl : ending = none := hvisited.ending_eq
  have hjournal := hvisited.journal_eq
  rw [Option.toList_none, List.append_nil] at hjournal
  have hartifacts : (made.map Showing.outcome).flatMap VisitOutcome.artifacts
      = made.flatMap (·.record.kept) := by
    simp only [List.flatMap_map, Showing.artifacts_outcome]
  have hfailures : (made.map Showing.outcome).filterMap VisitOutcome.failure?
      = made.filterMap Showing.failure? := by
    simp only [List.filterMap_map, Function.comp_def, Showing.failure?_outcome]
  let report := after.numbers (s.rounds + 1) survey
  refine ⟨report, s.keep (after.tell (after.endEvent report)), made, made.map Showing.outcome, ?_,
    rfl, ?_⟩
  · rw [processUnits_eq]
    exact congrArg (Prod.map id s.keep) hrun
  · have hseen : survey.seen = (Round.tally (survey.excluded.map (·.2))).values.sum
        + survey.candidates.length + survey.failures.length := by
      rw [Round.sum_tally, List.length_map, ← survey.length_lists]
      omega
    have hadded := hvisited.artifacts_eq
    have hfailed := hvisited.failures_eq
    rw [← hartifacts] at hadded
    rw [← hfailures] at hfailed
    exact {
      declarations_eq := hseen
      candidates_eq := rfl
      elements_eq := hvisited.elements_eq rfl
      journal_eq := hjournal
      comesTo := List.forall₂_map_right_iff.2 (List.forall₂_same.2 fun x _ => x.comesTo_outcome)
      pending_eq := congrArg (s.pending ++ ·) hadded
      artifacts_eq := congrArg List.length hadded
      failures_eq := congrArg (s.failures ++ ·) hfailed
      failureCount_eq := congrArg List.length hfailed }

end Session

/-! ## Steps of a session -/

/-- Whether a step is a round. -/
def SessionStep.isRound : SessionStep α → Bool
  | .process _ => true
  | .processUnits _ _ => true
  | .finish _ _ => false

variable [Artifact α]

namespace Session

/-- A step keeps the settings, the failures and the diagnostics, and counts a round. -/
theorem after_keeps (visitor : Visitor σ α) (s : Session σ α) (step : SessionStep α) :
    (s.after visitor step).settings = s.settings ∧
      (s.after visitor step).rounds = s.rounds + [step].countP SessionStep.isRound ∧
      s.failures <+: (s.after visitor step).failures ∧
      s.diagnostics <+: (s.after visitor step).diagnostics := by
  have hround : ∀ round : Round σ α, (s.keep round).settings = s.settings ∧
      (s.keep round).rounds = s.rounds + 1 ∧ s.failures <+: (s.keep round).failures ∧
      s.diagnostics <+: (s.keep round).diagnostics :=
    fun _ => ⟨rfl, rfl, List.prefix_append _ _, List.prefix_append _ _⟩
  cases step with
  | process graph => exact hround _
  | processUnits graph units => exact hround _
  | finish sink state =>
    obtain ⟨log, hfinish⟩ := s.finish_eq sink state
    show (s.finish sink state).2.1.settings = _ ∧ (s.finish sink state).2.1.rounds = _
      ∧ _ <+: (s.finish sink state).2.1.failures ∧ _ <+: (s.finish sink state).2.1.diagnostics
    rw [hfinish]
    exact ⟨rfl, rfl, List.prefix_rfl, List.prefix_rfl⟩

theorem settings_foldl_after (visitor : Visitor σ α) (steps : List (SessionStep α))
    (s : Session σ α) : (steps.foldl (after visitor) s).settings = s.settings := by
  induction steps generalizing s with
  | nil => rfl
  | cons step rest ih => rw [List.foldl_cons, ih, (s.after_keeps visitor step).1]

/-- A session counts its rounds. -/
theorem rounds_foldl_after (visitor : Visitor σ α) (steps : List (SessionStep α))
    (s : Session σ α) :
    (steps.foldl (after visitor) s).rounds = s.rounds + steps.countP SessionStep.isRound := by
  induction steps generalizing s with
  | nil => rfl
  | cons step rest ih =>
    rw [List.foldl_cons, ih, (s.after_keeps visitor step).2.1, Nat.add_assoc,
      ← List.countP_append, List.singleton_append]

variable {f : σ' → σ} {visitor' : Visitor σ' α} {visitor : Visitor σ α}

theorem mapOwn_after (h : visitor'.Extends f visitor) (s : Session σ' α) (step : SessionStep α) :
    (s.after visitor' step).mapOwn f = (s.mapOwn f).after visitor step := by
  cases step with
  | process graph => exact congrArg Prod.snd (mapOwn_processUnits h graph graph.units s)
  | processUnits graph units => exact congrArg Prod.snd (mapOwn_processUnits h graph units s)
  | finish sink state => exact mapOwn_finish sink state s

theorem mapOwn_foldl_after (h : visitor'.Extends f visitor) (steps : List (SessionStep α))
    (s : Session σ' α) :
    (steps.foldl (after visitor') s).mapOwn f = steps.foldl (after visitor) (s.mapOwn f) := by
  induction steps generalizing s with
  | nil => rfl
  | cons step rest ih => rw [List.foldl_cons, ih, mapOwn_after h, List.foldl_cons]

/-- Where failures do not end a round, a session with a journal is the session without, and after
any steps the next round comes to a report that accounts for it. It has the number of the round, and
the survey is the one that gives each declaration its classification. No step takes away a failure
or a diagnostic that is there. -/
theorem rounds_accounted (visitor : Visitor σ α) {settings : Settings}
    (hlenient : settings.failFast = false) (own : σ) (steps : List (SessionStep α))
    (s : Session (σ × List (Showing α)) α)
    (hrun : steps.foldl (after visitor.journaling) { settings, own := (own, []) } = s) :
    s.mapOwn Prod.fst = steps.foldl (after visitor) { settings, own } ∧
      (∀ step, s.failures <+: (s.after visitor.journaling step).failures ∧
        s.diagnostics <+: (s.after visitor.journaling step).diagnostics) ∧
      ∀ graph units, ∃ report after made outcomes,
        s.processUnits visitor.journaling graph units = (.ok report, after) ∧
        (s.mapOwn Prod.fst).processUnits visitor graph units
          = (.ok report, after.mapOwn Prod.fst) ∧
        report.round = steps.countP SessionStep.isRound + 1 ∧
        s.Accounted after ((Resolver.ofUnits graph settings units).classifiedSurvey
          (units.flatMap (·.declarations))) report made outcomes := by
  have hsettings : s.settings = settings := by rw [← hrun, settings_foldl_after]
  have hrounds : s.rounds = steps.countP SessionStep.isRound := by
    rw [← hrun, rounds_foldl_after, Nat.zero_add]
  refine ⟨?_, fun step => (s.after_keeps visitor.journaling step).2.2, fun graph units => ?_⟩
  · rw [← hrun, mapOwn_foldl_after visitor.journaling_extends]
    rfl
  · obtain ⟨report, after, made, outcomes, hprocess, hnumber, haccounted⟩ :=
      s.exists_accounted visitor graph units (hsettings ▸ hlenient)
    rw [hsettings] at haccounted
    refine ⟨report, after, made, outcomes, hprocess, ?_, by rw [hnumber, hrounds], haccounted⟩
    rw [← mapOwn_processUnits visitor.journaling_extends, hprocess]
    rfl

/-- After three rounds and three writings there are six failures. The fourth round makes three
visits, and the second of them is rejected in the words of its report. -/
theorem rounds_accounted_threeRounds :
    ({} : Settings).failFast = false ∧
      ∃ s report after made outcomes,
        History.threeRounds.foldl (Session.after History.everySecond.journaling)
          { settings := {}, own := (0, []) } = s ∧
        s.processUnits History.everySecond.journaling History.threeClasses
          History.threeClasses.units = (.ok report, after) ∧
        report.round = 4 ∧
        s.Accounted after ((Resolver.ofUnits History.threeClasses {}
          History.threeClasses.units).classifiedSurvey
            (History.threeClasses.units.flatMap (·.declarations))) report made outcomes ∧
        made.length = 3 ∧ s.failures.length = 6 ∧
        outcomes.filterMap VisitOutcome.failure? = [⟨.ofClass "B", .rejected "every second"⟩] := by
  have hlenient : ({} : Settings).failFast = false := rfl
  obtain ⟨-, -, hround⟩ :=
    rounds_accounted History.everySecond hlenient 0 History.threeRounds _ rfl
  obtain ⟨report, after, made, outcomes, hprocess, -, hnumber, haccounted⟩ :=
    hround History.threeClasses History.threeClasses.units
  refine ⟨hlenient, _, report, after, made, outcomes, rfl, hprocess, hnumber, haccounted, ?_, ?_,
    ?_⟩
  · rw [← List.length_map, haccounted.elements_eq]
    decide +kernel
  · decide +kernel
  · have hfailures := haccounted.failures_eq
    rw [← show _ = after from congrArg Prod.snd hprocess, ← List.append_assoc] at hfailures
    -- behind the failures that there were and that of the survey there is one more
    exact List.append_cancel_left (hfailures.symm.trans rfl)

end Session

end BeanProcessing

import BeanProcessing.Proofs.Session.FailFast

/-!
# Journals of visits

A visitor that keeps a journal notes of each visit which class it was shown, what it returned and
what it reported. What a round adds to a session is a matter of these notes and of the survey:
`Round.Visited` says what the visits add, to the artifacts, to the failures and to the diagnostics,
whether or not a failure ends the round.
-/

namespace BeanProcessing

variable {σ α : Type}

/-! ## What a visit counts as -/

theorem Diagnostic.lastError?_append (before reports : List Diagnostic)
    (h : reports.any (·.severity == .error) = true) :
    lastError? (before ++ reports) = lastError? reports := by
  have hfound : (reports.reverse.find? isError).isSome = true := by
    rw [List.find?_isSome]
    obtain ⟨d, hd, herror⟩ := List.any_eq_true.1 h
    exact ⟨d, List.mem_reverse.2 hd, herror⟩
  rw [lastError?, lastError?, List.reverse_append, List.find?_append,
    Option.or_of_isSome hfound]

/-- The last error stands in front of reports that are no errors. -/
theorem Diagnostic.exists_append_of_lastError? {reports : List Diagnostic} {message : String}
    (h : lastError? reports = some message) :
    ∃ before d rest, reports = before ++ d :: rest ∧ d.severity = .error ∧ d.message = message ∧
      ∀ d' ∈ rest, d'.severity ≠ .error := by
  obtain ⟨d, hd, rfl⟩ := Option.map_eq_some_iff.1 h
  obtain ⟨herror, rest, before, hreports, hrest⟩ := List.find?_eq_some_iff_append.1 hd
  refine ⟨before.reverse, d, rest.reverse, ?_, beq_iff_eq.1 herror, rfl, ?_⟩
  · rw [List.reverse_eq_iff] at hreports
    rw [hreports, List.reverse_append, List.reverse_cons, List.append_assoc, List.singleton_append]
  · intro d' hd' herror'
    have hnone : (!d'.isError) = true := hrest d' (List.mem_reverse.1 hd')
    rw [isError, herror'] at hnone
    cases hnone

theorem Diagnostic.lastError?_eq_none_iff (reports : List Diagnostic) :
    lastError? reports = none ↔ reports.any (·.severity == .error) = false := by
  rw [lastError?, Option.map_eq_none_iff, List.find?_eq_none, List.any_eq_false]
  simp only [List.mem_reverse, isError]

/-- The failure that a visit counts as: the one that it returned, or else a rejection with the last
error that it reported. -/
def VisitRecord.failure? (v : VisitRecord α) : Option Failure :=
  match v.result with
  | .error failure => some failure
  | .ok _ => (Diagnostic.lastError? v.reports).map .rejected

/-- Nothing is kept of a visit that counts as a failure. -/
theorem VisitRecord.kept_eq_nil {v : VisitRecord α} {failure : Failure}
    (h : v.failure? = some failure) : v.kept = [] := by
  unfold failure? at h
  unfold kept
  cases hresult : v.result with
  | error failure' => rfl
  | ok artifacts =>
    rw [hresult] at h
    dsimp only at h ⊢
    refine if_pos ?_
    by_contra hnone
    rw [Bool.not_eq_true, ← Diagnostic.lastError?_eq_none_iff] at hnone
    rw [hnone] at h
    cases h

/-- What came of showing a class to a visitor. -/
structure Showing (α : Type) where
  element : ClassElement
  record : VisitRecord α

namespace Showing

/-- The failure of the class that was shown, if the visit counts as one. -/
def failure? (x : Showing α) : Option DeclarationFailure :=
  x.record.failure?.map fun failure => ⟨x.element.symbol, failure⟩

/-- What is reported of a visit that does not end its round: the reports of the visit, and that of
its failure. -/
def diagnostics (x : Showing α) : List Diagnostic :=
  x.record.reports ++ x.failure?.toList.flatMap DeclarationFailure.reportsOfSkip

theorem diagnostics_of_failure?_eq_none {x : Showing α} (h : x.failure? = none) :
    x.diagnostics = x.record.reports := by
  rw [diagnostics, h]
  exact List.append_nil _

end Showing

/-! ## What a visit comes to -/

/-- What showing a class to a visitor can come to. -/
inductive VisitOutcome (α : Type) where
  | kept (artifacts : List α)
  | failed (failure : DeclarationFailure)

namespace VisitOutcome

/-- The artifacts that are kept; a failure has none. -/
def artifacts : VisitOutcome α → List α
  | kept artifacts => artifacts
  | failed _ => []

/-- The failure, if it is one. -/
def failure? : VisitOutcome α → Option DeclarationFailure
  | kept _ => none
  | failed failure => some failure

end VisitOutcome

namespace Showing

/-- Whether a visit comes to an outcome, told of what was returned and reported in it. -/
inductive ComesTo : Showing α → VisitOutcome α → Prop where
  /-- Artifacts are kept that were returned without an error being reported. -/
  | kept (e : ClassElement) (artifacts : List α) (reports : List Diagnostic)
      (hreports : ∀ d ∈ reports, d.severity ≠ .error) :
      ComesTo ⟨e, ⟨.ok artifacts, reports⟩⟩ (.kept artifacts)
  /-- An error that was returned is the failure, whatever was reported. -/
  | failed (e : ClassElement) (failure : Failure) (reports : List Diagnostic) :
      ComesTo ⟨e, ⟨.error failure, reports⟩⟩ (.failed ⟨e.symbol, failure⟩)
  /-- Artifacts are rejected, in the words of the last error, if an error was reported. -/
  | rejected (e : ClassElement) (artifacts : List α) (before : List Diagnostic) (d : Diagnostic)
      (rest : List Diagnostic) (hd : d.severity = .error)
      (hrest : ∀ d' ∈ rest, d'.severity ≠ .error) :
      ComesTo ⟨e, ⟨.ok artifacts, before ++ d :: rest⟩⟩ (.failed ⟨e.symbol, .rejected d.message⟩)

/-- The outcome of a visit. -/
def outcome (x : Showing α) : VisitOutcome α :=
  match x.failure? with
  | some failure => .failed failure
  | none => .kept x.record.kept

theorem failure?_outcome (x : Showing α) : x.outcome.failure? = x.failure? := by
  unfold outcome
  cases x.failure? with
  | none => rfl
  | some failure => rfl

theorem artifacts_outcome (x : Showing α) : x.outcome.artifacts = x.record.kept := by
  unfold outcome
  cases hfailure : x.failure? with
  | none => rfl
  | some failure =>
    obtain ⟨cause, hcause, -⟩ := Option.map_eq_some_iff.1 hfailure
    exact (VisitRecord.kept_eq_nil hcause).symm

/-- A visit comes to its outcome. -/
theorem comesTo_outcome (x : Showing α) : x.ComesTo x.outcome := by
  obtain ⟨e, result, reports⟩ := x
  unfold outcome failure? VisitRecord.failure?
  cases result with
  | error failure => exact .failed e failure reports
  | ok artifacts =>
    dsimp only
    cases hlast : Diagnostic.lastError? reports with
    | some message =>
      obtain ⟨before, d, rest, rfl, hd, rfl, hrest⟩ := Diagnostic.exists_append_of_lastError? hlast
      exact .rejected e artifacts before d rest hd hrest
    | none =>
      have hnone := (Diagnostic.lastError?_eq_none_iff reports).1 hlast
      have hkept : VisitRecord.kept ⟨.ok artifacts, reports⟩ = artifacts := by
        unfold VisitRecord.kept
        dsimp only
        rw [hnone]
        rfl
      dsimp only [Option.map_none]
      rw [hkept]
      refine .kept e artifacts reports fun d hd herror => ?_
      rw [List.any_eq_false] at hnone
      exact hnone d hd (beq_iff_eq.2 herror)

end Showing

/-- The visitor that keeps a journal of its visits. -/
def Visitor.journaling (visitor : Visitor σ α) : Visitor (σ × List (Showing α)) α :=
  visitor.noting fun element result reports => { element, record := { result, reports } }

theorem Visitor.journaling_extends (visitor : Visitor σ α) :
    visitor.journaling.Extends Prod.fst visitor :=
  visitor.noting_extends _

namespace Round

/-- A visit comes to the failure that it counts as, and otherwise to what is kept of it. -/
theorem outcome_eq (v : VisitRecord α) (before : List Diagnostic) :
    outcome v.result before (before ++ v.reports) = match v.failure? with
      | some failure => .error failure
      | none => .ok v.kept := by
  obtain ⟨result, reports⟩ := v
  unfold outcome VisitRecord.failure? VisitRecord.kept
  cases result with
  | error failure => rfl
  | ok artifacts =>
    dsimp only
    by_cases herror : reports.any (·.severity == .error) = true
    · rw [if_pos ((Diagnostic.errorCount_lt_append_iff before reports).2 herror),
        Diagnostic.lastError?_append before reports herror]
      cases hlast : Diagnostic.lastError? reports with
      | some message => rfl
      | none => rw [(Diagnostic.lastError?_eq_none_iff reports).1 hlast] at herror; cases herror
    · rw [if_neg (mt (Diagnostic.errorCount_lt_append_iff before reports).1 herror), if_neg herror,
        (Diagnostic.lastError?_eq_none_iff reports).2 (Bool.not_eq_true _ ▸ herror)]
      rfl

theorem visit_journaling (visitor : Visitor σ α) (r : Resolver) (e : ClassElement)
    (round : Round (σ × List (Showing α)) α) :
    ∃ v own memory, round.visit visitor.journaling r e
      = (match v.failure? with
          | some failure => .error failure
          | none => .ok v.kept,
        { round with
          own := (own, round.own.2 ++ [{ element := e, record := v }])
          memory
          diagnostics := round.diagnostics ++ v.reports }) := by
  let made := (visitor r e).run.run { own := round.own.1, memory := round.memory }
  refine ⟨⟨made.1, made.2.reports⟩, made.2.own, made.2.memory, ?_⟩
  rw [← outcome_eq _ round.diagnostics]
  rfl

/-! ## What the visits add -/

variable {r : Resolver} {es rest : List ClassElement}
  {round next : Round (σ × List (Showing α)) α}
  {visits : Option Failure × Round (σ × List (Showing α)) α} {done : List (Showing α)}
  {last : Option (Showing α)}

/-- What visiting classes adds to a round; `done` are the visits after which the round went on, and
`last` is the visit that ended it, if there is one. -/
structure Visited (r : Resolver) (es : List ClassElement) (round : Round (σ × List (Showing α)) α)
    (visits : Option Failure × Round (σ × List (Showing α)) α) (done : List (Showing α))
    (last : Option (Showing α)) : Prop where
  ending_eq : visits.1 = last.bind (·.record.failure?)
  journal_eq : visits.2.own.2 = round.own.2 ++ (done ++ last.toList)
  artifacts_eq : visits.2.artifacts = round.artifacts ++ done.flatMap (·.record.kept)
  failures_eq : visits.2.failures = round.failures ++ done.filterMap Showing.failure?
  diagnostics_eq : visits.2.diagnostics = round.diagnostics
    ++ (done.flatMap Showing.diagnostics ++ last.toList.flatMap (·.record.reports))
  elements_eq : last = none → done.map (·.element) = es
  failFast_of_last : ∀ x ∈ last, r.settings.failFast = true
    ∧ ∃ failure, x.record.failure? = some failure
  failure?_eq_none : r.settings.failFast = true → ∀ x ∈ done, x.failure? = none

theorem Visited.nil (r : Resolver) (round : Round (σ × List (Showing α)) α) :
    Visited r [] round (none, round) [] none where
  ending_eq := rfl
  journal_eq := (List.append_nil _).symm
  artifacts_eq := (List.append_nil _).symm
  failures_eq := (List.append_nil _).symm
  diagnostics_eq := (List.append_nil _).symm
  elements_eq _ := rfl
  failFast_of_last _ hx := by cases hx
  failure?_eq_none _ _ hx := by cases hx

/-- A visit that ends the round is the last; nothing is kept of it but what it reported. -/
theorem Visited.stop (x : Showing α) {failure : Failure}
    (hfailure : x.record.failure? = some failure) (hstrict : r.settings.failFast = true)
    (hjournal : next.own.2 = round.own.2 ++ [x]) (hartifacts : next.artifacts = round.artifacts)
    (hfailures : next.failures = round.failures)
    (hdiagnostics : next.diagnostics = round.diagnostics ++ x.record.reports) :
    Visited r es round (some failure, next) [] (some x) where
  ending_eq := hfailure.symm
  journal_eq := hjournal
  artifacts_eq := hartifacts.trans (List.append_nil _).symm
  failures_eq := hfailures.trans (List.append_nil _).symm
  diagnostics_eq := hdiagnostics.trans (congrArg (round.diagnostics ++ ·) (List.append_nil _).symm)
  elements_eq hnone := by cases hnone
  failFast_of_last := by
    rintro y ⟨⟩
    exact ⟨hstrict, failure, hfailure⟩
  failure?_eq_none _ _ hx := by cases hx

/-- A visit after which the round goes on comes in front of the others. -/
theorem Visited.cons (x : Showing α) (h : Visited r rest next visits done last)
    (hjournal : next.own.2 = round.own.2 ++ [x])
    (hartifacts : next.artifacts = round.artifacts ++ x.record.kept)
    (hfailures : next.failures = round.failures ++ x.failure?.toList)
    (hdiagnostics : next.diagnostics = round.diagnostics ++ x.diagnostics)
    (hfailFast : r.settings.failFast = true → x.failure? = none) :
    Visited r (x.element :: rest) round visits (x :: done) last where
  ending_eq := h.ending_eq
  journal_eq := by
    rw [h.journal_eq, hjournal, List.append_assoc]
    rfl
  artifacts_eq := by rw [h.artifacts_eq, hartifacts, List.flatMap_cons, List.append_assoc]
  failures_eq := by
    rw [h.failures_eq, hfailures, List.append_assoc, List.filterMap_cons]
    cases x.failure? with
    | none => rfl
    | some f => rfl
  diagnostics_eq := by
    rw [h.diagnostics_eq, hdiagnostics, List.flatMap_cons, List.append_assoc, List.append_assoc]
  elements_eq hlast := by rw [List.map_cons, h.elements_eq hlast]
  failFast_of_last := h.failFast_of_last
  failure?_eq_none hstrict := List.forall_mem_cons.2 ⟨hfailFast hstrict, h.failure?_eq_none hstrict⟩

/-- Visiting classes adds what came of the visits. -/
theorem exists_visited (visitor : Visitor σ α) (r : Resolver) (es : List ClassElement)
    (round : Round (σ × List (Showing α)) α) :
    ∃ done last, Visited r es round (visitEach visitor.journaling r es round) done last := by
  induction es generalizing round with
  | nil => exact ⟨[], none, .nil r round⟩
  | cons e rest ih =>
    obtain ⟨v, own, memory, hvisit⟩ := visit_journaling visitor r e round
    let x : Showing α := { element := e, record := v }
    have hx : x.failure? = v.failure?.map fun failure => ⟨e.symbol, failure⟩ := rfl
    unfold visitEach
    rw [hvisit]
    -- the round goes on after a visit without a failure and after a failure that is skipped
    cases hfailure : v.failure? with
    | none =>
      rw [hfailure] at hx
      obtain ⟨done, last, hrest⟩ := ih _
      refine ⟨x :: done, last, hrest.cons x rfl rfl ?_ ?_ fun _ => hx⟩
      · rw [hx]
        exact (List.append_nil _).symm
      · rw [Showing.diagnostics_of_failure?_eq_none hx]
    | some failure =>
      rw [hfailure] at hx
      dsimp only
      by_cases hfailFast : r.settings.failFast = true
      · rw [if_pos hfailFast]
        exact ⟨[], some x, .stop x hfailure hfailFast rfl rfl rfl rfl⟩
      · rw [if_neg hfailFast]
        obtain ⟨memory', hskip⟩ := skip_eq e failure { round with
          own := (own, round.own.2 ++ [x])
          memory
          diagnostics := round.diagnostics ++ v.reports }
        rw [hskip]
        obtain ⟨done, last, hrest⟩ := ih _
        refine ⟨x :: done, last, hrest.cons x rfl ?_ ?_ ?_ fun hstrict => absurd hstrict hfailFast⟩
        · rw [VisitRecord.kept_eq_nil hfailure]
          exact (List.append_nil _).symm
        · rw [hx]
          rfl
        · rw [Showing.diagnostics, hx, ← List.append_assoc]
          exact congrArg (_ ++ ·) (List.append_nil _).symm

/-! ## Whole rounds -/

/-- A round that gets beyond its survey adds the failures of the survey and then what came of the
visits; it ends with the failure of the visit that ended it. -/
theorem run_of_survey (visitor : Visitor σ α) (r : Resolver) (number : Nat)
    (units : List CompilationUnit) (own : σ × List (Showing α)) {log : Log} {survey : Survey}
    {memory : Memory} (hsurvey : (r.survey units).run.run { log } = (.ok survey, memory)) :
    ∃ done last ending after, Visited r survey.candidates
        { own, memory, diagnostics := survey.failures.map DeclarationFailure.report,
          failures := survey.failures } (ending, after) done last ∧
      run visitor.journaling r number units own log = match ending with
        | some failure => (.error failure, after)
        | none => (.ok (after.numbers number survey),
          after.tell (after.endEvent (after.numbers number survey))) := by
  obtain ⟨memory', hstart⟩ := foldl_fail_eq survey.failures ({ own, memory } : Round _ α)
  obtain ⟨done, last, hvisited⟩ := exists_visited visitor r survey.candidates
    (survey.failures.foldl (fun round f => round.fail f) { own, memory })
  unfold run
  rw [hsurvey]
  dsimp only
  rcases hrun : visitEach visitor.journaling r survey.candidates
    (survey.failures.foldl (fun round f => round.fail f) { own, memory }) with ⟨ending, after⟩
  rw [hrun, hstart] at hvisited
  refine ⟨done, last, ending, after, ⟨hvisited.ending_eq, hvisited.journal_eq,
    hvisited.artifacts_eq, hvisited.failures_eq, hvisited.diagnostics_eq, hvisited.elements_eq,
    hvisited.failFast_of_last, hvisited.failure?_eq_none⟩, ?_⟩
  cases ending with
  | none => rfl
  | some failure => rfl

end Round

end BeanProcessing

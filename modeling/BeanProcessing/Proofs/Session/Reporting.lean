import BeanProcessing.Proofs.Session.Journal

/-!
# Which failures are reported

A failure that a round adds is reported as an error in the course of that round, unless a visit has
returned it as a rejection of its own accord: a rejection is taken for one that has been reported
before. The failure that ends a round is reported if it is one of the survey; if it is one of a
visit, it is left to that visit whether anything is reported.
-/

namespace BeanProcessing

variable {σ α : Type}

/-- Whether a failure is among the errors that were reported: under its message, or, if it is a
rejection, under what it says. -/
def Failure.ReportedIn (reported : List Diagnostic) (failure : Failure) : Prop :=
  ∃ d ∈ reported, d.severity = .error ∧
    (d.message = failure.message ∨ failure = .rejected d.message)

theorem Failure.ReportedIn.mono {reported reported' : List Diagnostic} {failure : Failure}
    (h : failure.ReportedIn reported) (hsub : reported ⊆ reported') :
    failure.ReportedIn reported' := by
  obtain ⟨d, hd, herror, hmessage⟩ := h
  exact ⟨d, hsub hd, herror, hmessage⟩

theorem DeclarationFailure.reportedIn_report (f : DeclarationFailure) :
    f.failure.ReportedIn [f.report] :=
  ⟨f.report, List.mem_singleton_self _, rfl, Or.inl rfl⟩

/-- What a visit counts as is a failure that it has returned, or one that it has reported. -/
theorem VisitRecord.reportedIn_of_failure? {v : VisitRecord α} {failure : Failure}
    (h : v.failure? = some failure) :
    v.result = .error failure ∨ failure.ReportedIn v.reports := by
  unfold failure? at h
  cases hresult : v.result with
  | error failure' =>
    rw [hresult] at h
    cases h
    exact Or.inl rfl
  | ok artifacts =>
    rw [hresult] at h
    obtain ⟨message, hlast, rfl⟩ := Option.map_eq_some_iff.1 h
    obtain ⟨before, d, rest, hreports, herror, rfl, -⟩ :=
      Diagnostic.exists_append_of_lastError? hlast
    have hd : d ∈ v.reports := hreports ▸ List.mem_append_right before List.mem_cons_self
    exact Or.inr ⟨d, hd, herror, Or.inr rfl⟩

/-- The failure of a class that is skipped is reported, unless the visit has returned it as a
rejection. -/
theorem Showing.reportedIn_of_failure? {x : Showing α} {f : DeclarationFailure}
    (h : x.failure? = some f) :
    f.failure.ReportedIn x.diagnostics ∨
      f.failure.isRejection = true ∧ x.element.symbol = f.declaration ∧
        x.record.result = .error f.failure := by
  obtain ⟨failure, hfailure, rfl⟩ := Option.map_eq_some_iff.1 h
  rcases VisitRecord.reportedIn_of_failure? hfailure with hresult | hreported
  · by_cases hrejection : failure.isRejection = true
    · exact Or.inr ⟨hrejection, rfl, hresult⟩
    · refine Or.inl ((DeclarationFailure.reportedIn_report _).mono ?_)
      rw [diagnostics, h, Option.toList_some, List.flatMap_singleton,
        DeclarationFailure.reportsOfSkip, if_neg hrejection]
      exact List.subset_append_right _ _
  · exact Or.inl (hreported.mono (List.subset_append_left _ _))

/-- A survey that a failure would have ended has no failures. -/
theorem Resolver.failures_eq_nil_of_failFast {r : Resolver} (hstrict : r.settings.failFast = true)
    {units : List CompilationUnit} {memory memory' : Memory} {survey : Survey}
    (h : (r.survey units).run.run memory = (.ok survey, memory')) : survey.failures = [] := by
  obtain ⟨lenient, after, -, hstops⟩ := r.survey_withFailFast units memory
  have hsame : r.withFailFast true = r := by
    unfold withFailFast Settings.withFailFast
    rw [← hstrict]
  rw [hsame, h] at hstops
  unfold StopsAtFirst at hstops
  cases hfailures : lenient.failures with
  | nil =>
    rw [hfailures] at hstops
    cases hstops
    exact hfailures
  | cons first others =>
    rw [hfailures] at hstops
    cases hstops

namespace Round

/-- Where failures end a round, what is reported beside the survey is what the visits report. -/
theorem Visited.diagnostics_of_failFast {r : Resolver} {es : List ClassElement}
    {round : Round (σ × List (Showing α)) α}
    {visits : Option Failure × Round (σ × List (Showing α)) α} {done : List (Showing α)}
    {last : Option (Showing α)} (h : Visited r es round visits done last)
    (hstrict : r.settings.failFast = true) :
    visits.2.diagnostics
      = round.diagnostics ++ (done ++ last.toList).flatMap (·.record.reports) := by
  have hdone : done.flatMap Showing.diagnostics = done.flatMap (·.record.reports) := by
    rw [List.flatMap_def, List.flatMap_def]
    exact congrArg List.flatten (List.map_congr_left fun x hx =>
      Showing.diagnostics_of_failure?_eq_none (h.failure?_eq_none hstrict x hx))
  rw [h.diagnostics_eq, hdone, List.flatMap_append]

/-- The failures of a round are reported in its course, up to rejections that visits return; the
failure that ends it is reported, up to one that the last visit returns. -/
theorem failures_reported_of_run {visitor : Visitor σ α} {r : Resolver} {number : Nat}
    {units : List CompilationUnit} {own : σ × List (Showing α)} {log : Log}
    {result : Except Failure RoundReport} {after : Round (σ × List (Showing α)) α}
    (h : run visitor.journaling r number units own log = (result, after)) :
    ∃ made, after.own.2 = own.2 ++ made ∧
      (∀ f ∈ after.failures, f.failure.ReportedIn after.diagnostics ∨
        f.failure.isRejection = true ∧
          ∃ x ∈ made, x.element.symbol = f.declaration ∧ x.record.result = .error f.failure) ∧
      ∀ failure, result = .error failure → failure.ReportedIn after.diagnostics ∨
        r.settings.failFast = true ∧ ∃ done x, made = done ++ [x] ∧
          x.record.result = .error failure ∧
          after.diagnostics = made.flatMap (·.record.reports) := by
  rcases hsurvey : (r.survey units).run.run { log } with ⟨surveyed, memory⟩
  cases surveyed with
  | error failure =>
    unfold run at h
    rw [hsurvey] at h
    cases h
    refine ⟨[], (List.append_nil _).symm, fun _ hf => (List.not_mem_nil hf).elim, ?_⟩
    rintro failure' ⟨⟩
    exact Or.inl ⟨_, List.mem_singleton_self _, rfl, Or.inl rfl⟩
  | ok survey =>
    obtain ⟨done, last, ending, after', hvisited, hrun⟩ :=
      run_of_survey visitor r number units own hsurvey
    -- telling of the end of the round changes the log only
    obtain ⟨hown, hfailures, hdiagnostics, hending⟩ : after.own = after'.own ∧
        after.failures = after'.failures ∧ after.diagnostics = after'.diagnostics ∧
        ∀ failure, result = .error failure → ending = some failure := by
      rw [hrun] at h
      cases ending with
      | none =>
        cases h
        exact ⟨rfl, rfl, rfl, fun _ herror => nomatch herror⟩
      | some failure =>
        cases h
        exact ⟨rfl, rfl, rfl, fun _ herror => congrArg some (Except.error.inj herror)⟩
    rw [hown, hfailures, hdiagnostics]
    refine ⟨done ++ last.toList, hvisited.journal_eq, fun f hf => ?_, fun failure herror => ?_⟩
    · rw [hvisited.failures_eq] at hf
      rw [hvisited.diagnostics_eq]
      -- a failure of the survey or one of a visit after which the round went on
      rcases List.mem_append.1 hf with hf | hf
      · refine Or.inl (f.reportedIn_report.mono fun d hd => List.mem_append_left _ ?_)
        rw [List.mem_singleton.1 hd]
        exact List.mem_map_of_mem hf
      · obtain ⟨x, hx, hfailure⟩ := List.mem_filterMap.1 hf
        rcases Showing.reportedIn_of_failure? hfailure with hreported | ⟨hrejection, hsame⟩
        · refine Or.inl (hreported.mono fun d hd => ?_)
          exact List.mem_append_right _
            (List.mem_append_left _ (List.mem_flatMap.2 ⟨x, hx, hd⟩))
        · exact Or.inr ⟨hrejection, x, List.mem_append_left _ hx, hsame⟩
    · obtain ⟨x, rfl, hfailure⟩ := Option.bind_eq_some_iff.1
        (hvisited.ending_eq.symm.trans (hending failure herror))
      have hstrict := (hvisited.failFast_of_last x rfl).1
      have hreports := hvisited.diagnostics_of_failFast hstrict
      rw [Resolver.failures_eq_nil_of_failFast hstrict hsurvey] at hreports
      rcases VisitRecord.reportedIn_of_failure? hfailure with hresult | hreported
      · exact Or.inr ⟨hstrict, done, x, rfl, hresult, hreports⟩
      · refine Or.inl (hreported.mono fun d hd => ?_)
        rw [hreports]
        exact List.mem_flatMap.2 ⟨x, List.mem_append_right _ (List.mem_singleton_self x), hd⟩

end Round

namespace Session

/-- Of the failures that a round adds, each is reported in the course of the round, or is a
rejection that the visit of its class has returned. The failure that the round ends with is reported
too, or failures end a round, the last visit has returned it, and what is reported is what the
visits have reported and nothing else. -/
theorem failures_reported (visitor : Visitor σ α) (graph : SymbolGraph)
    (units : List CompilationUnit) (s : Session (σ × List (Showing α)) α) :
    ∃ result after reported failed made,
      s.processUnits visitor.journaling graph units = (result, after) ∧
      (s.mapOwn Prod.fst).processUnits visitor graph units = (result, after.mapOwn Prod.fst) ∧
      after.diagnostics = s.diagnostics ++ reported ∧
      after.failures = s.failures ++ failed ∧
      after.own.2 = s.own.2 ++ made ∧
      (∀ f ∈ failed, f.failure.ReportedIn reported ∨ f.failure.isRejection = true ∧
        ∃ x ∈ made, x.element.symbol = f.declaration ∧ x.record.result = .error f.failure) ∧
      ∀ failure, result = .error failure → failure.ReportedIn reported ∨
        s.settings.failFast = true ∧ ∃ done x, made = done ++ [x] ∧
          x.record.result = .error failure ∧ reported = made.flatMap (·.record.reports) := by
  rcases hrun : Round.run visitor.journaling (.ofUnits graph s.settings units) (s.rounds + 1) units
    s.own s.log with ⟨result, round⟩
  have hprocess : s.processUnits visitor.journaling graph units = (result, s.keep round) := by
    rw [processUnits_eq, hrun]
    rfl
  have hplain := mapOwn_processUnits visitor.journaling_extends graph units s
  obtain ⟨made, hown, hfailures, hending⟩ := Round.failures_reported_of_run hrun
  refine ⟨result, s.keep round, round.diagnostics, round.failures, made, hprocess, ?_, rfl, rfl,
    hown, hfailures, hending⟩
  rw [← hplain]
  exact congrArg (Prod.map id (mapOwn Prod.fst)) hprocess

/-- A visitor that rejects every class without a report. -/
def refusing : Visitor Unit BeanDefinition := fun _ _ => throw (.rejected "unfit")

/-- The failure that ends a strict round need not be reported, and neither need the failures be that
a lenient round adds. -/
theorem exists_failure_not_reported :
    (∃ failure after, strictStart.processUnits BeanDefinition.visitor healthyThenBroken
        healthyThenBroken.units = (.error failure, after) ∧
      strictStart.diagnostics = [] ∧ ¬ failure.ReportedIn after.diagnostics) ∧
    ∃ report after f, ({ settings := {}, own := () } : Session Unit BeanDefinition).processUnits
        refusing healthyThenBroken healthyThenBroken.units = (.ok report, after) ∧
      f ∈ after.failures ∧ ¬ f.failure.ReportedIn after.diagnostics := by
  constructor
  · refine ⟨.missingIdentifier (.ofValueParameter "Broken#<init>#0/0"), _, rfl, rfl, ?_⟩
    rintro ⟨d, hd, -⟩
    exact List.not_mem_nil hd
  · refine ⟨_, _, ⟨.ofClass "Healthy", .rejected "unfit"⟩, rfl, List.mem_cons_self, ?_⟩
    rintro ⟨d, hd, -⟩
    exact List.not_mem_nil hd

end Session

end BeanProcessing

import BeanProcessing.BeanDefinition.Visitor
import BeanProcessing.Proofs.Session.Conservation
import BeanProcessing.Proofs.Survey.Independence

/-!
# Ending a round at the first failure

A setting says whether the first failure ends a round. A *strict* round, in which it does, and a
*lenient* one, in which it does not, go through the same steps up to the first failure: neither
resolving nor the verdict on a single declaration looks at the setting. So a strict round comes to
the same as the lenient one if that has no failures, and ends with the first of them otherwise. The
survey comes before the visits in both, and its failures before theirs. The relation between the two
is `StopsAtFirst`.

A round that is ended early leaves what it had come to by then. What is pending afterwards is said
by `pending_of_abort`: the artifacts of the classes that were visited before are kept.
-/

namespace BeanProcessing

variable {σ α ρ γ : Type}

/-! ## The setting -/

/-- The settings with a choice whether the first failure ends a round. -/
def Settings.withFailFast (settings : Settings) (failFast : Bool) : Settings :=
  { settings with failFast }

/-- The resolver with a choice whether the first failure ends a round. -/
def Resolver.withFailFast (r : Resolver) (failFast : Bool) : Resolver :=
  { r with settings := r.settings.withFailFast failFast }

/-- The session with a choice whether the first failure ends a round. -/
def Session.withFailFast (s : Session σ α) (failFast : Bool) : Session σ α :=
  { s with settings := s.settings.withFailFast failFast }

namespace Resolver

variable (r : Resolver) (failFast : Bool)

theorem boundName?_withFailFast (places : Nat) (use : TypeUse) :
    (r.withFailFast failFast).boundName? places use = r.boundName? places use := by
  induction places generalizing use with
  | zero => rfl
  | succ places ih =>
    unfold boundName?
    cases use with
    | declared s arguments => rfl
    | unresolved => rfl
    | array element dimensions => exact ih element
    | typeVariable s =>
      dsimp only
      rw [show (r.withFailFast failFast).graph = r.graph from rfl]
      cases r.graph.typeParameter? s with
      | none => rfl
      | some d =>
        dsimp only
        cases d.bounds with
        | nil => rfl
        | cons next rest => exact ih next

theorem nameOfBounds?_withFailFast (bounds : List TypeUse) :
    (r.withFailFast failFast).nameOfBounds? bounds = r.nameOfBounds? bounds := by
  cases bounds with
  | nil => rfl
  | cons first rest => exact r.boundName?_withFailFast failFast _ first

theorem placeholder_withFailFast (s : Symbol) (d : TypeParameterDeclaration)
    (generics : TypeArguments) :
    (r.withFailFast failFast).placeholder s d generics = r.placeholder s d generics := by
  unfold placeholder placeholderElement
  rw [nameOfBounds?_withFailFast]
  rfl

theorem bindToPlaceholders_withFailFast (generics bindings : TypeArguments)
    (parameters : List Symbol) :
    (r.withFailFast failFast).bindToPlaceholders generics bindings parameters
      = r.bindToPlaceholders generics bindings parameters := by
  induction parameters generalizing bindings with
  | nil => rfl
  | cons parameter rest ih =>
    unfold bindToPlaceholders
    simp only [placeholder_withFailFast, ih]
    rfl

theorem elementOf_withFailFast (s : Symbol) :
    (r.withFailFast failFast).elementOf s = r.elementOf s := by
  unfold elementOf
  simp only [bindToPlaceholders_withFailFast]
  rfl

/-- The verdict on a declaration does not depend on what is made of it. -/
theorem verdict_withFailFast (s : Symbol) :
    (r.withFailFast failFast).verdict s = r.verdict s := by
  unfold verdict
  rw [elementOf_withFailFast]
  rfl

end Resolver

/-- Whether a visitor does not look at the setting. -/
def Visitor.IgnoresFailFast (visitor : Visitor σ α) : Prop :=
  ∀ r e failFast, visitor (r.withFailFast failFast) e = visitor r e

/-! ## Strict and lenient runs -/

/-- Whether a strict run comes to the same as a lenient one that has some failures: to the same in
every respect if there are none, and to the first of them otherwise. -/
def StopsAtFirst (ending : Failure → ρ) (failures : List DeclarationFailure)
    (strict lenient : ρ × γ) : Prop :=
  match failures with
  | [] => strict = lenient
  | first :: _ => strict.1 = ending first.failure

theorem StopsAtFirst.map {ρ' : Type} {ending : Failure → ρ} {failures : List DeclarationFailure}
    {strict lenient : ρ × γ} (f : ρ → ρ') (h : StopsAtFirst ending failures strict lenient) :
    StopsAtFirst (f ∘ ending) failures (strict.map f id) (lenient.map f id) := by
  cases failures with
  | nil => exact congrArg (Prod.map f id) h
  | cons first others => exact congrArg f h

theorem StopsAtFirst.exists_eq_of_cons {ending : Failure → ρ} {first : DeclarationFailure}
    {others : List DeclarationFailure} {strict lenient : ρ × γ}
    (h : StopsAtFirst ending (first :: others) strict lenient) :
    ∃ left, strict = (ending first.failure, left) :=
  ⟨strict.2, Prod.ext h rfl⟩

/-! ## Surveys -/

namespace Survey

theorem failures_cons_of_failure?_eq_none {s : Symbol} {verdict : Verdict}
    (h : verdict.failure? = none) (verdicts : List (Symbol × Verdict)) :
    (mk ((s, verdict) :: verdicts)).failures = (mk verdicts).failures := by
  cases verdict with
  | failed failure => cases h
  | candidate e => rfl
  | excluded reason => rfl

end Survey

namespace Resolver

variable (r : Resolver)

/-- What follows the verdict on the first of some declarations, which goes wrong only if it is a
failure that ends the round. -/
def afterVerdict (s : Symbol) (rest : List Symbol) (verdict : Verdict) :
    ResolveM (List (Symbol × Verdict)) :=
  match verdict, r.settings.failFast with
  | .failed failure, true => throw failure
  | verdict, _ => do
    Memory.tell (verdict.event s)
    return (s, verdict) :: (← r.verdicts rest)

theorem run_verdicts_cons (s : Symbol) (rest : List Symbol) (memory : Memory) :
    (r.verdicts (s :: rest)).run.run memory
      = (r.afterVerdict s rest ((r.verdict s).run memory).1).run.run ((r.verdict s).run memory).2 :=
  rfl

/-- A verdict that does not end the round is told, and the others follow. -/
theorem run_afterVerdict (s : Symbol) (rest : List Symbol) {verdict : Verdict}
    (h : verdict.failure? = none ∨ r.settings.failFast = false) (memory : Memory) :
    (r.afterVerdict s rest verdict).run.run memory
      = Prod.map (Except.map ((s, verdict) :: ·)) id
          ((r.verdicts rest).run.run { memory with log := verdict.event s :: memory.log }) := by
  have htold : r.afterVerdict s rest verdict = (do
      Memory.tell (verdict.event s)
      return (s, verdict) :: (← r.verdicts rest)) := by
    unfold afterVerdict
    rcases h with h | h
    · cases verdict with
      | failed failure => cases h
      | candidate e => rfl
      | excluded reason => rfl
    · rw [h]
      cases verdict <;> rfl
  rw [htold, ← map_eq_pure_bind]
  show (List.cons (s, verdict) <$> r.verdicts rest).run.run
    { memory with log := verdict.event s :: memory.log } = _
  rw [ExceptT.run_map, StateT.run_map]
  rfl

/-- A lenient survey comes to a verdict on each declaration, and a strict one does if none of them
has failed; otherwise it ends with the first failure. -/
theorem verdicts_withFailFast (symbols : List Symbol) (memory : Memory) :
    ∃ verdicts memory',
      ((r.withFailFast false).verdicts symbols).run.run memory = (.ok verdicts, memory') ∧
      StopsAtFirst .error (Survey.mk verdicts).failures
        (((r.withFailFast true).verdicts symbols).run.run memory) (.ok verdicts, memory') := by
  induction symbols generalizing memory with
  | nil => exact ⟨[], memory, rfl, rfl⟩
  | cons s rest ih =>
    rw [run_verdicts_cons, run_verdicts_cons, verdict_withFailFast, verdict_withFailFast]
    rcases (r.verdict s).run memory with ⟨verdict, memory'⟩
    obtain ⟨verdicts, after, hlenient, hstrict⟩ :=
      ih { memory' with log := verdict.event s :: memory'.log }
    rw [run_afterVerdict _ s rest (Or.inr rfl), hlenient]
    refine ⟨(s, verdict) :: verdicts, after, rfl, ?_⟩
    -- up to the first failure the strict survey goes on too, from the same memory
    cases hfailure : verdict.failure? with
    | some failure =>
      cases verdict with
      | failed failure => exact rfl
      | candidate e => cases hfailure
      | excluded reason => cases hfailure
    | none =>
      rw [run_afterVerdict _ s rest (Or.inl hfailure),
        Survey.failures_cons_of_failure?_eq_none hfailure]
      exact hstrict.map (Except.map ((s, verdict) :: ·))

theorem survey_withFailFast (units : List CompilationUnit) (memory : Memory) :
    ∃ survey memory',
      ((r.withFailFast false).survey units).run.run memory = (.ok survey, memory') ∧
      StopsAtFirst .error survey.failures
        (((r.withFailFast true).survey units).run.run memory) (.ok survey, memory') := by
  obtain ⟨verdicts, memory', hlenient, hstrict⟩ :=
    r.verdicts_withFailFast (units.flatMap (·.declarations)) memory
  have hrun : ∀ r' : Resolver, (r'.survey units).run.run memory
      = ((r'.verdicts (units.flatMap (·.declarations))).run.run memory).map
        (Except.map Survey.mk) id := by
    intro r'
    rw [survey, ExceptT.run_map, StateT.run_map]
    rfl
  refine ⟨⟨verdicts⟩, memory', ?_, ?_⟩
  · rw [hrun, hlenient]
    rfl
  · rw [hrun]
    exact hstrict.map (Except.map Survey.mk)

end Resolver

/-! ## Rounds -/

namespace DeclarationFailure

/-- The report of a failure. -/
def report (f : DeclarationFailure) : Diagnostic := ⟨.error, f.failure.message, f.declaration⟩

/-- What is reported when a class is skipped: a rejection is not, since it has been before. -/
def reportsOfSkip (f : DeclarationFailure) : List Diagnostic :=
  if f.failure.isRejection then [] else [f.report]

end DeclarationFailure

namespace Round

theorem visit_failures (visitor : Visitor σ α) (r : Resolver) (e : ClassElement)
    (round : Round σ α) : (round.visit visitor r e).2.failures = round.failures := rfl

/-- A class that is skipped counts as a failure, whether or not it has been reported before. -/
theorem skip_eq (e : ClassElement) (failure : Failure) (round : Round σ α) :
    ∃ memory, round.skip e failure = { round with
      memory
      diagnostics := round.diagnostics ++ DeclarationFailure.reportsOfSkip ⟨e.symbol, failure⟩
      failures := round.failures ++ [⟨e.symbol, failure⟩] } := by
  unfold skip DeclarationFailure.reportsOfSkip
  by_cases hrejection : failure.isRejection = true
  · rw [if_pos hrejection, if_pos hrejection, List.append_nil]
    exact ⟨_, rfl⟩
  · rw [if_neg hrejection, if_neg hrejection]
    exact ⟨_, rfl⟩

theorem foldl_fail_eq (failures : List DeclarationFailure) (round : Round σ α) :
    ∃ memory, failures.foldl (fun round f => round.fail f) round = { round with
      memory
      diagnostics := round.diagnostics ++ failures.map DeclarationFailure.report
      failures := round.failures ++ failures } := by
  induction failures generalizing round with
  | nil => exact ⟨round.memory, by rw [List.map_nil, List.append_nil, List.append_nil]; rfl⟩
  | cons f rest ih =>
    obtain ⟨memory, hrest⟩ := ih (round.fail f)
    refine ⟨memory, ?_⟩
    rw [List.foldl_cons, hrest, List.map_cons, List.append_cons round.diagnostics,
      List.append_cons round.failures]
    rfl

variable {visitor : Visitor σ α} (r : Resolver)

/-- A lenient round visits all candidates, and a strict one does if no visit fails; otherwise it
ends with the first failure. -/
theorem visitEach_withFailFast (hvisitor : visitor.IgnoresFailFast) (es : List ClassElement)
    (round : Round σ α) :
    ∃ after rejected,
      visitEach visitor (r.withFailFast false) es round = (none, after) ∧
      after.failures = round.failures ++ rejected ∧
      (rejected.map (·.declaration)).Sublist (es.map (·.symbol)) ∧
      StopsAtFirst some rejected (visitEach visitor (r.withFailFast true) es round)
        (none, after) := by
  induction es generalizing round with
  | nil => exact ⟨round, [], rfl, (List.append_nil _).symm, List.Sublist.slnil, rfl⟩
  | cons e rest ih =>
    have hvisit : ∀ failFast,
        round.visit visitor (r.withFailFast failFast) e = round.visit visitor r e := by
      intro failFast
      unfold visit
      rw [hvisitor]
    have hfailures := visit_failures visitor r e round
    unfold visitEach
    rw [hvisit, hvisit]
    rcases hresult : round.visit visitor r e with ⟨result, visited⟩
    rw [hresult] at hfailures
    cases result with
    | ok artifacts =>
      -- both go on with the same round
      obtain ⟨after, rejected, hlenient, hafter, hsublist, hstrict⟩ :=
        ih { visited with artifacts := visited.artifacts ++ artifacts }
      exact ⟨after, rejected, hlenient, by rw [hafter]; exact congrArg (· ++ rejected) hfailures,
        hsublist.cons _, hstrict⟩
    | error failure =>
      -- the strict round ends here, and what the lenient one comes to later does not matter to it
      obtain ⟨after, rejected, hlenient, hafter, hsublist, -⟩ := ih (visited.skip e failure)
      obtain ⟨memory, hskip⟩ := skip_eq e failure visited
      refine ⟨after, ⟨e.symbol, failure⟩ :: rejected, hlenient, ?_, hsublist.cons_cons _, rfl⟩
      rw [hafter, hskip, List.append_cons round.failures]
      exact congrArg (· ++ [_] ++ rejected) hfailures

/-- A lenient round comes to a report, and a strict one to the same if the round has no failures;
otherwise it ends with the first of them. -/
theorem run_withFailFast (hvisitor : visitor.IgnoresFailFast) (number : Nat)
    (units : List CompilationUnit) (own : σ) (log : Log) :
    ∃ survey memory report after rejected,
      ((r.withFailFast false).survey units).run.run { log } = (.ok survey, memory) ∧
      run visitor (r.withFailFast false) number units own log = (.ok report, after) ∧
      after.failures = survey.failures ++ rejected ∧
      report.failures = after.failures.length ∧
      (rejected.map (·.declaration)).Sublist (survey.candidates.map (·.symbol)) ∧
      StopsAtFirst .error (survey.failures ++ rejected)
        (run visitor (r.withFailFast true) number units own log) (.ok report, after) := by
  obtain ⟨survey, memory, hlenient, hstrict⟩ := r.survey_withFailFast units { log }
  obtain ⟨after, rejected, hvisits, hafter, hsublist, hstrict'⟩ := visitEach_withFailFast r hvisitor
    survey.candidates (survey.failures.foldl (fun round f => round.fail f) { own, memory })
  obtain ⟨memory', hstart⟩ := foldl_fail_eq survey.failures { own, memory }
  rw [hstart] at hafter
  refine ⟨survey, memory, after.numbers number survey,
    after.tell (after.endEvent (after.numbers number survey)), rejected, hlenient, ?_, hafter, rfl,
    hsublist, ?_⟩
  · unfold run
    rw [hlenient]
    dsimp only
    rw [hvisits]
  · unfold run
    cases hfound : survey.failures with
    | cons first others =>
      -- the survey has ended the round, so that there are no visits
      rw [hfound] at hstrict
      obtain ⟨left, hsurvey⟩ := hstrict.exists_eq_of_cons
      rw [hsurvey]
      rfl
    | nil =>
      rw [hfound] at hstrict hstrict'
      rw [show ((r.withFailFast true).survey units).run.run { log } = (.ok survey, memory)
        from hstrict]
      dsimp only
      rw [hfound]
      cases rejected with
      | nil =>
        rw [show visitEach visitor (r.withFailFast true) survey.candidates _ = (none, after)
          from hstrict']
        rfl
      | cons first others =>
        obtain ⟨left, hvisits⟩ := hstrict'.exists_eq_of_cons
        rw [hvisits]
        rfl

end Round

/-! ## Sessions -/

namespace Session

variable {visitor : Visitor σ α}

theorem processUnits_eq (visitor : Visitor σ α) (graph : SymbolGraph)
    (units : List CompilationUnit) (s : Session σ α) :
    s.processUnits visitor graph units
      = (Round.run visitor (.ofUnits graph s.settings units) (s.rounds + 1) units s.own s.log).map
          id s.keep :=
  rfl

/-- Of the same session, a strict run of a round goes through if and only if the lenient run has no
failures, and then both leave the same behind, up to the setting itself. Otherwise the strict run
ends with the first failure that the lenient run adds; those of the survey come before those of the
visits. The lenient run always goes through. -/
theorem processUnits_withFailFast (hvisitor : visitor.IgnoresFailFast) (graph : SymbolGraph)
    (units : List CompilationUnit) (s : Session σ α) :
    ∃ survey memory report after rejected,
      ((Resolver.ofUnits graph (s.withFailFast false).settings units).survey units).run.run
        { log := s.log } = (.ok survey, memory) ∧
      (s.withFailFast false).processUnits visitor graph units = (.ok report, after) ∧
      after.failures = s.failures ++ (survey.failures ++ rejected) ∧
      (rejected.map (·.declaration)).Sublist (survey.candidates.map (·.symbol)) ∧
      report.failures = (survey.failures ++ rejected).length ∧
      ((∃ report', ((s.withFailFast true).processUnits visitor graph units).1 = .ok report') ↔
        report.failures = 0) ∧
      (report.failures = 0 →
        (s.withFailFast true).processUnits visitor graph units
          = (.ok report, after.withFailFast true)) ∧
      ∀ first ∈ (survey.failures ++ rejected).head?,
        ((s.withFailFast true).processUnits visitor graph units).1 = .error first.failure := by
  obtain ⟨survey, memory, report, after, rejected, hsurvey, hlenient, hafter, hreport, hsublist,
    hstrict⟩ := Round.run_withFailFast (.ofUnits graph s.settings units) hvisitor (s.rounds + 1)
      units s.own s.log
  have hprocess : ∀ failFast, (s.withFailFast failFast).processUnits visitor graph units
      = (Round.run visitor ((Resolver.ofUnits graph s.settings units).withFailFast failFast)
          (s.rounds + 1) units s.own s.log).map id (s.withFailFast failFast).keep :=
    fun failFast => processUnits_eq visitor graph units (s.withFailFast failFast)
  rw [hafter] at hreport
  refine ⟨survey, memory, report, (s.withFailFast false).keep after, rejected, hsurvey, ?_, ?_,
    hsublist, hreport, ?_⟩
  · rw [hprocess, hlenient]
    rfl
  · exact congrArg (s.failures ++ ·) hafter
  · rw [hprocess, hreport]
    cases hfailures : survey.failures ++ rejected with
    | nil =>
      rw [hfailures] at hstrict
      rw [show Round.run visitor _ _ units s.own s.log = (.ok report, after) from hstrict]
      exact ⟨⟨fun _ => rfl, fun _ => ⟨report, rfl⟩⟩, fun _ => rfl, fun _ h => by cases h⟩
    | cons first others =>
      rw [hfailures] at hstrict
      obtain ⟨left, hrun⟩ := hstrict.exists_eq_of_cons
      rw [hrun]
      refine ⟨⟨?_, ?_⟩, ?_, ?_⟩
      · rintro ⟨report', hreport'⟩
        cases hreport'
      · exact fun h => absurd h (Nat.succ_ne_zero _)
      · exact fun h => absurd h (Nat.succ_ne_zero _)
      · intro f hf
        cases hf
        rfl

/-- A session with the visitor that finds fault with every second class. -/
def everySecondStart : Session Nat BeanDefinition where
  settings := {}
  own := 0

/-- Of three visits the second is rejected, and a declaration cannot be found: the strict run ends
with the latter. -/
theorem processUnits_withFailFast_threeClasses :
    History.everySecond.IgnoresFailFast ∧
      ∃ report after,
        (everySecondStart.withFailFast false).processUnits History.everySecond
          History.threeClasses History.threeClasses.units = (.ok report, after) ∧
        report.failures = 2 ∧
        ((everySecondStart.withFailFast true).processUnits History.everySecond
          History.threeClasses History.threeClasses.units).1
            = .error (.unknownSymbol (.ofClass "Gone")) := by
  have hvisitor : History.everySecond.IgnoresFailFast := fun _ _ _ => rfl
  obtain ⟨survey, memory, report, after, rejected, -, hlenient, hafter, -, hreport, -, -, hfirst⟩ :=
    processUnits_withFailFast hvisitor History.threeClasses History.threeClasses.units
      everySecondStart
  have hfailures : survey.failures ++ rejected
      = [⟨.ofClass "Gone", .unknownSymbol (.ofClass "Gone")⟩,
        ⟨.ofClass "B", .rejected "every second"⟩] := by
    rw [show after = ((everySecondStart.withFailFast false).processUnits History.everySecond
      History.threeClasses History.threeClasses.units).2 by rw [hlenient]] at hafter
    exact hafter.symm
  refine ⟨hvisitor, report, after, hlenient, ?_, ?_⟩
  · rw [hreport, hfailures]
    rfl
  · exact hfirst ⟨.ofClass "Gone", .unknownSymbol (.ofClass "Gone")⟩ (by rw [hfailures]; rfl)

end Session

/-! ## What an aborted round leaves -/

namespace Round

/-- Visits that were ended early are those of the candidates up to one whose visit came to nothing;
what is kept of the others is what the round has come to since. -/
theorem exists_records_of_abort {visitor : Visitor σ α} {r : Resolver} {es : List ClassElement}
    {round after : Round (σ × List (VisitRecord α)) α} {failure : Failure}
    (h : visitEach visitor.recorded r es round = (some failure, after)) :
    ∃ made last done e rest, es = done ++ e :: rest ∧ made.length = done.length ∧
      after.own.2 = round.own.2 ++ (made ++ [last]) ∧ last.kept = [] ∧
      after.artifacts = round.artifacts ++ made.flatMap VisitRecord.kept := by
  induction es generalizing round with
  | nil => cases h
  | cons e rest ih =>
    unfold visitEach at h
    rcases hvisit : round.visit visitor.recorded r e with ⟨result, visited⟩
    rw [hvisit] at h
    obtain ⟨v, hown, hartifacts, hkept⟩ := exists_record_of_visit visitor r e hvisit
    -- a visit that does not end the round comes in front of those that follow
    have hstep : ∀ {next : Round (σ × List (VisitRecord α)) α}, next.own = visited.own →
        next.artifacts = round.artifacts ++ v.kept →
        visitEach visitor.recorded r rest next = (some failure, after) →
        ∃ made last done e' rest', e :: rest = done ++ e' :: rest' ∧ made.length = done.length ∧
          after.own.2 = round.own.2 ++ (made ++ [last]) ∧ last.kept = [] ∧
          after.artifacts = round.artifacts ++ made.flatMap VisitRecord.kept := by
      intro next hnext hnext' hrest
      obtain ⟨made, last, done, e', rest', hes, hlength, hafter, hlast, hafter'⟩ := ih hrest
      refine ⟨v :: made, last, e :: done, e', rest', by rw [hes]; rfl, by simp [hlength], ?_, hlast,
        ?_⟩
      · rw [hafter, hnext, hown, List.append_assoc]
        rfl
      · rw [hafter', hnext', List.flatMap_cons, List.append_assoc]
    cases result with
    | ok artifacts =>
      obtain rfl : artifacts = v.kept := by
        rcases hkept with hkept | ⟨⟨failure', herror⟩, -⟩
        · exact Except.ok.inj hkept
        · cases herror
      exact @hstep { visited with artifacts := visited.artifacts ++ v.kept } rfl
        (by rw [hartifacts]) h
    | error failure' =>
      obtain hkept := (hkept.resolve_left (by simp)).2
      by_cases hfailFast : r.settings.failFast = true
      · simp only [hfailFast, if_true, Prod.mk.injEq] at h
        obtain ⟨-, rfl⟩ := h
        exact ⟨[], v, [], e, rest, rfl, rfl, hown, hkept, by rw [hartifacts]; simp⟩
      · simp only [hfailFast] at h
        obtain ⟨memory, hskip⟩ := skip_eq e failure' visited
        exact hstep (by rw [hskip]) (by rw [hskip, hkept, List.append_nil, ← hartifacts]) h

/-- A round is aborted by its survey or by a visit. -/
theorem run_eq_error {visitor : Visitor σ α} {r : Resolver} {number : Nat}
    {units : List CompilationUnit} {own : σ} {log : Log} {failure : Failure} {after : Round σ α}
    (h : run visitor r number units own log = (.error failure, after)) :
    (∃ memory, (r.survey units).run.run { log } = (.error failure, memory) ∧
      after = report ⟨.error, failure.message, none⟩ { own, memory }) ∨
    ∃ survey memory, (r.survey units).run.run { log } = (.ok survey, memory) ∧
      visitEach visitor r survey.candidates
        (survey.failures.foldl (fun round f => round.fail f) { own, memory })
          = (some failure, after) := by
  unfold run at h
  rcases hsurvey : (r.survey units).run.run { log } with ⟨result, memory⟩
  rw [hsurvey] at h
  cases result with
  | error failure' =>
    cases h
    exact Or.inl ⟨memory, rfl, rfl⟩
  | ok survey =>
    refine Or.inr ⟨survey, memory, rfl, ?_⟩
    dsimp only at h
    rcases heach : visitEach visitor r survey.candidates
      (survey.failures.foldl (fun round f => round.fail f) { own, memory }) with ⟨ending, round⟩
    rw [heach] at h
    cases ending with
    | none => cases h
    | some failure' =>
      cases h
      rfl

end Round

namespace Session

/-- A round that is aborted in its survey leaves what is pending as it was. One that is aborted by a
visit leaves what was kept of the visits before that one, which are those of the candidates that
come first; so what is pending is as it was only if nothing was kept of them. -/
theorem pending_of_abort {visitor : Visitor σ α} {graph : SymbolGraph}
    {units : List CompilationUnit} {s after : Session (σ × List (VisitRecord α)) α}
    {failure : Failure}
    (h : s.processUnits visitor.recorded graph units = (.error failure, after)) :
    (∃ memory, ((Resolver.ofUnits graph s.settings units).survey units).run.run { log := s.log }
        = (.error failure, memory) ∧ after.pending = s.pending) ∨
      ∃ survey memory made last done e rest,
        ((Resolver.ofUnits graph s.settings units).survey units).run.run { log := s.log }
          = (.ok survey, memory) ∧
        survey.candidates = done ++ e :: rest ∧ made.length = done.length ∧
        after.own.2 = s.own.2 ++ (made ++ [last]) ∧
        after.pending = s.pending ++ made.flatMap VisitRecord.kept ∧
        (after.pending = s.pending ↔ ∀ v ∈ made, v.kept = []) := by
  rcases hrun : Round.run visitor.recorded (.ofUnits graph s.settings units) (s.rounds + 1) units
    s.own s.log with ⟨result, round⟩
  rw [processUnits_eq, hrun] at h
  cases h
  obtain ⟨memory, hsurvey, hround⟩ | ⟨survey, memory, hsurvey, hvisits⟩ := Round.run_eq_error hrun
  · refine Or.inl ⟨memory, hsurvey, ?_⟩
    rw [hround]
    exact List.append_nil _
  · obtain ⟨made, last, done, e, rest, hes, hlength, hown, -, hartifacts⟩ :=
      Round.exists_records_of_abort hvisits
    obtain ⟨memory', hstart⟩ := Round.foldl_fail_eq survey.failures
      ({ own := s.own, memory } : Round _ α)
    rw [hstart] at hown hartifacts
    refine Or.inr ⟨survey, memory, made, last, done, e, rest, hsurvey, hes, hlength, hown,
      congrArg (s.pending ++ ·) hartifacts, ?_⟩
    rw [← List.flatMap_eq_nil_iff]
    show s.pending ++ round.artifacts = s.pending ↔ _
    rw [hartifacts, List.append_right_eq_self]
    rfl

/-- A session with a visitor that records and finds fault with every second class. -/
def recordedStart : Session (Nat × List (VisitRecord BeanDefinition)) BeanDefinition where
  settings := { failFast := true }
  own := (0, [])

/-- Two visits are recorded, and the artifact of the first is what is pending. -/
theorem pending_of_abort_threeClasses :
    ∃ after made last,
      recordedStart.processUnits History.everySecond.recorded History.threeClasses
        [.ofPath "b.java" [.ofClass "A", .ofClass "B", .ofClass "C"]]
          = (.error (.rejected "every second"), after) ∧
      after.own.2 = made ++ [last] ∧ made.length = 1 ∧
      after.pending = made.flatMap VisitRecord.kept ∧ after.pending.length = 1 := by
  obtain ⟨after, hrun, hvisits, hlength⟩ : ∃ after,
      recordedStart.processUnits History.everySecond.recorded History.threeClasses
        [.ofPath "b.java" [.ofClass "A", .ofClass "B", .ofClass "C"]]
          = (.error (.rejected "every second"), after) ∧
        after.own.2.length = 2 ∧ after.pending.length = 1 := ⟨_, rfl, rfl, rfl⟩
  obtain ⟨memory, -, hpending⟩ | ⟨survey, memory, made, last, done, e, rest, -, -, -, hown,
      hpending, -⟩ := pending_of_abort hrun
  · rw [hpending] at hlength
    cases hlength
  · rw [show recordedStart.own.2 = [] from rfl, List.nil_append] at hown
    rw [hown, List.length_append, List.length_singleton] at hvisits
    exact ⟨after, made, last, hrun, hown, Nat.succ.inj hvisits, hpending, hlength⟩

/-- A bean that can be made, and behind it one whose constructor has a parameter without a name. -/
def healthyThenBroken : SymbolGraph :=
  .ofEdits [
    .addClass "Healthy" .plain, .annotate (.ofClass "Healthy") "jakarta.inject.Singleton",
    .addConstructor "Healthy" [],
    .addClass "Broken" .plain, .annotate (.ofClass "Broken") "jakarta.inject.Singleton",
    .addConstructor "Broken" [{ name := none, type := .unresolved }],
    .addClasses "a.java" ["Healthy", "Broken"]]

/-- A session without anything pending that ends a round at the first failure. -/
def strictStart : Session Unit BeanDefinition where
  settings := { failFast := true }
  own := ()

/-- The round is aborted, but the first of the beans stays pending and is written later. -/
theorem pending_ne_of_abort_healthyThenBroken :
    ∃ failure after, strictStart.settings.failFast = true ∧
      strictStart.processUnits BeanDefinition.visitor healthyThenBroken healthyThenBroken.units
        = (.error failure, after) ∧
      after.pending ≠ strictStart.pending ∧
      ∃ written, (after.finish Recording.sink {}).2.2 = written ∧
        written.records.getLast? = some (.artifact "Healthy") := by
  refine ⟨.missingIdentifier (.ofValueParameter "Broken#<init>#0/0"), _, rfl, rfl, ?_, _, rfl, ?_⟩
  · intro h
    cases h
  · decide +kernel

end Session

end BeanProcessing

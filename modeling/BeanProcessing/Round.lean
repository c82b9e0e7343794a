import BeanProcessing.Survey
import BeanProcessing.Visitor

/-!
# Rounds

A round surveys the declarations of some units and shows the candidates to a visitor, one after the
other. A class whose visit fails, or in whose visit an error is reported, is skipped and counts as a
failure; where the first failure ends a round, it ends the visits.

The memory of the resolver lasts for one round.
-/

namespace BeanProcessing

/-- What a round has come to so far. -/
structure Round (σ α : Type) where
  /-- The state of the visitor. -/
  own : σ
  memory : Memory
  artifacts : List α := []
  diagnostics : List Diagnostic := []
  failures : List DeclarationFailure := []

/-- What a round came to, in numbers. -/
structure RoundReport where
  round : Nat
  /-- The number of declarations in the survey. -/
  declarations : Nat
  /-- How many declarations were excluded for each reason, in the order in which the reasons arose.
  -/
  excluded : Table Exclusion Nat
  candidates : Nat
  artifacts : Nat
  failures : Nat

namespace Round

variable {σ α : Type}

/-- Tells an event. -/
def tell (event : Event) (round : Round σ α) : Round σ α :=
  { round with memory := { round.memory with log := event :: round.memory.log } }

/-- Reports something, and tells of it. -/
def report (d : Diagnostic) (round : Round σ α) : Round σ α :=
  let round := round.tell d.event
  { round with diagnostics := round.diagnostics ++ [d] }

/-- Counts a failure. -/
def addFailure (f : DeclarationFailure) (round : Round σ α) : Round σ α :=
  { round with failures := round.failures ++ [f] }

/-- Reports a failure as an error of the declaration, and counts it. -/
def fail (f : DeclarationFailure) (round : Round σ α) : Round σ α :=
  (round.report ⟨.error, f.failure.message, f.declaration⟩).addFailure f

/-! ## Visits -/

/-- What a visit comes to, by what was reported before and after it: one error more makes it a
failure. -/
def outcome (result : Except Failure (List α)) (before after : List Diagnostic) :
    Except Failure (List α) :=
  match result with
  | .error failure => .error failure
  | .ok artifacts =>
    if Diagnostic.errorCount before < Diagnostic.errorCount after then
      .error (.rejected ((Diagnostic.lastError? after).getD ""))
    else .ok artifacts

/-- Shows a class to the visitor. The reports of the visit are kept whatever it comes to. -/
def visit (visitor : Visitor σ α) (r : Resolver) (e : ClassElement) (round : Round σ α) :
    Except Failure (List α) × Round σ α :=
  let (result, visit) := (visitor r e).run.run { own := round.own, memory := round.memory }
  let diagnostics := round.diagnostics ++ visit.reports
  (outcome result round.diagnostics diagnostics,
    { round with
      own := visit.own
      memory := visit.memory
      diagnostics })

/-- Skips a class whose visit failed. A rejection has been reported before. -/
def skip (e : ClassElement) (failure : Failure) (round : Round σ α) : Round σ α :=
  let round := round.tell ⟨.warn, "skipping " ++ e.name ++ ": " ++ failure.message⟩
  if failure.isRejection then round.addFailure ⟨e.symbol, failure⟩
  else round.fail ⟨e.symbol, failure⟩

/-- Visits classes in order. The failure that ends the visits early comes first in the result. -/
def visitEach (visitor : Visitor σ α) (r : Resolver) :
    List ClassElement → Round σ α → Option Failure × Round σ α
  | [], round => (none, round)
  | e :: rest, round =>
    match round.visit visitor r e with
    | (.ok artifacts, round) =>
      visitEach visitor r rest { round with artifacts := round.artifacts ++ artifacts }
    | (.error failure, round) =>
      if r.settings.failFast then (some failure, round)
      else visitEach visitor r rest (round.skip e failure)

/-! ## Whole rounds -/

/-- How often each reason is given, in the order in which the reasons are first given. -/
def tally (reasons : List Exclusion) : Table Exclusion Nat :=
  reasons.foldl (fun counts reason => (counts.insertIfNew reason 0).modify reason (· + 1)) ∅

/-- The numbers of a round. -/
def numbers (number : Nat) (survey : Survey) (round : Round σ α) : RoundReport where
  round := number
  declarations := survey.seen
  excluded := tally (survey.excluded.map (·.2))
  candidates := survey.candidates.length
  artifacts := round.artifacts.length
  failures := round.failures.length

/-- The event that tells of the end of a round. -/
def endEvent (report : RoundReport) (round : Round σ α) : Event :=
  ⟨.info, "round " ++ toString report.round ++ ": "
    ++ toString report.declarations ++ " declarations, "
    ++ toString report.candidates ++ " candidates, "
    ++ toString report.artifacts ++ " artifacts, "
    ++ toString report.failures ++ " failures ("
    ++ toString round.memory.answers.size ++ " elements cached)"⟩

/-- Surveys some units and visits the candidates, starting with the state of the visitor and a log.
-/
def run (visitor : Visitor σ α) (r : Resolver) (number : Nat) (units : List CompilationUnit)
    (own : σ) (log : Log) : Except Failure RoundReport × Round σ α :=
  match (r.survey units).run.run { log } with
  | (.error failure, memory) =>
    (.error failure, report ⟨.error, failure.message, none⟩ { own, memory })
  | (.ok survey, memory) =>
    let start := survey.failures.foldl (fun round f => round.fail f) { own, memory }
    match visitEach visitor r survey.candidates start with
    | (some failure, round) => (.error failure, round)
    | (none, round) =>
      let report := round.numbers number survey
      (.ok report, round.tell (round.endEvent report))

end Round

end BeanProcessing

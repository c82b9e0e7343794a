import BeanProcessing.Round
import BeanProcessing.Sink

/-!
# Sessions

A session runs rounds and keeps what they come to: the artifacts until they are written to a sink,
the diagnostics and failures for good. A round that is ended early leaves what it had come to by
then.

A session knows its visitor by the visitor's state only, so the visitor is passed to each round.
-/

namespace BeanProcessing

/-- What has come of the rounds so far. -/
structure Session (σ α : Type) where
  settings : Settings
  /-- The state of the visitor. -/
  own : σ
  /-- The artifacts that wait for a sink. -/
  pending : List α := []
  diagnostics : List Diagnostic := []
  failures : List DeclarationFailure := []
  /-- The number of rounds that were started. -/
  rounds : Nat := 0
  log : Log := []

namespace Session

variable {σ α τ : Type}

/-! ## Rounds -/

/-- Keeps what a round came to. -/
def keep (s : Session σ α) (round : Round σ α) : Session σ α :=
  { s with
    own := round.own
    pending := s.pending ++ round.artifacts
    diagnostics := s.diagnostics ++ round.diagnostics
    failures := s.failures ++ round.failures
    rounds := s.rounds + 1
    log := round.memory.log }

/-- Runs a round over some units of a graph. -/
def processUnits (visitor : Visitor σ α) (graph : SymbolGraph) (units : List CompilationUnit)
    (s : Session σ α) : Except Failure RoundReport × Session σ α :=
  let r := Resolver.ofUnits graph s.settings units
  let (result, round) := Round.run visitor r (s.rounds + 1) units s.own s.log
  (result, s.keep round)

/-- Runs a round over all units of a graph. -/
def process (visitor : Visitor σ α) (graph : SymbolGraph) (s : Session σ α) :
    Except Failure RoundReport × Session σ α :=
  s.processUnits visitor graph graph.units

/-! ## Writing -/

/-- The failure of a sink, as the session passes it on. -/
def sinkFailure : Failure → Failure
  | .sink detail => .sink detail
  | failure => .sink failure.message

/-- Adds an event to the log. -/
def tell (event : Event) (s : Session σ α) : Session σ α :=
  { s with log := event :: s.log }

variable [Artifact α]

/-- Writes the pending artifacts through an outlet and says how many there were. None of them is
pending afterwards, even if a call fails. -/
def finishThrough (outlet : Outlet (SinkM τ) α) (s : Session σ α) (state : τ) :
    Except Failure Nat × Session σ α × τ :=
  let count := s.pending.length
  let rest := { s with pending := [] }
  match (outlet.write s.settings s.pending).run.run state with
  | (.error failure, state) =>
    (.error (sinkFailure failure),
      rest.tell ⟨.error, "output sink failed: " ++ failure.message⟩, state)
  | (.ok (), state) =>
    (.ok count, rest.tell ⟨.info, "wrote " ++ toString count ++ " bean definitions"⟩, state)

/-- Writes the pending artifacts to a sink. -/
def finish (sink : Sink τ α) (s : Session σ α) (state : τ) :
    Except Failure Nat × Session σ α × τ :=
  s.finishThrough sink.outlet state

end Session

end BeanProcessing

import BeanProcessing.Sink

/-!
# Failing sinks

A sink can be set up to fail at one call, by its position among all calls, and to do what it did
before at every other. What a session makes of failures can be watched with such a sink.
-/

namespace BeanProcessing.Sink

variable {τ α : Type}

/-- Counts a call, which fails in place of what it was to do if it is the one that should. -/
def counted (failAt : Nat) (failure : Failure) (call : SinkM τ Unit) : SinkM (Nat × τ) Unit :=
  ExceptT.mk fun (calls, state) =>
    if calls = failAt then (.error failure, calls + 1, state)
    else
      let (result, state) := call.run.run state
      (result, calls + 1, state)

/-- The sink with one call that fails; its state has the number of calls in front. -/
def failingAt (failAt : Nat) (failure : Failure) (sink : Sink τ α) : Sink (Nat × τ) α where
  acceptReference r := counted failAt failure (sink.acceptReference r)
  acceptArtifact a := counted failAt failure (sink.acceptArtifact a)
  flush := counted failAt failure sink.flush

end BeanProcessing.Sink

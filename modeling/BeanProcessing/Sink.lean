import BeanProcessing.Artifact
import BeanProcessing.Failure
import BeanProcessing.Settings

/-!
# Sinks

Artifacts are written to a sink: a light reference ahead of each of them, then the artifact itself,
and a flush after the last. Each call may fail, and the first failure ends the writing. An artifact
is frozen right before its reference is written.
-/

namespace BeanProcessing

/-- What is written ahead of an artifact. -/
structure Reference where
  beanType : String
  requiresMethodProcessing : Bool
  /-- Whether the bean is made as soon as there is a context. -/
  contextScope : Bool
deriving DecidableEq

/-- The reference to an artifact. -/
def Reference.ofArtifact {α : Type} [Artifact α] (settings : Settings) (a : α) : Reference where
  beanType := Artifact.beanType a
  requiresMethodProcessing := Artifact.requiresMethodProcessing a
  contextScope := (Artifact.annotations a).hasDeclared settings.contextScopeMarker

/-- A computation that changes the state of a sink, and may fail. -/
abbrev SinkM (τ : Type) := ExceptT Failure (StateM τ)

/-- A sink with states in `τ` for artifacts in `α`. -/
structure Sink (τ α : Type) where
  acceptReference : Reference → SinkM τ Unit
  acceptArtifact : α → SinkM τ Unit
  /-- Called once after the last artifact, if there was any. -/
  flush : SinkM τ Unit

/-! ## Writing -/

/-- What it takes to write artifacts in `m`: the calls of a sink, and how an artifact is frozen. -/
structure Outlet (m : Type → Type) (α : Type) where
  freeze : α → m α
  acceptReference : Reference → m Unit
  acceptArtifact : α → m Unit
  flush : m Unit

/-- The outlet into a sink. -/
def Sink.outlet {τ α : Type} [Artifact α] (sink : Sink τ α) : Outlet (SinkM τ) α where
  freeze a := pure (Artifact.freeze a)
  acceptReference := sink.acceptReference
  acceptArtifact := sink.acceptArtifact
  flush := sink.flush

namespace Outlet

variable {m : Type → Type} [Monad m] {α : Type} [Artifact α]

/-- Writes an artifact, frozen, after a reference to it as it was before. -/
def writeOne (outlet : Outlet m α) (settings : Settings) (a : α) : m Unit := do
  let frozen ← outlet.freeze a
  outlet.acceptReference (.ofArtifact settings a)
  outlet.acceptArtifact frozen

/-- Writes artifacts in order. -/
def writeEach (outlet : Outlet m α) (settings : Settings) : List α → m Unit
  | [] => pure ()
  | a :: rest => do
    outlet.writeOne settings a
    outlet.writeEach settings rest

/-- Writes artifacts and flushes the sink; without artifacts the sink is not called at all. -/
def write (outlet : Outlet m α) (settings : Settings) : List α → m Unit
  | [] => pure ()
  | a :: rest => do
    outlet.writeEach settings (a :: rest)
    outlet.flush

end Outlet

end BeanProcessing

import BeanProcessing.Json.Printer
import BeanProcessing.Sink

/-!
# Recordings

A recording is the sink that keeps what it is given, in order, and never fails.
-/

namespace BeanProcessing

/-- What a recording keeps of a call. -/
inductive Record where
  | reference (r : Reference)
  /-- Of an artifact, the name of its class. -/
  | artifact (beanType : String)
deriving DecidableEq

/-- The calls that a sink was given. -/
structure Recording where
  records : List Record := []
  flushes : Nat := 0
deriving DecidableEq

namespace Recording

/-- Adds a record. -/
def add (record : Record) (recording : Recording) : Recording :=
  { recording with records := recording.records ++ [record] }

/-- The references among the records. -/
def references (recording : Recording) : List Reference :=
  recording.records.filterMap fun
    | .reference r => some r
    | .artifact _ => none

/-- The sink that records. -/
def sink {α : Type} [Artifact α] : Sink Recording α where
  acceptReference r := modify (add (.reference r))
  acceptArtifact a := modify (add (.artifact (Artifact.beanType a)))
  flush := modify fun recording => { recording with flushes := recording.flushes + 1 }

/-! ## Records in JSON -/

/-- The fields of a reference. -/
def referenceFields (r : Reference) : List (String × Json) :=
  [("bean_type", .string r.beanType),
    ("requires_method_processing", .bool r.requiresMethodProcessing),
    ("context_scope", .bool r.contextScope)]

/-- A record as a JSON value. -/
def recordToJson : Record → Json
  | .reference r => .object (("event", .string "reference") :: referenceFields r)
  | .artifact beanType =>
    .object [("event", .string "definition"), ("bean_type", .string beanType)]

/-- The records as JSON text. -/
def toText (recording : Recording) : String :=
  (Json.array (recording.records.map recordToJson)).compact

end Recording

end BeanProcessing

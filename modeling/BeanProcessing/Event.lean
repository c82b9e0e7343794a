/-!
# Events

What is worth telling about the work while it goes on. Events are data: whoever does the work adds
them to a log, and whoever runs it decides which of them to show.
-/

namespace BeanProcessing

/-- How important an event is, least first. -/
inductive Level where
  | trace
  | debug
  | info
  | warn
  | error
deriving DecidableEq, Repr

namespace Level

/-- The name of the level. -/
def name : Level → String
  | trace => "trace"
  | debug => "debug"
  | info => "info"
  | warn => "warn"
  | error => "error"

/-- The level with a name. -/
def ofName? : String → Option Level
  | "trace" => some trace
  | "debug" => some debug
  | "info" => some info
  | "warn" => some warn
  | "error" => some error
  | _ => none

/-- The place of the level in the order of levels. -/
def rank : Level → Nat
  | trace => 0
  | debug => 1
  | info => 2
  | warn => 3
  | error => 4

end Level

/-- A message at a level. -/
structure Event where
  level : Level
  message : String
deriving DecidableEq, Repr

/-- Events, last first. -/
abbrev Log := List Event

namespace Log

/-- The events of at least a level, first to last. -/
def atLeast (log : Log) (level : Level) : List Event :=
  (log.filter (level.rank ≤ ·.level.rank)).reverse

end Log

end BeanProcessing

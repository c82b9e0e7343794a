import BeanProcessing.Event
import BeanProcessing.Json.Basic
import BeanProcessing.Symbol.Json

/-!
# Diagnostics

What a visitor or the session reports about the declarations it processes. Reports are kept in order
and every one is told as an event too.
-/

namespace BeanProcessing

/-- How bad a diagnostic is, least first. -/
inductive Severity where
  | info
  | warning
  | error
deriving DecidableEq, Repr

namespace Severity

/-- The name of the severity. -/
def name : Severity → String
  | info => "info"
  | warning => "warning"
  | error => "error"

/-- The severity with a name. -/
def ofName? : String → Option Severity
  | "info" => some info
  | "warning" => some warning
  | "error" => some error
  | _ => none

/-- The level at which a report of this severity is told. -/
def level : Severity → Level
  | info => .info
  | warning => .warn
  | error => .error

/-- The place of the severity in the order of severities. -/
def rank : Severity → Nat
  | info => 0
  | warning => 1
  | error => 2

/-- Severities in order, least first. -/
def sort (severities : List Severity) : List Severity :=
  severities.mergeSort (fun s t => s.rank ≤ t.rank)

end Severity

/-- A report, about a symbol or in general. -/
structure Diagnostic where
  severity : Severity
  message : String
  symbol : Option Symbol := none
deriving DecidableEq

namespace Diagnostic

/-- The severity and the message, then the symbol in parentheses if there is one. -/
instance : ToString Diagnostic where
  toString d :=
    d.severity.name ++ ": " ++ d.message
      ++ (match d.symbol with
        | some s => " (" ++ toString s ++ ")"
        | none => "")

/-- Whether the report is an error. -/
def isError (d : Diagnostic) : Bool := d.severity == .error

/-- The event that tells of the report. -/
def event (d : Diagnostic) : Event := ⟨d.severity.level, toString d⟩

/-- The report as a JSON value. -/
def toJson (d : Diagnostic) : Json :=
  .object ([("severity", .string d.severity.name), ("message", .string d.message)]
    ++ (match d.symbol with
      | some s => [("symbol", s.toJson)]
      | none => []))

/-- The number of errors among reports. -/
def errorCount (reports : List Diagnostic) : Nat := reports.countP isError

/-- The message of the last error among reports. -/
def lastError? (reports : List Diagnostic) : Option String :=
  (reports.reverse.find? isError).map (·.message)

end Diagnostic

end BeanProcessing

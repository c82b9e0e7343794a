import BeanProcessing.Diagnostic
import BeanProcessing.Resolver.Member

/-!
# Visitors

A visitor turns a class into artifacts. It may resolve more types, report what it finds and change a
state of its own, and it may fail. Nothing that others have reported is within its reach: a visit
starts without reports.
-/

namespace BeanProcessing

/-- What a visit may change. -/
structure Visit (σ : Type) where
  /-- The visitor's own state. -/
  own : σ
  memory : Memory
  /-- What was reported in this visit. -/
  reports : List Diagnostic := []

/-- A computation in the course of a visit. -/
abbrev VisitM (σ : Type) := ExceptT Failure (StateM (Visit σ))

namespace VisitM

variable {σ β : Type}

/-- Resolves something in the course of a visit. -/
def resolving (action : ResolveM β) : VisitM σ β :=
  ExceptT.mk fun visit =>
    let (result, memory) := action.run.run visit.memory
    (result, { visit with memory })

/-- Tells an event. -/
def tell (event : Event) : VisitM σ Unit :=
  resolving (Memory.tell event)

/-- Reports something, and tells of it. -/
def report (d : Diagnostic) : VisitM σ Unit := do
  tell d.event
  modify fun visit => { visit with reports := visit.reports ++ [d] }

end VisitM

/-- A visitor with states in `σ` that makes artifacts in `α`. -/
abbrev Visitor (σ α : Type) := Resolver → ClassElement → VisitM σ (List α)

end BeanProcessing

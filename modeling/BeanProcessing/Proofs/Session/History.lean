import BeanProcessing.Proofs.Session.Projection
import BeanProcessing.Proofs.Session.Trace

/-!
# Histories of sessions

What happens in a session is decided by its visitor and by the sinks that it is written to, neither
of which the session knows anything about. To say what happened, both are made to take notes:

* `Visitor.recorded` is a visitor that keeps a record of every visit behind its state.
* `Sink.traced` is a sink that keeps every call, and what came of it, behind its state.
* A `History` is what a session has come to with such a visitor and such sinks, together with the
  notes that were taken on the way.

Taking notes changes nothing: without the notes, the session of a history is the session that goes
through the same steps with the visitor and the sinks as they were.
-/

namespace BeanProcessing

variable {σ τ α : Type}

/-! ## Visitors that record -/

/-- What came of one visit. -/
structure VisitRecord (α : Type) where
  result : Except Failure (List α)
  /-- What was reported in the visit. -/
  reports : List Diagnostic

/-- The artifacts that a visit returned, if it did and reported no error; none otherwise. -/
def VisitRecord.kept (v : VisitRecord α) : List α :=
  match v.result with
  | .ok artifacts => if v.reports.any (·.severity == .error) then [] else artifacts
  | .error _ => []

/-- The visitor that records its visits. -/
def Visitor.recorded (visitor : Visitor σ α) : Visitor (σ × List (VisitRecord α)) α := fun r e =>
  ExceptT.mk fun visit =>
    let (result, after) := (visitor r e).run.run { visit with own := visit.own.1 }
    (result, { after with own := (after.own, visit.own.2 ++ [⟨result, after.reports⟩]) })

theorem Visitor.recorded_extends (visitor : Visitor σ α) :
    visitor.recorded.Extends Prod.fst visitor :=
  fun _ _ _ => rfl

namespace Round

/-- The round without the records of its visitor. -/
def forget (round : Round (σ × List (VisitRecord α)) α) : Round σ α :=
  { round with own := round.own.1 }

theorem forget_run (visitor : Visitor σ α) (r : Resolver) (number : Nat)
    (units : List CompilationUnit) (own : σ × List (VisitRecord α)) (log : Log) :
    Prod.map id forget (run visitor.recorded r number units own log)
      = run visitor r number units own.1 log :=
  mapOwn_run visitor.recorded_extends r number units own log

end Round

/-! ## Histories -/

/-- What can be done with a session. -/
inductive SessionStep (α : Type) : Type 1 where
  /-- A round over all units of a graph. -/
  | process (graph : SymbolGraph)
  /-- A round over some units of a graph. -/
  | processUnits (graph : SymbolGraph) (units : List CompilationUnit)
  /-- Writing what is pending to a sink in some state. -/
  | finish {τ : Type} (sink : Sink τ α) (state : τ)

/-- The session without the records of its visitor. -/
def Session.forget (s : Session (σ × List (VisitRecord α)) α) : Session σ α :=
  { s with own := s.own.1 }

theorem Session.forget_processUnits (visitor : Visitor σ α) (graph : SymbolGraph)
    (units : List CompilationUnit) (s : Session (σ × List (VisitRecord α)) α) :
    (s.processUnits visitor.recorded graph units).2.forget
      = (s.forget.processUnits visitor graph units).2 :=
  congrArg Prod.snd (mapOwn_processUnits visitor.recorded_extends graph units s)

variable [Artifact α]

namespace Session

/-- Writing leaves nothing pending, and changes nothing else but the log. -/
theorem finish_eq (sink : Sink τ α) (state : τ) (s : Session σ α) :
    ∃ log, (s.finish sink state).2.1 = { s with pending := [], log } := by
  unfold finish finishThrough
  rcases (sink.outlet.write s.settings s.pending).run.run state with ⟨result, state'⟩
  cases result with
  | ok _ => exact ⟨_, rfl⟩
  | error failure => exact ⟨_, rfl⟩

/-- An outlet that takes notes does to a session what the outlet does without. -/
theorem finishThrough_of_traces {ε : Type} {canFail : ε → Prop} {plan : List ε}
    {noted : Outlet (SinkM (τ × Notes ε)) α} {outlet : Outlet (SinkM τ) α} {s : Session σ α}
    (h : Traces canFail (noted.write s.settings s.pending)
      (outlet.write s.settings s.pending) plan) (state : τ) (notes : Notes ε) :
    ∃ made : Notes ε,
      Follows canFail plan ((outlet.write s.settings s.pending).run.run state).1 made ∧
      s.finishThrough noted (state, notes)
        = ((s.finishThrough outlet state).1, (s.finishThrough outlet state).2.1,
          (s.finishThrough outlet state).2.2, notes ++ made) := by
  obtain ⟨made, hfollows, hrun⟩ := h state notes
  refine ⟨made, hfollows, ?_⟩
  unfold finishThrough
  rw [hrun]
  rcases (outlet.write s.settings s.pending).run.run state with ⟨result, state'⟩
  cases result with
  | ok _ => rfl
  | error failure => rfl

/-- A traced sink does to a session what the sink does, and notes the calls that it takes to write
what is pending. -/
theorem finish_traced (sink : Sink τ α) (state : τ) (calls : SinkLog α) (s : Session σ α) :
    ∃ made : SinkLog α,
      (s.finish sink.traced (state, calls)).2.1 = (s.finish sink state).2.1 ∧
      (s.finish sink.traced (state, calls)).2.2.2 = calls ++ made ∧
      ((∀ call ∈ made, call.2 = .ok ()) →
        made.map Prod.fst = Sink.batchCalls s.settings s.pending) := by
  obtain ⟨made, hfollows, hrun⟩ :=
    finishThrough_of_traces (Sink.traces_write_traced sink s.settings s.pending) state calls
  refine ⟨made, ?_, ?_, fun hall => (hfollows.eq_of_forall_ok hall).2⟩
  · rw [finish, hrun]
    rfl
  · rw [finish, hrun]

/-- The session after a step, whether that came to something or failed. -/
def after (visitor : Visitor σ α) (s : Session σ α) : SessionStep α → Session σ α
  | .process graph => (s.process visitor graph).2
  | .processUnits graph units => (s.processUnits visitor graph units).2
  | .finish sink state => (s.finish sink state).2.1

end Session

/-- A session with a visitor that records and sinks that are traced, and what they have noted. -/
structure History (σ α : Type) where
  session : Session (σ × List (VisitRecord α)) α
  /-- The calls of all sinks so far. -/
  calls : SinkLog α := []
  /-- How often the session was written while something was pending. -/
  writings : Nat := 0

namespace History

/-- The visits so far, in order. -/
def visits (h : History σ α) : List (VisitRecord α) := h.session.own.2

/-- The history that nothing has happened in yet. -/
def start (settings : Settings) (own : σ) : History σ α where
  session := { settings, own := (own, []) }

/-- The history after one step more. -/
def after (visitor : Visitor σ α) (h : History σ α) : SessionStep α → History σ α
  | .process graph => { h with session := (h.session.process visitor.recorded graph).2 }
  | .processUnits graph units =>
    { h with session := (h.session.processUnits visitor.recorded graph units).2 }
  | .finish sink state =>
    let (_, session, _, calls) := h.session.finish sink.traced (state, h.calls)
    { session, calls, writings := if h.session.pending.isEmpty then h.writings else h.writings + 1 }

/-- The history after some steps more. -/
def run (visitor : Visitor σ α) (h : History σ α) (steps : List (SessionStep α)) : History σ α :=
  steps.foldl (after visitor) h

theorem forget_after (visitor : Visitor σ α) (h : History σ α) (step : SessionStep α) :
    (h.after visitor step).session.forget = h.session.forget.after visitor step := by
  cases step with
  | process graph => exact Session.forget_processUnits visitor graph graph.units h.session
  | processUnits graph units => exact Session.forget_processUnits visitor graph units h.session
  | finish sink state =>
    obtain ⟨made, hsession, -, -⟩ := Session.finish_traced sink state h.calls h.session
    show (h.session.finish sink.traced (state, h.calls)).2.1.forget = _
    rw [hsession]
    exact Session.mapOwn_finish sink state h.session

/-- Without the notes, the session of a history is the session that goes through the same steps. -/
theorem forget_run (visitor : Visitor σ α) (h : History σ α) (steps : List (SessionStep α)) :
    (h.run visitor steps).session.forget
      = steps.foldl (Session.after visitor) h.session.forget := by
  induction steps generalizing h with
  | nil => rfl
  | cons step rest ih =>
    rw [List.foldl_cons, ← forget_after]
    exact ih (h.after visitor step)

end History

end BeanProcessing

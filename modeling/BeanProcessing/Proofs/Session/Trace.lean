import BeanProcessing.Sink

/-!
# Traces of sinks

What is written to a sink shows in the calls that are made, in their order, and in what comes of
each. An outlet can be made to take notes of its steps while it does what it did before:

* `Sink.traced` is the sink that notes its calls.
* `Sink.watched` is the outlet into a sink that notes when it freezes an artifact as well.

A plan says which steps there are if none of them fails, and `Follows` what the notes are then and
otherwise: the first failure ends them. `Traces` is the relation between an action that takes notes,
the action by itself, and its plan; writing is shown to be in it by one lemma for each way in which
actions are put together.
-/

namespace BeanProcessing

variable {τ ε α β γ : Type}

/-! ## Notes -/

/-- Steps with what came of each, in order. -/
abbrev Notes (ε : Type) := List (ε × Except Failure Unit)

/-- Does what an action does, and notes a step with what came of it. -/
def noting (step : ε) (action : SinkM τ β) : SinkM (τ × Notes ε) β :=
  ExceptT.mk fun (state, notes) =>
    let (result, state) := action.run.run state
    (result, state, notes ++ [(step, result.map fun _ => ())])

/-- Whether notes tell that a plan was carried out, to its end if the result is not a failure, and
otherwise up to and including a step that can fail. -/
inductive Follows (canFail : ε → Prop) (plan : List ε) : Except Failure β → Notes ε → Prop where
  | completed (b : β) : Follows canFail plan (.ok b) (plan.map (·, .ok ()))
  | failed {done rest : List ε} {step : ε} (failure : Failure) (hstep : canFail step)
      (hplan : plan = done ++ step :: rest) :
      Follows canFail plan (.error failure) (done.map (·, .ok ()) ++ [(step, .error failure)])

/-- Whether an action notes the steps of a plan while it does what another does. -/
def Traces (canFail : ε → Prop) (noted : SinkM (τ × Notes ε) β) (action : SinkM τ β)
    (plan : List ε) : Prop :=
  ∀ state notes, ∃ made : Notes ε, Follows canFail plan (action.run.run state).1 made ∧
    noted.run.run (state, notes)
      = ((action.run.run state).1, (action.run.run state).2, notes ++ made)

/-- The second of two actions runs if the first does not fail. -/
theorem SinkM.run_bind (first : SinkM τ β) (second : β → SinkM τ γ) (state : τ) :
    (first >>= second).run.run state
      = match first.run.run state with
        | (.ok b, state') => (second b).run.run state'
        | (.error failure, state') => (.error failure, state') := by
  rw [ExceptT.run_bind, StateT.run_bind]
  obtain ⟨result, state'⟩ := first.run.run state
  cases result with
  | ok b => rfl
  | error failure => rfl

namespace Follows

variable {canFail : ε → Prop} {plan plan' : List ε} {made made' : Notes ε}

theorem append {b : β} {result : Except Failure γ} (h : Follows canFail plan (.ok b) made)
    (h' : Follows canFail plan' result made') :
    Follows canFail (plan ++ plan') result (made ++ made') := by
  -- the first plan was carried out to its end, so only the second can break off
  cases h
  cases h' with
  | completed b' =>
    rw [← List.map_append]
    exact completed b'
  | failed failure hstep hplan =>
    rw [← List.append_assoc, ← List.map_append]
    exact failed failure hstep (by rw [hplan, List.append_assoc])

/-- What comes behind a failure is not reached. -/
theorem append_of_error {failure : Failure}
    (h : Follows canFail plan (.error failure : Except Failure β) made) :
    Follows canFail (plan ++ plan') (.error failure : Except Failure γ) made := by
  cases h with
  | failed _ hstep hplan =>
    exact failed failure hstep (by rw [hplan, List.append_assoc, List.cons_append])

/-- If no step failed, then the result is no failure and all steps of the plan were made. -/
theorem eq_of_forall_ok {result : Except Failure Unit} (h : Follows canFail plan result made)
    (hmade : ∀ note ∈ made, note.2 = .ok ()) : result = .ok () ∧ made.map Prod.fst = plan := by
  cases h with
  | completed b =>
    refine ⟨rfl, ?_⟩
    rw [List.map_map]
    exact List.map_id plan
  | failed failure hstep hplan =>
    cases hmade _ (List.mem_append_right _ (List.mem_singleton_self _))

end Follows

namespace Traces

variable {canFail : ε → Prop} {plan plan' : List ε}

theorem pure (b : β) : Traces canFail (pure b) (pure b : SinkM τ β) [] :=
  fun state notes => ⟨[], .completed b, by rw [List.append_nil]; rfl⟩

theorem noting {step : ε} (hstep : canFail step) (action : SinkM τ Unit) :
    Traces canFail (noting step action) action [step] := by
  intro state notes
  refine ⟨[(step, (action.run.run state).1.map fun _ => ())], ?_, rfl⟩
  cases (action.run.run state).1 with
  | ok _ => exact .completed ()
  | error failure => exact @Follows.failed ε Unit canFail [step] [] [] step failure hstep rfl

theorem bind {noted : SinkM (τ × Notes ε) β} {action : SinkM τ β}
    {noted' : β → SinkM (τ × Notes ε) γ} {action' : β → SinkM τ γ}
    (h : Traces canFail noted action plan)
    (h' : ∀ b, Traces canFail (noted' b) (action' b) plan') :
    Traces canFail (noted >>= noted') (action >>= action') (plan ++ plan') := by
  intro state notes
  obtain ⟨made, hfollows, hrun⟩ := h state notes
  rw [SinkM.run_bind, SinkM.run_bind, hrun]
  rcases haction : action.run.run state with ⟨result, state'⟩
  rw [haction] at hfollows
  cases result with
  -- a failure of the first ends both, and is the last that is noted
  | error failure => exact ⟨made, hfollows.append_of_error, rfl⟩
  | ok b =>
    obtain ⟨made', hfollows', hrun'⟩ := h' b state' (notes ++ made)
    refine ⟨made ++ made', hfollows.append hfollows', ?_⟩
    rw [← List.append_assoc]
    exact hrun'

/-- A step that has a result at once is noted, whether or not it can fail. -/
theorem noting_pure_bind (step : ε) (b : β) {noted : β → SinkM (τ × Notes ε) γ}
    {action : β → SinkM τ γ} (h : Traces canFail (noted b) (action b) plan) :
    Traces canFail (BeanProcessing.noting step (Pure.pure b) >>= noted) (Pure.pure b >>= action)
      (step :: plan) := by
  intro state notes
  obtain ⟨made, hfollows, hrun⟩ := h state (notes ++ [(step, .ok ())])
  have hstep : Follows canFail [step] (.ok b) [(step, .ok ())] := .completed b
  refine ⟨(step, .ok ()) :: made, hstep.append hfollows, ?_⟩
  rw [SinkM.run_bind, pure_bind, List.append_cons]
  exact hrun

end Traces

/-! ## Calls -/

/-- A call of a sink. -/
inductive SinkCall (α : Type) where
  | reference (r : Reference)
  | artifact (a : α)
  | flush

/-- Calls of sinks with what came of them, in order. -/
abbrev SinkLog (α : Type) := Notes (SinkCall α)

/-- The sink that notes its calls. -/
def Sink.traced (sink : Sink τ α) : Sink (τ × SinkLog α) α where
  acceptReference r := noting (.reference r) (sink.acceptReference r)
  acceptArtifact a := noting (.artifact a) (sink.acceptArtifact a)
  flush := noting .flush sink.flush

/-- A step of writing. -/
inductive WriteStep (α : Type) where
  /-- An artifact is frozen. -/
  | freeze (a : α)
  | call (c : SinkCall α)

/-- The call that a step is, if it is one. -/
def WriteStep.call? : WriteStep α → Option (SinkCall α)
  | freeze _ => none
  | call c => some c

/-- The artifact that is frozen in a step. -/
def WriteStep.frozen? : WriteStep α → Option α
  | freeze a => some a
  | call _ => none

variable [Artifact α]

namespace Sink

/-- The outlet into a sink that notes its steps. -/
def watched (sink : Sink τ α) : Outlet (SinkM (τ × Notes (WriteStep α))) α where
  freeze a := noting (.freeze a) (pure (Artifact.freeze a))
  acceptReference r := noting (.call (.reference r)) (sink.acceptReference r)
  acceptArtifact a := noting (.call (.artifact a)) (sink.acceptArtifact a)
  flush := noting (.call .flush) sink.flush

/-! ## Plans -/

/-- The calls that write an artifact: the first has its reference, the second the artifact itself,
frozen. -/
def callsFor (settings : Settings) (a : α) : List (SinkCall α) :=
  [.reference (.ofArtifact settings a), .artifact (Artifact.freeze a)]

/-- The calls that write some artifacts at once, with a flush behind the last; none are needed to
write nothing. -/
def batchCalls (settings : Settings) : List α → List (SinkCall α)
  | [] => []
  | a :: rest => (a :: rest).flatMap (callsFor settings) ++ [.flush]

/-- The steps that write an artifact: it is frozen right before the first call. -/
def stepsFor (settings : Settings) (a : α) : List (WriteStep α) :=
  .freeze a :: (callsFor settings a).map .call

/-- The steps that write some artifacts at once. -/
def batchSteps (settings : Settings) : List α → List (WriteStep α)
  | [] => []
  | a :: rest => (a :: rest).flatMap (stepsFor settings) ++ [.call .flush]

theorem traces_writeEach {noted : Outlet (SinkM (τ × Notes ε)) α} {outlet : Outlet (SinkM τ) α}
    {canFail : ε → Prop} {settings : Settings} {plan : α → List ε}
    (hone : ∀ a, Traces canFail (noted.writeOne settings a) (outlet.writeOne settings a) (plan a))
    (artifacts : List α) :
    Traces canFail (noted.writeEach settings artifacts) (outlet.writeEach settings artifacts)
      (artifacts.flatMap plan) := by
  induction artifacts with
  | nil => exact Traces.pure ()
  | cons a rest ih => exact (hone a).bind fun _ => ih

theorem traces_writeOne_traced (sink : Sink τ α) (settings : Settings) (a : α) :
    Traces (fun _ => True) (sink.traced.outlet.writeOne settings a)
      (sink.outlet.writeOne settings a) (callsFor settings a) := by
  unfold Outlet.writeOne outlet
  dsimp only
  rw [pure_bind, pure_bind]
  exact (Traces.noting trivial _).bind fun _ => Traces.noting trivial _

theorem traces_write_traced (sink : Sink τ α) (settings : Settings) (artifacts : List α) :
    Traces (fun _ => True) (sink.traced.outlet.write settings artifacts)
      (sink.outlet.write settings artifacts) (batchCalls settings artifacts) := by
  cases artifacts with
  | nil => exact Traces.pure ()
  | cons a rest =>
    exact (traces_writeEach (traces_writeOne_traced sink settings) (a :: rest)).bind
      fun _ => Traces.noting trivial _

/-- Only calls can fail. -/
theorem traces_writeOne_watched (sink : Sink τ α) (settings : Settings) (a : α) :
    Traces (fun step => ∃ c, step = .call c) (sink.watched.writeOne settings a)
      (sink.outlet.writeOne settings a) (stepsFor settings a) := by
  refine Traces.noting_pure_bind (WriteStep.freeze a) (Artifact.freeze a) ?_
  exact (Traces.noting ⟨_, rfl⟩ _).bind fun _ => Traces.noting ⟨_, rfl⟩ _

theorem traces_write_watched (sink : Sink τ α) (settings : Settings) (artifacts : List α) :
    Traces (fun step => ∃ c, step = .call c) (sink.watched.write settings artifacts)
      (sink.outlet.write settings artifacts) (batchSteps settings artifacts) := by
  cases artifacts with
  | nil => exact Traces.pure ()
  | cons a rest =>
    exact (traces_writeEach (traces_writeOne_watched sink settings) (a :: rest)).bind
      fun _ => Traces.noting ⟨_, rfl⟩ _

end Sink

end BeanProcessing

import BeanProcessing.Proofs.Session.Conservation

/-!
# Finalization

Writing what is pending is planned from what is pending alone: every artifact is frozen, then its
reference is written, then the artifact; a flush comes last. However a sink behaves, it sees this
plan up to the first call that fails, and nothing behind it. The session does not depend on how far
the plan got: nothing is pending afterwards.

What is noted is read off the plan by `Follows`, so that the statements here are about prefixes of
`Sink.batchSteps` and need no run of a sink.
-/

namespace BeanProcessing

variable {σ τ α β ε : Type}

/-- The calls among steps, with what came of them. -/
def Notes.calls (notes : Notes (WriteStep α)) : SinkLog α :=
  notes.filterMap fun note => note.1.call?.map (·, note.2)

/-- The artifacts that were frozen, as they were before. -/
def Notes.frozen (notes : Notes (WriteStep α)) : List α :=
  notes.filterMap fun note => note.1.frozen?

/-- Whether a call has a reference. -/
def SinkCall.isReference : SinkCall α → Bool
  | .reference _ => true
  | .artifact _ => false
  | .flush => false

/-! ## Steps and calls -/

namespace Notes

theorem calls_append (notes notes' : Notes (WriteStep α)) :
    calls (notes ++ notes') = calls notes ++ calls notes' :=
  List.filterMap_append

/-- The calls of a plan that was carried out are those among its steps. -/
theorem calls_map_ok (steps : List (WriteStep α)) :
    calls (steps.map (·, .ok ())) = (steps.filterMap WriteStep.call?).map (·, .ok ()) := by
  rw [calls, List.filterMap_map, List.map_filterMap]
  rfl

theorem map_fst_calls (notes : Notes (WriteStep α)) :
    (calls notes).map Prod.fst = (notes.map Prod.fst).filterMap WriteStep.call? := by
  rw [calls, List.map_filterMap, List.filterMap_map]
  congr 1
  funext ⟨step, result⟩
  cases step <;> rfl

theorem frozen_eq (notes : Notes (WriteStep α)) :
    frozen notes = (notes.map Prod.fst).filterMap WriteStep.frozen? := by
  rw [frozen, List.filterMap_map]
  rfl

end Notes

namespace Follows

variable {canFail : ε → Prop} {plan : List ε} {result : Except Failure β} {made : Notes ε}

/-- What was noted is the beginning of the plan. -/
theorem map_fst_prefix (h : Follows canFail plan result made) : made.map Prod.fst <+: plan := by
  cases h with
  | completed b =>
    rw [List.map_map]
    exact ⟨[], by rw [List.append_nil]; exact List.map_id plan⟩
  | @failed done rest step failure hstep hplan =>
    refine ⟨rest, ?_⟩
    rw [hplan, List.map_append, List.map_map, List.append_assoc]
    exact congrArg (· ++ step :: rest) (List.map_id done)

/-- The last step that was noted can fail if it is not the last of the plan. -/
theorem canFail_getLast (h : Follows canFail plan result made)
    (hplan : ∀ step ∈ plan.getLast?, canFail step) :
    ∀ step ∈ (made.map Prod.fst).getLast?, canFail step := by
  cases h with
  | completed b =>
    rw [List.map_map]
    exact (List.map_id plan).symm ▸ hplan
  | failed failure hstep hplan =>
    intro step hmem
    rw [List.map_append, List.map_singleton, List.getLast?_concat] at hmem
    exact Option.some.inj hmem ▸ hstep

end Follows

variable [Artifact α]

namespace Sink

theorem filterMap_call?_stepsFor (settings : Settings) (artifacts : List α) :
    (artifacts.flatMap (stepsFor settings)).filterMap WriteStep.call?
      = artifacts.flatMap (callsFor settings) := by
  rw [List.filterMap_flatMap]
  rfl

theorem filterMap_call?_batchSteps (settings : Settings) (artifacts : List α) :
    (batchSteps settings artifacts).filterMap WriteStep.call? = batchCalls settings artifacts := by
  cases artifacts with
  | nil => rfl
  | cons a rest =>
    rw [batchSteps, List.filterMap_append, filterMap_call?_stepsFor]
    rfl

/-- The plan ends with a call. -/
theorem exists_call_of_mem_getLast?_batchSteps {settings : Settings} {artifacts : List α} :
    ∀ step ∈ (batchSteps settings artifacts).getLast?, ∃ c, step = .call c := by
  intro step hmem
  cases artifacts with
  | nil => cases hmem
  | cons a rest =>
    rw [batchSteps, List.getLast?_concat] at hmem
    exact ⟨.flush, (Option.some.inj hmem).symm⟩

/-- A beginning of the plan that does not break off between freezing an artifact and writing its
reference freezes as many artifacts as it has references, in order. -/
theorem filterMap_frozen?_eq_take {settings : Settings} {artifacts : List α}
    {tail steps : List (WriteStep α)} (htail : ∀ step ∈ tail, step = .call .flush)
    (hsteps : steps <+: artifacts.flatMap (stepsFor settings) ++ tail)
    (hlast : ∀ step ∈ steps.getLast?, ∃ c, step = .call c) :
    steps.filterMap WriteStep.frozen?
      = artifacts.take ((steps.filterMap WriteStep.call?).countP SinkCall.isReference) := by
  induction artifacts generalizing steps with
  | nil =>
    rw [List.take_nil, List.filterMap_eq_nil_iff]
    intro step hstep
    rw [htail step (hsteps.subset hstep)]
    rfl
  | cons a rest ih =>
    rw [List.flatMap_cons, List.append_assoc] at hsteps
    -- the steps for the first artifact are three, and there may have been any number of them but
    -- one, since that would be to freeze the artifact
    match steps, hsteps, hlast with
    | [], _, _ => rfl
    | [_], hsteps, hlast =>
      obtain ⟨rfl, -⟩ := List.cons_prefix_cons.1 hsteps
      obtain ⟨c, hc⟩ := hlast _ rfl
      cases hc
    | [_, _], hsteps, _ =>
      obtain ⟨rfl, hreference⟩ := List.cons_prefix_cons.1 hsteps
      obtain ⟨rfl, -⟩ := List.cons_prefix_cons.1 hreference
      rfl
    | _ :: _ :: _ :: steps, hsteps, hlast =>
      obtain ⟨rfl, hreference⟩ := List.cons_prefix_cons.1 hsteps
      obtain ⟨rfl, hartifact⟩ := List.cons_prefix_cons.1 hreference
      obtain ⟨rfl, hrest⟩ := List.cons_prefix_cons.1 hartifact
      have hfrozen := ih hrest fun step hstep => hlast step (by
        cases steps with
        | nil => cases hstep
        | cons step' steps => exact hstep)
      show a :: steps.filterMap WriteStep.frozen? = (a :: rest).take
        (List.countP SinkCall.isReference (.reference (.ofArtifact settings a)
          :: .artifact (Artifact.freeze a) :: steps.filterMap WriteStep.call?))
      rw [List.countP_cons_of_pos rfl, List.countP_cons_of_neg (by simp [SinkCall.isReference]),
        List.take_succ_cons, hfrozen]

theorem filterMap_frozen?_batchSteps {settings : Settings} {artifacts : List α}
    {steps : List (WriteStep α)} (hsteps : steps <+: batchSteps settings artifacts)
    (hlast : ∀ step ∈ steps.getLast?, ∃ c, step = .call c) :
    steps.filterMap WriteStep.frozen?
      = artifacts.take ((steps.filterMap WriteStep.call?).countP SinkCall.isReference) := by
  cases artifacts with
  | nil =>
    rw [List.prefix_nil.1 hsteps]
    rfl
  | cons a rest =>
    exact filterMap_frozen?_eq_take (fun step hstep => List.mem_singleton.1 hstep) hsteps hlast

end Sink

/-! ## Writing a session -/

namespace Session

/-- What writing comes to is what the writing of the artifacts comes to. -/
theorem finish_fst (sink : Sink τ α) (state : τ) (s : Session σ α) :
    (s.finish sink state).1
      = (((sink.outlet.write s.settings s.pending).run.run state).1.map
          fun _ => s.pending.length).mapError sinkFailure := by
  unfold finish finishThrough
  rcases (sink.outlet.write s.settings s.pending).run.run state with ⟨result, state'⟩
  cases result with
  | ok _ => rfl
  | error failure => rfl

/-- Whether the calls of a sink are those of a plan up to the first that failed, and a result tells
of that: it has the number of artifacts if no call failed, and else the failure. -/
def Wrote (plan : List (SinkCall α)) (count : Nat) (calls : SinkLog α)
    (result : Except Failure Nat) : Prop :=
  (calls = plan.map (·, .ok ()) ∧ result = .ok count) ∨
    ∃ done call rest failure, plan = done ++ call :: rest ∧
      calls = done.map (·, .ok ()) ++ [(call, .error failure)] ∧
      result = .error (.sink (match failure with
        | .sink detail => detail
        | other => other.message))

theorem wrote_of_follows {settings : Settings} {artifacts : List α} {count : Nat}
    {result : Except Failure Unit} {notes : Notes (WriteStep α)}
    (h : Follows (fun step => ∃ c, step = .call c) (Sink.batchSteps settings artifacts) result
      notes) :
    Wrote (Sink.batchCalls settings artifacts) count notes.calls
      ((result.map fun _ => count).mapError sinkFailure) := by
  rw [← Sink.filterMap_call?_batchSteps]
  cases h with
  | completed _ => exact Or.inl ⟨Notes.calls_map_ok _, rfl⟩
  | @failed done rest step failure hstep hplan =>
    obtain ⟨call, rfl⟩ := hstep
    refine Or.inr ⟨done.filterMap WriteStep.call?, call, rest.filterMap WriteStep.call?, failure,
      ?_, ?_, ?_⟩
    · rw [hplan, List.filterMap_append]
      rfl
    · rw [Notes.calls_append, Notes.calls_map_ok]
      rfl
    -- a failure of the sink keeps its words, any other is told in its message
    · cases failure <;> rfl

/-- What a sink was given is the beginning of what there was to write, frozen. -/
theorem accepted_prefix {settings : Settings} {artifacts : List α} {steps : List (WriteStep α)}
    (h : steps <+: Sink.batchSteps settings artifacts) :
    (steps.filterMap WriteStep.call?).filterMap SinkCall.artifact?
      <+: artifacts.map Artifact.freeze := by
  rw [← History.filterMap_artifact?_batchCalls settings, ← Sink.filterMap_call?_batchSteps]
  exact (h.filterMap _).filterMap _

/-- However a sink behaves, a session writes what is pending as planned, up to the first call that
fails: its result tells whether one did, and nothing is pending afterwards. An artifact is frozen
once if its reference is written or fails to be, right before that, and not at all otherwise; a bean
definition that the sink is given is the one that was pending, but frozen. -/
theorem finish_watched [Artifact β] (sink : Sink τ (BeanDefinition ⊕ β)) (state : τ)
    (s : Session σ (BeanDefinition ⊕ β)) :
    ∃ notes : Notes (WriteStep (BeanDefinition ⊕ β)),
      s.finishThrough sink.watched (state, [])
        = ((s.finish sink state).1, (s.finish sink state).2.1, (s.finish sink state).2.2, notes) ∧
      Wrote (Sink.batchCalls s.settings s.pending) s.pending.length notes.calls
        (s.finish sink state).1 ∧
      notes.map Prod.fst <+: Sink.batchSteps s.settings s.pending ∧
      notes.frozen = s.pending.take ((notes.calls.map Prod.fst).countP SinkCall.isReference) ∧
      (notes.calls.map Prod.fst).filterMap SinkCall.artifact?
        <+: s.pending.map (Sum.map (fun d => { d with isFrozen := true }) Artifact.freeze) ∧
      ∃ log, (s.finish sink state).2.1 = { s with pending := [], log } := by
  obtain ⟨notes, hfollows, hrun⟩ :=
    finishThrough_of_traces (Sink.traces_write_watched sink s.settings s.pending) state []
  have hplan : notes.map Prod.fst <+: Sink.batchSteps s.settings s.pending :=
    hfollows.map_fst_prefix
  have hlast := hfollows.canFail_getLast Sink.exists_call_of_mem_getLast?_batchSteps
  refine ⟨notes, hrun, ?_, hplan, ?_, ?_, finish_eq sink state s⟩
  · rw [finish_fst]
    exact wrote_of_follows hfollows
  · rw [Notes.map_fst_calls, Notes.frozen_eq]
    exact Sink.filterMap_frozen?_batchSteps hplan hlast
  · rw [Notes.map_fst_calls]
    exact accepted_prefix hplan

end Session

end BeanProcessing

import BeanProcessing.Proofs.Resolver.Agreement
import BeanProcessing.Survey
import BeanProcessing.SymbolGraph.Edit
import Mathlib.Data.List.TakeWhile

/-!
# Independence of the verdicts of a survey

A survey asks one resolver about one declaration after the other, and the resolver remembers. Still
every verdict is the one that its declaration gets by itself: a survey only ever asks for classes
with their type parameters left open, so that a symbol is looked up under one substitution at most,
whatever names and links the graph has. These are the `openRequests`.
-/

namespace BeanProcessing

/-! ## Names of annotations -/

namespace Dotted

theorem lastSegment_eq_self {name : String} (h : '.' ∉ name.toList) : lastSegment name = name := by
  have hall : ∀ c ∈ name.toList.reverse, (c != '.') = true := by
    intro c hc
    rw [bne_iff_ne]
    intro hdot
    exact h (List.mem_reverse.1 (hdot ▸ hc))
  rw [lastSegment, List.takeWhile_eq_self_iff.2 hall, List.reverse_reverse, String.ofList_toList]

theorem dot_notMem_lastSegment (name : String) : '.' ∉ (lastSegment name).toList := by
  rw [lastSegment, String.toList_ofList, List.mem_reverse]
  intro h
  have hne := List.mem_takeWhile_imp h
  exact bne_iff_ne.1 hne rfl

end Dotted

/-- A marker is compared by what follows its last dot. -/
theorem Settings.marksGenerated_lastSegment (settings : Settings) (name : String) :
    settings.marksGenerated (Dotted.lastSegment name)
      = (Dotted.lastSegment name == Dotted.lastSegment settings.generatedMarker) := by
  rw [Settings.marksGenerated, Bool.eq_iff_iff, Bool.or_eq_true, beq_iff_eq, beq_iff_eq, beq_iff_eq]
  constructor
  · rintro (h | h)
    · -- a marker that is a last segment has no dot in it
      have hdot := Dotted.dot_notMem_lastSegment name
      rw [h] at hdot ⊢
      exact (Dotted.lastSegment_eq_self hdot).symm
    · exact h.symm
  · exact fun h => Or.inr h.symm

namespace Resolver

variable {r : Resolver}

/-! ## Requests without arguments -/

/-- The requests that resolving classes without arguments leads to: a class under the placeholders
of its type parameters, and a type parameter under no substitution. -/
def openRequests (r : Resolver) : Requests where
  Includes s bindings :=
    (∃ d, r.graph.classDeclaration? s = some d ∧
      Direct.bindToPlaceholders r ∅ ∅ d.typeParameters = .ok bindings) ∨
    (∃ d, r.graph.typeParameter? s = some d) ∧ bindings = ∅
  eq_of_keyText_eq s bindings bindings' h h' _ := by
    rcases h with ⟨d, hd, hb⟩ | ⟨⟨d, hd⟩, rfl⟩
    · rcases h' with ⟨d', hd', hb'⟩ | ⟨⟨d', hd'⟩, -⟩
      · obtain rfl := Option.some.inj (hd.symm.trans hd')
        exact Except.ok.inj (hb.symm.trans hb')
      · exact (not_typeParameter?_of_classDeclaration? hd hd').elim
    · rcases h' with ⟨d', hd', -⟩ | ⟨-, rfl⟩
      · exact (not_typeParameter?_of_classDeclaration? hd' hd).elim
      · rfl

theorem agrees_elementOf_open (s : Symbol) :
    Agrees r r.openRequests (r.elementOf s).run (Direct.elementOf r s) :=
  agrees_elementOf (fun _ _ _ _ d' hd' => Or.inr ⟨⟨d', hd'⟩, rfl⟩)
    fun d _ hd hb => Or.inl ⟨d, hd, hb⟩

/-! ## Classification -/

/-- The element that a resolver which was not asked anything makes for a class. -/
def freshElement (r : Resolver) (s : Symbol) : Except Failure ClassElement :=
  ((r.elementOf s).run.run {}).1

theorem freshElement_eq_direct (s : Symbol) : r.freshElement s = Direct.elementOf r s :=
  (agrees_elementOf_open s {} (faithful_of_answers_eq_empty rfl)).1

/-- Whether a class is declared with an annotation that has the last segment of the marker. -/
def isMarkedGenerated (r : Resolver) (s : Symbol) : Bool :=
  (r.graph.classDeclaration? s).any fun d => d.annotations.any fun name =>
    Dotted.lastSegment name == Dotted.lastSegment r.settings.generatedMarker

/-- What becomes of a declaration, from that declaration alone. -/
def classification (r : Resolver) (s : Symbol) : Verdict :=
  if s.kind ≠ .classType then .excluded .notAClass
  else if r.isMarkedGenerated s then .excluded .generated
  else
    match r.freshElement s with
    | .error failure => .failed failure
    | .ok e =>
      if e.shape.isInner ∧ ¬ e.shape.isStatic then .excluded .nonStaticInner
      else if e.kind = .annotationType then .excluded .annotationType
      else if e.kind = .interface
          ∧ ¬ e.annotations.hasStereotype r.settings.introductionStereotype
          ∧ ¬ e.annotations.hasStereotype r.settings.configurationReaderStereotype then
        .excluded .plainInterface
      else .candidate e

theorem isGenerated_eq_isMarkedGenerated (s : Symbol) :
    r.isGenerated s = r.isMarkedGenerated s := by
  unfold isGenerated isMarkedGenerated
  simp only [Settings.marksGenerated_lastSegment]

/-- The classification of an element is the reason to pass over it, if there is one. -/
theorem verdict_of_exclusion? (settings : Settings) (e : ClassElement) :
    (match settings.exclusion? e with
      | some reason => Verdict.excluded reason
      | none => .candidate e)
    = if e.shape.isInner ∧ ¬ e.shape.isStatic then .excluded .nonStaticInner
      else if e.kind = .annotationType then .excluded .annotationType
      else if e.kind = .interface
          ∧ ¬ e.annotations.hasStereotype settings.introductionStereotype
          ∧ ¬ e.annotations.hasStereotype settings.configurationReaderStereotype then
        .excluded .plainInterface
      else .candidate e := by
  unfold Settings.exclusion? Settings.implementsInterface
  by_cases hinner : e.shape.isInner = true ∧ ¬ e.shape.isStatic = true
  · have hbool : (e.shape.isInner && !e.shape.isStatic) = true := by simpa using hinner
    rw [if_pos hbool, if_pos hinner]
  · have hbool : ¬ (e.shape.isInner && !e.shape.isStatic) = true := by simpa using hinner
    rw [if_neg hbool, if_neg hinner]
    cases e.kind with
    | plain => simp
    | enumeration => simp
    | annotationType => simp
    | interface =>
      cases e.annotations.hasStereotype settings.introductionStereotype <;>
        cases e.annotations.hasStereotype settings.configurationReaderStereotype <;> simp

/-- From whatever earlier declarations have left behind, the verdict on a declaration is its
classification. -/
theorem agrees_verdict (s : Symbol) :
    Agrees r r.openRequests (r.verdict s) (r.classification s) := by
  unfold verdict classification
  by_cases hclass : s.kind = .classType
  · rw [if_neg (by simp [Symbol.isClass, hclass]), if_neg (not_not_intro hclass),
      isGenerated_eq_isMarkedGenerated]
    by_cases hgenerated : r.isMarkedGenerated s = true
    · rw [if_pos hgenerated, if_pos hgenerated]
      exact Agrees.pure _
    · rw [if_neg hgenerated, if_neg hgenerated, freshElement_eq_direct]
      refine Agrees.bind (agrees_elementOf_open s) ?_
      cases Direct.elementOf r s with
      | error failure => exact Agrees.pure _
      | ok e =>
        dsimp only
        rw [← verdict_of_exclusion?]
        cases r.settings.exclusion? e with
        | none => exact Agrees.pure _
        | some reason => exact Agrees.pure _
  · rw [if_pos (by simp [Symbol.isClass, hclass]), if_pos hclass]
    exact Agrees.pure _

/-! ## Surveys -/

/-- The survey that gives each declaration its classification. -/
def classifiedSurvey (r : Resolver) (symbols : List Symbol) : Survey where
  verdicts := symbols.map fun s => (s, r.classification s)

theorem agrees_verdicts (hfailFast : r.settings.failFast = false) (symbols : List Symbol) :
    Agrees r r.openRequests (r.verdicts symbols).run
      (.ok (r.classifiedSurvey symbols).verdicts) := by
  induction symbols with
  | nil => exact Agrees.pure _
  | cons s rest ih =>
    unfold verdicts
    refine Agrees.lift (agrees_verdict s) ?_
    -- a failure ends nothing, so the verdict is told and kept whatever it is
    have hstep : Agrees r r.openRequests (do
        Memory.tell ((r.classification s).event s)
        return (s, r.classification s) :: (← r.verdicts rest) :
          ResolveM (List (Symbol × Verdict))).run
        (.ok (r.classifiedSurvey (s :: rest)).verdicts) := by
      refine Agrees.lift (Agrees.tell _) ?_
      show Agrees r r.openRequests _
        (Except.ok (r.classifiedSurvey rest).verdicts
          >>= fun verdicts => Except.ok ((s, r.classification s) :: verdicts))
      exact Agrees.bindOk ih fun verdicts _ => Agrees.pure _
    rw [hfailFast]
    cases hverdict : r.classification s with
    | candidate e => simpa only [hverdict] using hstep
    | excluded reason => simpa only [hverdict] using hstep
    | failed failure => simpa only [hverdict] using hstep

theorem agrees_survey (hfailFast : r.settings.failFast = false) (units : List CompilationUnit) :
    Agrees r r.openRequests (r.survey units).run
      (.ok (r.classifiedSurvey (units.flatMap (·.declarations)))) :=
  Agrees.map (agrees_verdicts hfailFast _)

end Resolver

/-! ## The lists of a survey -/

/-- The element of a candidate. -/
def Verdict.candidate? : Verdict → Option ClassElement
  | candidate e => some e
  | excluded _ => none
  | failed _ => none

/-- The reason of an exclusion. -/
def Verdict.exclusion? : Verdict → Option Exclusion
  | candidate _ => none
  | excluded reason => some reason
  | failed _ => none

/-- The failure of a declaration that failed. -/
def Verdict.failure? : Verdict → Option Failure
  | candidate _ => none
  | excluded _ => none
  | failed failure => some failure

namespace Survey

theorem candidates_eq_filterMap (survey : Survey) :
    survey.candidates = survey.verdicts.filterMap fun entry => entry.2.candidate? := by
  unfold candidates
  congr 1
  funext ⟨s, verdict⟩
  cases verdict <;> rfl

theorem excluded_eq_filterMap (survey : Survey) :
    survey.excluded = survey.verdicts.filterMap fun entry =>
      entry.2.exclusion?.map fun reason => (entry.1, reason) := by
  unfold excluded
  congr 1
  funext ⟨s, verdict⟩
  cases verdict <;> rfl

theorem failures_eq_filterMap (survey : Survey) :
    survey.failures = survey.verdicts.filterMap fun entry =>
      entry.2.failure?.map fun failure => ⟨entry.1, failure⟩ := by
  unfold failures
  congr 1
  funext ⟨s, verdict⟩
  cases verdict <;> rfl

/-- Every declaration is in one of the three lists, as often as it is seen. -/
theorem length_lists (survey : Survey) :
    survey.candidates.length + survey.excluded.length + survey.failures.length = survey.seen := by
  obtain ⟨verdicts⟩ := survey
  induction verdicts with
  | nil => rfl
  | cons entry rest ih =>
    obtain ⟨s, verdict⟩ := entry
    unfold candidates excluded failures seen at ih ⊢
    dsimp only at ih
    cases verdict with
    | candidate e =>
      simp only [List.filterMap_cons, List.length_cons]
      omega
    | excluded reason =>
      simp only [List.filterMap_cons, List.length_cons]
      omega
    | failed failure =>
      simp only [List.filterMap_cons, List.length_cons]
      omega

end Survey

namespace Resolver

variable {r : Resolver}

/-- A survey by a resolver that was not asked anything sees every declaration that it walks over,
and puts it into the list of its classification, in order; no declaration is in two. The
classification is the verdict on that declaration by itself. -/
theorem survey_eq_classification (hfailFast : r.settings.failFast = false)
    (walked : List CompilationUnit) (log : Log) :
    ∃ survey, ((r.survey walked).run.run { log }).1 = .ok survey ∧
      survey.seen = (walked.flatMap (·.declarations)).length ∧
      survey.candidates = (walked.flatMap (·.declarations)).filterMap
        (fun s => (r.classification s).candidate?) ∧
      survey.excluded = (walked.flatMap (·.declarations)).filterMap
        (fun s => (r.classification s).exclusion?.map fun reason => (s, reason)) ∧
      survey.failures = (walked.flatMap (·.declarations)).filterMap
        (fun s => (r.classification s).failure?.map fun failure => ⟨s, failure⟩) ∧
      survey.candidates.length + survey.excluded.length + survey.failures.length = survey.seen ∧
      ∀ s, ((r.verdict s).run {}).1 = r.classification s := by
  refine ⟨r.classifiedSurvey (walked.flatMap (·.declarations)), ?_, ?_, ?_, ?_, ?_, ?_, ?_⟩
  · exact (agrees_survey hfailFast walked _ (faithful_of_answers_eq_empty rfl)).1
  · exact List.length_map _
  · rw [Survey.candidates_eq_filterMap, classifiedSurvey, List.filterMap_map]
    rfl
  · rw [Survey.excluded_eq_filterMap, classifiedSurvey, List.filterMap_map]
    rfl
  · rw [Survey.failures_eq_filterMap, classifiedSurvey, List.filterMap_map]
    rfl
  · exact Survey.length_lists _
  · exact fun s => (agrees_verdict s {} (faithful_of_answers_eq_empty rfl)).1

/-- Two classes that stand in each other, a class that is marked as generated, and an interface. -/
def circleGraph : SymbolGraph :=
  .ofEdits [
    .addNested "Right" "Left" .plain [.static],
    .addNested "Left" "Right" .plain [],
    .addClass "Stub" .plain,
    .annotate (.ofClass "Stub") "tool.Generated",
    .addClass "Port" .interface]

/-- A walk that meets a class twice, and symbols that name nothing. -/
def circleWalk : List CompilationUnit :=
  [.ofPath "a.java" [.ofClass "Left", .ofClass "Stub", .ofClass "Right", .ofClass "Gone"],
    .ofPath "b.kt" [.ofClass "Left", .ofClass "Port", .ofFunction "Left"]]

/-- A resolver of these classes, with the units of the walk and a marker that has dots. -/
def circleResolver : Resolver :=
  .ofUnits circleGraph { generatedMarker := "other.Generated" } circleWalk

theorem survey_eq_classification_circleResolver :
    circleResolver.settings.failFast = false ∧
      ∃ survey, ((circleResolver.survey circleWalk).run.run {}).1 = .ok survey ∧
        survey.seen = 7 ∧ survey.candidates.length = 2 ∧
        survey.excluded = [(.ofClass "Stub", .generated), (.ofClass "Right", .nonStaticInner),
          (.ofClass "Port", .plainInterface), (.ofFunction "Left", .notAClass)] ∧
        survey.failures.length = 1 := by
  obtain ⟨survey, hrun, hseen, hcandidates, hexcluded, hfailures, -, -⟩ :=
    survey_eq_classification (r := circleResolver) rfl circleWalk []
  refine ⟨rfl, survey, hrun, hseen, ?_, ?_, ?_⟩
  · rw [hcandidates]
    decide +kernel
  · rw [hexcluded]
    decide +kernel
  · rw [hfailures]
    decide +kernel

end Resolver

end BeanProcessing

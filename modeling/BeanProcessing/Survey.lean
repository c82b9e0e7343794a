import BeanProcessing.Exclusion
import BeanProcessing.Resolver.TypeUse

/-!
# Surveys

A survey goes through the declarations of some units in order and reaches a verdict on each.

* A symbol that names no class is excluded.
* A class with an annotation that marks generated code is excluded.
* A class that cannot be resolved has failed. Where the first failure ends a round, it ends the
  survey.
* A class that its element gives a reason to pass over is excluded for that reason.
* Any other class is a candidate.

The verdicts are the survey; candidates, exclusions and failures are views of them, in the same
order.
-/

namespace BeanProcessing

/-- What becomes of one declaration. -/
inductive Verdict where
  | candidate (element : ClassElement)
  | excluded (reason : Exclusion)
  | failed (failure : Failure)

/-- The verdicts on some declarations, in order. -/
structure Survey where
  verdicts : List (Symbol × Verdict) := []

namespace Survey

/-- The number of declarations. -/
def seen (survey : Survey) : Nat := survey.verdicts.length

/-- The candidates. -/
def candidates (survey : Survey) : List ClassElement :=
  survey.verdicts.filterMap fun
    | (_, .candidate element) => some element
    | _ => none

/-- The excluded declarations with their reasons. -/
def excluded (survey : Survey) : List (Symbol × Exclusion) :=
  survey.verdicts.filterMap fun
    | (s, .excluded reason) => some (s, reason)
    | _ => none

/-- The declarations that failed. -/
def failures (survey : Survey) : List DeclarationFailure :=
  survey.verdicts.filterMap fun
    | (s, .failed failure) => some ⟨s, failure⟩
    | _ => none

end Survey

/-- The event that tells of a verdict. -/
def Verdict.event (s : Symbol) : Verdict → Event
  | candidate element => ⟨.debug, "candidate " ++ element.name⟩
  | excluded reason => ⟨.trace, "excluding " ++ toString s ++ ": " ++ reason.words⟩
  | failed failure => ⟨.warn, "skipping " ++ toString s ++ ": " ++ failure.message⟩

namespace Resolver

/-- Whether a symbol names a class with an annotation that marks generated code. -/
def isGenerated (r : Resolver) (s : Symbol) : Bool :=
  (r.graph.classDeclaration? s).any fun d =>
    d.annotations.any fun name =>
      r.settings.marksGenerated (Dotted.lastSegment name)

/-- The verdict on a declaration. -/
def verdict (r : Resolver) (s : Symbol) : StateM Memory Verdict :=
  if !s.isClass then
    pure (.excluded .notAClass)
  else if r.isGenerated s then
    pure (.excluded .generated)
  else do
    match ← (r.elementOf s).run with
    | .error failure => return .failed failure
    | .ok element =>
      match r.settings.exclusion? element with
      | some reason => return .excluded reason
      | none => return .candidate element

/-- The verdicts on some declarations, each told when it is reached. -/
def verdicts (r : Resolver) : List Symbol → ResolveM (List (Symbol × Verdict))
  | [] => pure []
  | s :: rest => do
    match ← r.verdict s, r.settings.failFast with
    | .failed failure, true => throw failure
    | verdict, _ => do
      Memory.tell (verdict.event s)
      return (s, verdict) :: (← r.verdicts rest)

/-- The survey of the declarations of some units. -/
def survey (r : Resolver) (units : List CompilationUnit) : ResolveM Survey :=
  Survey.mk <$> r.verdicts (units.flatMap (·.declarations))

end Resolver

end BeanProcessing

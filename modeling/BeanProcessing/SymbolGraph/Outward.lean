import BeanProcessing.SymbolGraph.Basic

/-!
# Walking outward

From a symbol one can walk outward to the symbol it stands in, and on from there. The links may run
in a circle, so a walk takes a bounded number of steps: one more than the graph has declarations is
enough to come to an end or to meet a symbol for the second time.
-/

namespace BeanProcessing.SymbolGraph

/-- The symbols around `s`, innermost first, at most as many as `limit`. -/
def enclosingChain (g : SymbolGraph) (s : Symbol) : (limit : Nat) → List Symbol
  | 0 => []
  | limit + 1 =>
    match g.enclosing? s with
    | some outer => outer :: g.enclosingChain outer limit
    | none => []

/-- The symbols around `s`, innermost first, up to the end or past the first that is met again. -/
def outward (g : SymbolGraph) (s : Symbol) : List Symbol :=
  g.enclosingChain s (g.size + 1)

/-- What is met first on the way outward from a symbol. -/
inductive Encounter where
  /-- A class. -/
  | nearestClass (symbol : Symbol)
  /-- A symbol for the second time. -/
  | repetition (symbol : Symbol)
  /-- The end, without a class. -/
  | outside
deriving DecidableEq

/-- What is met first along a way of symbols, when some have been met before it. -/
def encounterAlong (met : List Symbol) : List Symbol → Encounter
  | [] => .outside
  | s :: way =>
    if s ∈ met then .repetition s
    else if s.isClass then .nearestClass s
    else encounterAlong (s :: met) way

/-- What is met first on the way outward from `s`, where `s` itself counts as met. -/
def encounter (g : SymbolGraph) (s : Symbol) : Encounter :=
  encounterAlong [s] (g.outward s)

end BeanProcessing.SymbolGraph

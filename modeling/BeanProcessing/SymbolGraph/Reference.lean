import BeanProcessing.SymbolGraph.Basic

/-!
# References

The symbols that units, classes and functions list have to be declared for a graph to be closed.
Types are not among them: a type use may well mention something outside the graph.
-/

namespace BeanProcessing.SymbolGraph

/-- The symbols that the graph lists: those of its units, then the type parameters and members of
each class, then the type parameters and parameters of each function. -/
def references (g : SymbolGraph) : List Symbol :=
  g.units.flatMap (·.declarations)
    ++ g.classes.values.flatMap
      (fun entry => entry.declaration.typeParameters ++ entry.declaration.members)
    ++ g.functions.values.flatMap
      (fun entry => entry.declaration.typeParameters ++ entry.declaration.parameters)

/-- The first listed symbol that is not declared. -/
def firstUndeclared? (g : SymbolGraph) : Option Symbol :=
  g.references.find? (!g.contains ·)

end BeanProcessing.SymbolGraph

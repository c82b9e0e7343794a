import BeanProcessing.AnnotationSet
import BeanProcessing.Declaration
import BeanProcessing.Table

/-!
# Symbol graphs

A symbol graph holds the declarations of a program: its compilation units, and one table of entries
for each kind of symbol. An entry is a declaration with its placement, that is, the symbol it stands
in and the annotations it carries. Nothing forces the links of a graph to be closed or free of
cycles, so every question here has an answer for any graph.
-/

namespace BeanProcessing

/-- Where a declaration stands and what it is annotated with. -/
structure Placement where
  /-- The symbol of the declaration around it. -/
  enclosing : Option Symbol := none
  annotations : AnnotationSet := ∅
deriving DecidableEq

/-- A declaration in its place. -/
structure Entry (δ : Type) where
  declaration : δ
  placement : Placement := {}

/-- The declarations of a program, each kind in a table of its own with paths for keys. -/
structure SymbolGraph where
  units : List CompilationUnit := []
  classes : Table String (Entry ClassDeclaration) := ∅
  functions : Table String (Entry FunctionDeclaration) := ∅
  valueParameters : Table String (Entry ValueParameterDeclaration) := ∅
  typeParameters : Table String (Entry TypeParameterDeclaration) := ∅

namespace SymbolGraph

instance : EmptyCollection SymbolGraph := ⟨{}⟩

/-! ## Declarations by symbol -/

/-- The class that a symbol names. -/
def classDeclaration? (g : SymbolGraph) (s : Symbol) : Option ClassDeclaration :=
  match s.kind with
  | .classType => (g.classes.get? s.path).map (·.declaration)
  | _ => none

/-- The function that a symbol names. -/
def functionDeclaration? (g : SymbolGraph) (s : Symbol) : Option FunctionDeclaration :=
  match s.kind with
  | .function => (g.functions.get? s.path).map (·.declaration)
  | _ => none

/-- The value parameter that a symbol names. -/
def valueParameter? (g : SymbolGraph) (s : Symbol) : Option ValueParameterDeclaration :=
  match s.kind with
  | .valueParameter => (g.valueParameters.get? s.path).map (·.declaration)
  | _ => none

/-- The type parameter that a symbol names. -/
def typeParameter? (g : SymbolGraph) (s : Symbol) : Option TypeParameterDeclaration :=
  match s.kind with
  | .typeParameter => (g.typeParameters.get? s.path).map (·.declaration)
  | _ => none

/-- The first class in the graph with a qualified name. -/
def findClass? (g : SymbolGraph) (qualifiedName : String) : Option Symbol :=
  (g.classes.entries.find? (·.2.declaration.qualifiedName = qualifiedName)).map
    fun entry => .ofClass entry.1

/-- The members of the class at a path. -/
def members (g : SymbolGraph) (path : String) : List Symbol :=
  match g.classes.get? path with
  | some entry => entry.declaration.members
  | none => []

/-! ## Placements by symbol -/

/-- The placement of the declaration that a symbol names. -/
def placement? (g : SymbolGraph) (s : Symbol) : Option Placement :=
  match s.kind with
  | .classType => (g.classes.get? s.path).map (·.placement)
  | .function => (g.functions.get? s.path).map (·.placement)
  | .valueParameter => (g.valueParameters.get? s.path).map (·.placement)
  | .typeParameter => (g.typeParameters.get? s.path).map (·.placement)

/-- Whether the graph declares a symbol. -/
def contains (g : SymbolGraph) (s : Symbol) : Bool := (g.placement? s).isSome

/-- The symbol that a declaration stands in, if it is declared and stands in one. -/
def enclosing? (g : SymbolGraph) (s : Symbol) : Option Symbol :=
  (g.placement? s).bind (·.enclosing)

/-- The annotations of a symbol; one that is not declared has none. -/
def annotations (g : SymbolGraph) (s : Symbol) : AnnotationSet :=
  match g.placement? s with
  | some placement => placement.annotations
  | none => ∅

/-- The number of declarations. -/
def size (g : SymbolGraph) : Nat :=
  g.classes.size + g.functions.size + g.valueParameters.size + g.typeParameters.size

end SymbolGraph

end BeanProcessing

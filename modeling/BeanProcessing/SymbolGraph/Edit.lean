import BeanProcessing.SymbolGraph.Basic

/-!
# Editing a graph

A graph can be made step by step. Each `Edit` is one step; `SymbolGraph.apply` carries it out. Steps
that speak of a class by its path declare a plain class there if they have to put something into it;
steps that only mark a declaration leave a graph without it as it is.

A function is declared at the path of its class, its name and its position among the members, and a
parameter at the path of its function and its own position.
-/

namespace BeanProcessing

/-- The symbol of the member function `name` of the class at a path, at a position. -/
def Symbol.member (classPath name : String) (position : Nat) : Symbol :=
  .ofFunction (classPath ++ "#" ++ name ++ "#" ++ toString position)

/-- The symbol of the parameter of a function at a position. -/
def Symbol.parameter (function : Symbol) (position : Nat) : Symbol :=
  .ofValueParameter (function.path ++ "/" ++ toString position)

namespace SymbolGraph

/-- One step in making a graph. -/
inductive Edit where
  /-- Declares a class anew. -/
  | addClass (path : String) (kind : ClassKind)
  /-- Declares a class anew within another. -/
  | addNested (outer path : String) (kind : ClassKind) (modifiers : List Modifier)
  /-- Gives a class its modifiers. -/
  | setModifiers (classPath : String) (modifiers : List Modifier)
  /-- Puts a declaration into another. -/
  | enclose (symbol outer : Symbol)
  /-- Declares an annotation on a declaration. -/
  | annotate (symbol : Symbol) (name : String)
  /-- Gives a declaration a stereotype. -/
  | addStereotype (symbol : Symbol) (name : String)
  /-- Declares a type parameter of a class or function. -/
  | addTypeParameter (owner : Symbol) (name : String) (bounds : List TypeUse)
  /-- Declares a constructor of a class. -/
  | addConstructor (classPath : String) (parameters : List ValueParameterDeclaration)
  /-- Declares a method of a class. -/
  | addMethod (classPath name : String) (returnType : TypeUse)
    (parameters : List ValueParameterDeclaration)
  /-- Gives the function at the path of a symbol its modifiers. -/
  | setFunctionModifiers (symbol : Symbol) (modifiers : List Modifier)
  /-- Adds a compilation unit. -/
  | addUnit (unit : CompilationUnit)

/-- Adds the unit at a path that declares classes. -/
def Edit.addClasses (path : String) (classPaths : List String) : Edit :=
  .addUnit (.ofPath path (classPaths.map .ofClass))

/-! ## Changing entries -/

/-- Changes the placement of a declared symbol. -/
def modifyPlacement (g : SymbolGraph) (s : Symbol) (f : Placement → Placement) : SymbolGraph :=
  match s.kind with
  | .classType =>
    { g with classes := g.classes.modify s.path fun e => { e with placement := f e.placement } }
  | .function =>
    { g with functions := g.functions.modify s.path fun e => { e with placement := f e.placement } }
  | .valueParameter =>
    { g with
      valueParameters :=
        g.valueParameters.modify s.path fun e => { e with placement := f e.placement } }
  | .typeParameter =>
    { g with
      typeParameters :=
        g.typeParameters.modify s.path fun e => { e with placement := f e.placement } }

/-- Changes the declaration of the class at a path, if there is one. -/
def modifyClass (g : SymbolGraph) (path : String) (f : ClassDeclaration → ClassDeclaration) :
    SymbolGraph :=
  { g with classes := g.classes.modify path fun e => { e with declaration := f e.declaration } }

/-- Changes the declaration of the function at a path, if there is one. -/
def modifyFunction (g : SymbolGraph) (path : String)
    (f : FunctionDeclaration → FunctionDeclaration) : SymbolGraph :=
  { g with functions := g.functions.modify path fun e => { e with declaration := f e.declaration } }

/-- Declares a plain class at a path where there is none. -/
def ensureClass (g : SymbolGraph) (path : String) : SymbolGraph :=
  { g with classes := g.classes.insertIfNew path { declaration := { qualifiedName := path } } }

/-! ## The steps -/

/-- Lists a type parameter with the class or function that owns it. -/
def listTypeParameter (g : SymbolGraph) (owner parameter : Symbol) : SymbolGraph :=
  match owner.kind with
  | .classType =>
    g.modifyClass owner.path fun d => { d with typeParameters := d.typeParameters ++ [parameter] }
  | _ =>
    g.modifyFunction owner.path fun d =>
      { d with typeParameters := d.typeParameters ++ [parameter] }

/-- Declares a type parameter; only classes and functions can own one. -/
def addTypeParameter (g : SymbolGraph) (owner : Symbol) (name : String) (bounds : List TypeUse) :
    SymbolGraph :=
  let parameter := owner.typeParameter name
  if owner.kind = .classType ∨ owner.kind = .function then
    let g := g.listTypeParameter owner parameter
    { g with
      typeParameters := g.typeParameters.insert parameter.path
        { declaration := { name, bounds }, placement := { enclosing := some owner } } }
  else g

/-- Declares the parameters of a function, the first of them at `position`. -/
def addParameters (g : SymbolGraph) (function : Symbol) (position : Nat) :
    List ValueParameterDeclaration → SymbolGraph
  | [] => g
  | parameter :: rest =>
    let g := { g with
      valueParameters := g.valueParameters.insert (function.parameter position).path
        { declaration := parameter, placement := { enclosing := some function } } }
    g.addParameters function (position + 1) rest

/-- Declares a member function behind the members that its class has. -/
def addFunction (g : SymbolGraph) (classPath : String) (declaration : FunctionDeclaration)
    (parameters : List ValueParameterDeclaration) : SymbolGraph :=
  let g := g.ensureClass classPath
  let function := Symbol.member classPath declaration.name (g.members classPath).length
  let g := g.addParameters function 0 parameters
  let declaration := { declaration with
    parameters := (List.range parameters.length).map function.parameter }
  let g := { g with
    functions := g.functions.insert function.path
      { declaration, placement := { enclosing := some (.ofClass classPath) } } }
  g.modifyClass classPath fun d => { d with members := d.members ++ [function] }

/-- Notes a declared annotation with the class that it is written on. -/
def listOnClass (g : SymbolGraph) (s : Symbol) (name : String) : SymbolGraph :=
  if s.isClass then
    g.modifyClass s.path fun d => { d with annotations := d.annotations ++ [name] }
  else g

/-- Carries out one step. -/
def apply (g : SymbolGraph) : Edit → SymbolGraph
  | .addClass path kind =>
    { g with classes := g.classes.insert path { declaration := { qualifiedName := path, kind } } }
  | .addNested outer path kind modifiers =>
    { g with
      classes := g.classes.insert path
        { declaration := { qualifiedName := path, kind, modifiers }
          placement := { enclosing := some (.ofClass outer) } } }
  | .setModifiers classPath modifiers =>
    (g.ensureClass classPath).modifyClass classPath fun d => { d with modifiers }
  | .enclose s outer => g.modifyPlacement s fun p => { p with enclosing := some outer }
  | .annotate s name =>
    (g.listOnClass s name).modifyPlacement s fun p =>
      { p with annotations := p.annotations.declare name }
  | .addStereotype s name =>
    g.modifyPlacement s fun p => { p with annotations := p.annotations.addStereotype name }
  | .addTypeParameter owner name bounds => g.addTypeParameter owner name bounds
  | .addConstructor classPath parameters =>
    g.addFunction classPath { name := constructorName, isConstructor := true } parameters
  | .addMethod classPath name returnType parameters =>
    g.addFunction classPath { name, returnType } parameters
  | .setFunctionModifiers s modifiers => g.modifyFunction s.path fun d => { d with modifiers }
  | .addUnit unit => { g with units := g.units ++ [unit] }

/-- The graph that steps make out of the empty one. -/
def ofEdits (edits : List Edit) : SymbolGraph :=
  edits.foldl apply ∅

end SymbolGraph

end BeanProcessing

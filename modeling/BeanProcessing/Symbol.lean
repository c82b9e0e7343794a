/-!
# Symbols

A symbol names one declaration of a program: the kind of thing that is declared and the path it is
declared at. Paths of different kinds never meet.
-/

namespace BeanProcessing

/-- The kinds of declaration that a symbol can name, in the order in which symbols sort. -/
inductive SymbolKind where
  | classType
  | function
  | typeParameter
  | valueParameter
deriving DecidableEq, Repr

namespace SymbolKind

/-- The kind in words. -/
def words : SymbolKind → String
  | classType => "class"
  | function => "function"
  | typeParameter => "type parameter"
  | valueParameter => "value parameter"

/-- The place of the kind in the order of kinds. -/
def rank : SymbolKind → Nat
  | classType => 0
  | function => 1
  | typeParameter => 2
  | valueParameter => 3

end SymbolKind

/-- The name of a declaration. -/
structure Symbol where
  kind : SymbolKind
  path : String
deriving DecidableEq, Repr

namespace Symbol

/-- The class declared at `path`. -/
def ofClass (path : String) : Symbol := ⟨.classType, path⟩

/-- The function declared at `path`. -/
def ofFunction (path : String) : Symbol := ⟨.function, path⟩

/-- The type parameter declared at `path`. -/
def ofTypeParameter (path : String) : Symbol := ⟨.typeParameter, path⟩

/-- The value parameter declared at `path`. -/
def ofValueParameter (path : String) : Symbol := ⟨.valueParameter, path⟩

/-- Whether the symbol names a class. -/
def isClass (s : Symbol) : Bool := s.kind == .classType

/-- The symbol of the type parameter `name` of `owner`. -/
def typeParameter (owner : Symbol) (name : String) : Symbol :=
  ofTypeParameter (owner.path ++ "<" ++ name ++ ">")

/-- The kind in words, then the path. -/
instance : ToString Symbol where
  toString s := s.kind.words ++ " " ++ s.path

/-! ## Order -/

/-- Whether one symbol comes before another: by kind, then by path. -/
def before (s t : Symbol) : Bool :=
  s.kind.rank < t.kind.rank || (s.kind.rank == t.kind.rank && s.path < t.path)

/-- Puts a symbol in its place in a sorted list, unless it is there already. -/
def insertSorted (s : Symbol) : List Symbol → List Symbol
  | [] => [s]
  | t :: rest =>
    if s.before t then s :: t :: rest
    else if t.before s then t :: insertSorted s rest
    else t :: rest

/-- The symbols of a list in order, each once. -/
def sortUnique (symbols : List Symbol) : List Symbol :=
  symbols.foldr insertSorted []

end Symbol

end BeanProcessing

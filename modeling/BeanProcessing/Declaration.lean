import BeanProcessing.Language
import BeanProcessing.TypeUse

/-!
# Declarations

What a program declares: classes, functions, value parameters and type parameters, and the
compilation units that list the declarations of one source file. Declarations refer to each other by
symbol only.
-/

namespace BeanProcessing

/-- The kinds of class-like declaration. -/
inductive ClassKind where
  | plain
  | interface
  | enumeration
  | annotationType
deriving DecidableEq, Repr, Inhabited

/-- The modifiers of a class or function. -/
inductive Modifier where
  | publicAccess
  | protectedAccess
  | privateAccess
  | internalAccess
  | abstract
  | final
  | extensible
  | static
  | inner
deriving DecidableEq, Repr

/-- A class, interface, enumeration or annotation type. -/
structure ClassDeclaration where
  qualifiedName : String
  kind : ClassKind := .plain
  modifiers : List Modifier := []
  /-- The qualified names of the annotations written on the class. -/
  annotations : List String := []
  typeParameters : List Symbol := []
  members : List Symbol := []

/-- The name that every constructor has. -/
def constructorName : String := "<init>"

/-- A method or constructor. -/
structure FunctionDeclaration where
  name : String
  isConstructor : Bool := false
  modifiers : List Modifier := []
  typeParameters : List Symbol := []
  parameters : List Symbol := []
  returnType : TypeUse := .unresolved

/-- A parameter of a function, whose name the host may not know. -/
structure ValueParameterDeclaration where
  name : Option String := none
  type : TypeUse

/-- A type parameter of a class or function. -/
structure TypeParameterDeclaration where
  name : String
  bounds : List TypeUse := []

/-- A source file and the symbols it declares at its top level. -/
structure CompilationUnit where
  path : String
  language : Language := .kotlin
  declarations : List Symbol := []
deriving DecidableEq

namespace CompilationUnit

/-- The unit at a path, in the language that the path tells. -/
def ofPath (path : String) (declarations : List Symbol) : CompilationUnit :=
  { path, language := .ofPath path, declarations }

end CompilationUnit

end BeanProcessing

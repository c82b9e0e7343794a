import BeanProcessing.Declaration
import BeanProcessing.TypeUse.Json

/-!
# Declarations in JSON

A declaration is an object; every field but its name and the type of a value parameter may be left
out. It is written field by field, so that a graph can put more beside them.

`isNested` says that a declaration is read out of something taken in as a whole.
-/

namespace BeanProcessing

/-! ## Words -/

/-- The name of a class kind in a document. -/
def ClassKind.tag : ClassKind → String
  | plain => "class"
  | interface => "interface"
  | enumeration => "enum"
  | annotationType => "annotation"

/-- The class kind with a name. -/
def ClassKind.ofTag? : String → Option ClassKind
  | "class" => some plain
  | "interface" => some interface
  | "enum" => some enumeration
  | "annotation" => some annotationType
  | _ => none

/-- The name of a modifier in a document. -/
def Modifier.tag : Modifier → String
  | publicAccess => "public"
  | protectedAccess => "protected"
  | privateAccess => "private"
  | internalAccess => "internal"
  | abstract => "abstract"
  | final => "final"
  | extensible => "open"
  | static => "static"
  | inner => "inner"

/-- The modifier with a name. -/
def Modifier.ofTag? : String → Option Modifier
  | "public" => some publicAccess
  | "protected" => some protectedAccess
  | "private" => some privateAccess
  | "internal" => some internalAccess
  | "abstract" => some abstract
  | "final" => some final
  | "open" => some extensible
  | "static" => some static
  | "inner" => some inner
  | _ => none

/-- Reads a list of modifiers. -/
def Modifier.listOfJson (isNested : Bool) : Json → Except Json.Fault (List Modifier) :=
  Json.asList (Json.asChoice isNested ofTag?)

/-- The language with a name. -/
def Language.ofName? : String → Option Language
  | "java" => some java
  | "kotlin" => some kotlin
  | "groovy" => some groovy
  | "unknown" => some unknown
  | _ => none

/-- Symbols as a JSON value. -/
def Symbol.listToJson (symbols : List Symbol) : Json := .array (symbols.map Symbol.toJson)

/-- Reads a list of symbols. -/
def Symbol.listOfJson (isNested : Bool) : Json → Except Json.Fault (List Symbol) :=
  Json.asList (ofJson isNested)

/-! ## Classes -/

/-- The fields of a class declaration. -/
def ClassDeclaration.toFields (d : ClassDeclaration) : List (String × Json) :=
  [("qualified_name", .string d.qualifiedName),
    ("kind", .string d.kind.tag),
    ("modifiers", .array (d.modifiers.map (.string ·.tag))),
    ("annotations", .array (d.annotations.map .string)),
    ("type_parameters", Symbol.listToJson d.typeParameters),
    ("members", Symbol.listToJson d.members)]

/-- The fields of a class declaration, as they are read. -/
def ClassDeclaration.knownFields (isNested : Bool) : List (Json.Field ClassDeclaration) :=
  [.of "qualified_name" true Json.asString fun v d => { d with qualifiedName := v },
    .of "kind" false (Json.asChoice isNested ClassKind.ofTag?) fun v d => { d with kind := v },
    .of "modifiers" false (Modifier.listOfJson isNested) fun v d => { d with modifiers := v },
    .of "annotations" false (Json.asList Json.asString) fun v d => { d with annotations := v },
    .of "type_parameters" false (Symbol.listOfJson isNested)
      fun v d => { d with typeParameters := v },
    .of "members" false (Symbol.listOfJson isNested) fun v d => { d with members := v }]

/-- Reads a class declaration. -/
def ClassDeclaration.ofJson (isNested : Bool) : Json → Except Json.Fault ClassDeclaration :=
  Json.asRecord isNested (knownFields isNested) { qualifiedName := "" }

/-! ## Functions -/

/-- The fields of a function declaration. -/
def FunctionDeclaration.toFields (d : FunctionDeclaration) : List (String × Json) :=
  [("name", .string d.name),
    ("is_constructor", .bool d.isConstructor),
    ("modifiers", .array (d.modifiers.map (.string ·.tag))),
    ("type_parameters", Symbol.listToJson d.typeParameters),
    ("parameters", Symbol.listToJson d.parameters),
    ("return_type", d.returnType.toJson)]

/-- The fields of a function declaration, as they are read. -/
def FunctionDeclaration.knownFields (isNested : Bool) : List (Json.Field FunctionDeclaration) :=
  [.of "name" true Json.asString fun v d => { d with name := v },
    .of "is_constructor" false Json.asBool fun v d => { d with isConstructor := v },
    .of "modifiers" false (Modifier.listOfJson isNested) fun v d => { d with modifiers := v },
    .of "type_parameters" false (Symbol.listOfJson isNested)
      fun v d => { d with typeParameters := v },
    .of "parameters" false (Symbol.listOfJson isNested) fun v d => { d with parameters := v },
    .of "return_type" false (TypeUse.ofJson isNested) fun v d => { d with returnType := v }]

/-- Reads a function declaration. -/
def FunctionDeclaration.ofJson (isNested : Bool) : Json → Except Json.Fault FunctionDeclaration :=
  Json.asRecord isNested (knownFields isNested) { name := "" }

/-! ## Parameters -/

/-- The fields of a value parameter declaration. -/
def ValueParameterDeclaration.toFields (d : ValueParameterDeclaration) : List (String × Json) :=
  [("name", (d.name.map Json.string).getD .null), ("type_ref", d.type.toJson)]

/-- The fields of a value parameter declaration, as they are read. -/
def ValueParameterDeclaration.knownFields (isNested : Bool) :
    List (Json.Field ValueParameterDeclaration) :=
  [.of "name" false (Json.asOption Json.asString) fun v d => { d with name := v },
    .of "type_ref" true (TypeUse.ofJson isNested) fun v d => { d with type := v }]

/-- Reads a value parameter declaration. -/
def ValueParameterDeclaration.ofJson (isNested : Bool) :
    Json → Except Json.Fault ValueParameterDeclaration :=
  Json.asRecord isNested (knownFields isNested) { name := none, type := .unresolved }

/-- The fields of a type parameter declaration. -/
def TypeParameterDeclaration.toFields (d : TypeParameterDeclaration) : List (String × Json) :=
  [("name", .string d.name), ("bounds", .array (d.bounds.map TypeUse.toJson))]

/-- The fields of a type parameter declaration, as they are read. -/
def TypeParameterDeclaration.knownFields (isNested : Bool) :
    List (Json.Field TypeParameterDeclaration) :=
  [.of "name" true Json.asString fun v d => { d with name := v },
    .of "bounds" false (Json.asList (TypeUse.ofJson isNested)) fun v d => { d with bounds := v }]

/-- Reads a type parameter declaration. -/
def TypeParameterDeclaration.ofJson (isNested : Bool) :
    Json → Except Json.Fault TypeParameterDeclaration :=
  Json.asRecord isNested (knownFields isNested) { name := "" }

/-! ## Compilation units -/

/-- A compilation unit as a JSON value. -/
def CompilationUnit.toJson (u : CompilationUnit) : Json :=
  .object [("path", .string u.path), ("language", .string u.language.name),
    ("declarations", Symbol.listToJson u.declarations)]

/-- The fields of a compilation unit. -/
def CompilationUnit.knownFields : List (Json.Field CompilationUnit) :=
  [.of "path" true Json.asString fun v u => { u with path := v },
    .of "language" false (Json.asChoice false Language.ofName?) fun v u => { u with language := v },
    .of "declarations" false (Symbol.listOfJson false) fun v u => { u with declarations := v }]

/-- Reads a compilation unit; the language that is left out is Kotlin, whatever the path. -/
def CompilationUnit.ofJson : Json → Except Json.Fault CompilationUnit :=
  Json.asRecord false knownFields { path := "", language := .kotlin, declarations := [] }

end BeanProcessing

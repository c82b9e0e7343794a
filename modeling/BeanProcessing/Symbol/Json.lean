import BeanProcessing.Json.Fields
import BeanProcessing.Symbol

/-!
# Symbols in JSON

A symbol is an object with its kind and its path, or an array of the two.
-/

namespace BeanProcessing

/-- The name of the kind in a document. -/
def SymbolKind.tag : SymbolKind → String
  | classType => "class"
  | function => "function"
  | typeParameter => "type_parameter"
  | valueParameter => "value_parameter"

/-- The kind with a name. -/
def SymbolKind.ofTag? : String → Option SymbolKind
  | "class" => some classType
  | "function" => some function
  | "type_parameter" => some typeParameter
  | "value_parameter" => some valueParameter
  | _ => none

/-- The kind at a position. -/
def SymbolKind.ofPosition? : Nat → Option SymbolKind
  | 0 => some classType
  | 1 => some function
  | 2 => some typeParameter
  | 3 => some valueParameter
  | _ => none

/-- The symbol as a JSON value. -/
def Symbol.toJson (s : Symbol) : Json :=
  .object [("kind", .string s.kind.tag), ("path", .string s.path)]

namespace Symbol

/-- What has been read of a symbol: its kind, and the value of its path. -/
structure Draft where
  kind? : Option SymbolKind := none
  path? : Option Json := none

/-- Reads the kind, which an array of the two gives in another way than an object. -/
def kindOfJson (isNested isInArray : Bool) : Json → Except Json.Fault SymbolKind :=
  if isInArray then Json.asTag isNested SymbolKind.ofTag? SymbolKind.ofPosition?
  else Json.asChoice isNested SymbolKind.ofTag?

/-- The fields of a symbol. A path in front of the kind is taken in as a whole, and has to be a
string once the kind is known. -/
def knownFields (isNested isInArray : Bool) : List (Json.Field Draft) :=
  [{ name := "kind"
     isRequired := true
     read := fun value d => do
      let kind ← kindOfJson isNested isInArray value
      let _ ← d.path?.mapM Json.asString
      return { d with kind? := some kind } },
    { name := "path"
      isRequired := true
      read := fun value d => do
        match d.kind? with
        | some _ => let _ ← value.asString
        | none => value.takeIn
        return { d with path? := some value } }]

/-- Reads a symbol. -/
def ofJson (isNested : Bool) (value : Json) : Except Json.Fault Symbol := do
  let draft ← value.asRecord isNested (knownFields isNested value.isArray) {}
  match draft.kind?, draft.path? with
  | some kind, some path => return { kind, path := ← path.asString }
  | _, _ => throw .data

end Symbol

end BeanProcessing

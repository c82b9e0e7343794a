import BeanProcessing.Symbol.Json
import BeanProcessing.TypeUse

/-!
# Type uses in JSON

A type use is an object whose field `type` names its form and whose other fields belong to that
form, or an array of the form and these fields in order. Wherever the form stands, the other fields
are taken in as a whole before any of them is looked at, so all of them have to be well-formed.

A type use that is read out of something taken in as a whole may give its form by position as well
as by name; `isNested` says that this is so.
-/

namespace BeanProcessing.TypeUse

/-- The forms of a type use, in the order of their positions. -/
inductive Form where
  | declared
  | typeVariable
  | array
  | unresolved

namespace Form

/-- The form at a position. -/
def ofPosition? : Nat → Option Form
  | 0 => some declared
  | 1 => some typeVariable
  | 2 => some array
  | 3 => some unresolved
  | _ => none

/-- The form with a name. -/
def ofName? : String → Option Form
  | "declared" => some declared
  | "variable" => some typeVariable
  | "array" => some array
  | "error" => some unresolved
  | _ => none

/-- Reads a form. -/
def ofJson (isNested : Bool) : Json → Except Json.Fault Form :=
  Json.asTag isNested ofName? ofPosition?

/-- The names of the fields that belong to a form, in order. -/
def fieldNames : Form → List String
  | declared => ["symbol", "args"]
  | typeVariable => ["symbol"]
  | array => ["element", "dimensions"]
  | unresolved => []

end Form

/-! ## Writing -/

mutual

/-- The type use as a JSON value; an empty list of arguments is left out. -/
def toJson : TypeUse → Json
  | declared symbol [] =>
    .object [("type", .string "declared"), ("symbol", symbol.toJson)]
  | declared symbol (argument :: rest) =>
    .object [("type", .string "declared"), ("symbol", symbol.toJson),
      ("args", .array (argument.toJson :: toJsons rest))]
  | typeVariable symbol => .object [("type", .string "variable"), ("symbol", symbol.toJson)]
  | array element dimensions =>
    .object [("type", .string "array"), ("element", element.toJson),
      ("dimensions", .nat dimensions)]
  | unresolved => .object [("type", .string "error")]

/-- Each type use as a JSON value. -/
def toJsons : List TypeUse → List Json
  | [] => []
  | use :: rest => use.toJson :: toJsons rest

end

/-! ## Reading -/

/-- Makes a type use of a form and the fields that belong to it; what its element and its arguments
would be has been read from these fields. -/
def ofParts (form : Form) (fields : List (String × Json)) (element : Except Json.Fault TypeUse)
    (arguments : Except Json.Fault (List TypeUse)) : Except Json.Fault TypeUse :=
  match form with
  | .declared => do
    return declared (← Json.required (Symbol.ofJson true) "symbol" fields) (← arguments)
  | .typeVariable => return typeVariable (← Json.required (Symbol.ofJson true) "symbol" fields)
  | .array => return array (← element) (← Json.required Json.asWord "dimensions" fields)
  | .unresolved => return unresolved

/-- Makes a type use of a form and the first of the fields that belong to it, in order. -/
def ofItems (form : Form) (items : List Json) (element : Except Json.Fault TypeUse)
    (arguments : Except Json.Fault (List TypeUse)) : Except Json.Fault TypeUse :=
  if items.length ≤ form.fieldNames.length then
    ofParts form (form.fieldNames.zip items) element arguments
  else .error .data

mutual

/-- Reads a type use out of something taken in as a whole. -/
def ofTakenIn : Json → Except Json.Fault TypeUse
  | .object fields => do
    let form ← Json.required (Form.ofJson true) "type" fields
    ofParts form fields (elementOf fields) (argumentsOf fields)
  | .array (form :: items) => do
    ofItems (← Form.ofJson true form) items (firstOf items) (secondsOf items)
  | value => .error value.mismatch

/-- Reads the first item. -/
def firstOf : List Json → Except Json.Fault TypeUse
  | [] => .error .data
  | value :: _ => ofTakenIn value

/-- Reads the second item, if there is one, as a list of arguments. -/
def secondsOf : List Json → Except Json.Fault (List TypeUse)
  | _ :: .array items :: _ => listOfTakenIn items
  | _ :: value :: _ => .error value.mismatch
  | _ => .ok []

/-- Reads the only field `element`. -/
def elementOf : List (String × Json) → Except Json.Fault TypeUse
  | [] => .error .data
  | (key, value) :: rest =>
    if key = "element" then
      if rest.any (·.1 = "element") then .error .data else ofTakenIn value
    else elementOf rest

/-- Reads the only field `args`; without it there are no arguments. -/
def argumentsOf : List (String × Json) → Except Json.Fault (List TypeUse)
  | [] => .ok []
  | (key, value) :: rest =>
    if key = "args" then
      if rest.any (·.1 = "args") then .error .data
      else match value with
        | .array items => listOfTakenIn items
        | value => .error value.mismatch
    else argumentsOf rest

/-- Reads a list of type uses out of something taken in as a whole. -/
def listOfTakenIn : List Json → Except Json.Fault (List TypeUse)
  | [] => .ok []
  | value :: rest => do
    let use ← ofTakenIn value
    return use :: (← listOfTakenIn rest)

end

/-- A type use that is being taken in: its form, and the other fields, last first. -/
structure Draft where
  form? : Option Form := none
  others : List (String × Json) := []

/-- The field that is read at once. -/
def formField : Json.Field Draft :=
  .of "type" true (Form.ofJson false) fun form d => { d with form? := form }

/-- Takes in a field that is not the form. -/
def keep (name : String) (value : Json) (d : Draft) : Except Json.Fault Draft := do
  value.takeIn
  return { d with others := (name, value) :: d.others }

/-- Reads a type use. -/
def ofJson (isNested : Bool) (value : Json) : Except Json.Fault TypeUse :=
  if isNested then ofTakenIn value
  else match value.front with
    | .object fields => do
      let (_, draft) ← Json.readFields [formField] keep [] {} fields
      value.close
      match draft.form? with
      | some form =>
        let fields := draft.others.reverse
        ofParts form fields (elementOf fields) (argumentsOf fields)
      | none => throw .data
    | .array (form :: items) => do
      let form ← Form.ofJson false form
      items.forM Json.takeIn
      value.close
      ofItems form items (firstOf items) (secondsOf items)
    | .array [] => do
      value.close
      throw .data
    | other => .error other.mismatch

end BeanProcessing.TypeUse

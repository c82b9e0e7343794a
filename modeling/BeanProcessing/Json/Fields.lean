import BeanProcessing.Json.Basic

/-!
# Reading types from JSON

A type is read from a value by a decoder `Json → Except Fault α`. The decoders here are the small
ones that the others are made of. A document is read from its beginning to its end: of several
faults the first one counts, and a fault of the shape shows as soon as what has been read so far
cannot have the shape.

Some values are taken in as a whole before anything is read out of them. A decoder that has to know
whether it reads out of such a value gets a flag `isNested`: outside of one, a fault that shows at
the first character of a value, or behind the last one that was wanted, is a fault of the text.
-/

namespace BeanProcessing.Json

/-- The fault of a value of the wrong shape; where there is no value, that is its fault. -/
def mismatch : Json → Fault
  | .flawed flaw => flaw.whenRead
  | _ => .data

/-- An array or object as far as it goes; any other value is itself. -/
def front : Json → Json
  | .cut front _ => front
  | value => value

/-- Checks that an array or object comes to its end. -/
def close : Json → Except Fault Unit
  | .cut _ flaw => .error flaw.whenRead
  | _ => .ok ()

/-- Reads a string. -/
def asString : Json → Except Fault String
  | .string s => .ok s
  | value => .error value.mismatch

/-- Reads a truth value. -/
def asBool : Json → Except Fault Bool
  | .bool b => .ok b
  | value => .error value.mismatch

/-- Reads a whole number of at most 64 bits. -/
def asWord : Json → Except Fault Nat
  | .number (.natural n) => if n < Nat.pow 2 64 then .ok n else .error .data
  | value => .error value.mismatch

/-- Reads a list of what `decode` reads. -/
def asList {α : Type} (decode : Json → Except Fault α) (value : Json) : Except Fault (List α) :=
  match value.front with
  | .array items => do
    let results ← items.mapM decode
    value.close
    return results
  | other => .error other.mismatch

/-- Reads what `decode` reads, or the absence of it. -/
def asOption {α : Type} (decode : Json → Except Fault α) : Json → Except Fault (Option α)
  | .null => .ok none
  | value => some <$> decode value

/-- Reads the fields of an object. -/
def asFields (value : Json) : Except Fault (List (String × Json)) :=
  match value.front with
  | .object fields => do
    value.close
    return fields
  | other => .error other.mismatch

/-- Whether a value is an array, as far as it goes. -/
def isArray (value : Json) : Bool :=
  match value.front with
  | .array _ => true
  | _ => false

/-- Reads what stands for nothing: the null value or, out of something taken in as a whole, also an
object without fields. -/
def asNothing (isNested : Bool) : Json → Except Fault Unit
  | .null => .ok ()
  | .object [] => if isNested then .ok () else .error .data
  | value => .error value.mismatch

/-- Reads one of a few words, which is a string, or an object with the word for its only field and
nothing for a value. -/
def asChoice {α : Type} (isNested : Bool) (ofWord? : String → Option α) (value : Json) :
    Except Fault α :=
  let excess : Fault := if isNested then .data else .syntaxError
  let ofWord := fun word =>
    match ofWord? word with
    | some a => .ok a
    | none => .error .data
  match value.front with
  | .string word => ofWord word
  | .object [] => do
    value.close
    throw excess
  | .object ((word, content) :: rest) => do
    let a ← ofWord word
    content.asNothing isNested
    if !rest.isEmpty then throw excess
    match value with
    | .cut _ flaw => throw flaw.whenClosed
    | _ => return a
  | .flawed flaw => .error (if isNested then flaw.whenRead else flaw.whenWord)
  | _ => .error excess

/-- Reads one of a few words that tells how to read what is around it. Out of something taken in as
a whole it may also be the position of the word among all of them. -/
def asTag {α : Type} (isNested : Bool) (ofWord? : String → Option α)
    (ofPosition? : Nat → Option α) : Json → Except Fault α
  | .string word =>
    match ofWord? word with
    | some a => .ok a
    | none => .error .data
  | .number (.natural n) =>
    match if isNested then ofPosition? n else none with
    | some a => .ok a
    | none => .error .data
  | value => .error value.mismatch

/-! ## Fields in order -/

/-- A field of records of type `ρ`: its name, whether a record has to have it, and how its value is
read into what has been read of the record so far. -/
structure Field (ρ : Type) where
  name : String
  isRequired : Bool
  read : Json → ρ → Except Fault ρ

/-- A field that is read with a decoder. -/
def Field.of {α ρ : Type} (name : String) (isRequired : Bool) (decode : Json → Except Fault α)
    (set : α → ρ → ρ) : Field ρ where
  name := name
  isRequired := isRequired
  read value draft := return set (← decode value) draft

/-- Reads fields in the order in which they stand. A field that is not known is left to `other`; one
that is known may stand once only, and `seen` holds the names of those that stood before. -/
def readFields {ρ : Type} (known : List (Field ρ)) (other : String → Json → ρ → Except Fault ρ)
    (seen : List String) (draft : ρ) : List (String × Json) → Except Fault (List String × ρ)
  | [] => .ok (seen, draft)
  | (name, value) :: rest =>
    match known.find? (·.name == name) with
    | some field => do
      if seen.contains name then throw .data
      readFields known other (name :: seen) (← field.read value draft) rest
    | none => do readFields known other seen (← other name value draft) rest

/-- Passes over the value of a field that is not known. -/
def ignore {ρ : Type} (_ : String) (value : Json) (draft : ρ) : Except Fault ρ := do
  value.passOver
  return draft

/-- Reads items as the values of the first of the known fields, up to the last item. What is left of
the known fields is returned with the record. -/
def readItems {ρ : Type} (tooMany : Fault) (draft : ρ) :
    List (Field ρ) → List Json → Except Fault (List (Field ρ) × ρ)
  | known, [] => .ok (known, draft)
  | [], _ :: _ => .error tooMany
  | field :: known, value :: rest => do
    readItems tooMany (← field.read value draft) known rest

/-- Reads a record into `draft`, which holds what a missing field amounts to. A record is an object,
or an array of the values of its first fields in the order in which they are known. -/
def asRecord {ρ : Type} (isNested : Bool) (known : List (Field ρ)) (draft : ρ) (value : Json) :
    Except Fault ρ :=
  match value.front with
  | .object fields => do
    let (seen, record) ← readFields known ignore [] draft fields
    value.close
    if known.all fun field => !field.isRequired || seen.contains field.name then return record
    else throw .data
  | .array items => do
    let (missing, record) ← readItems (if isNested then .data else .syntaxError) draft known items
    value.close
    if missing.all (!·.isRequired) then return record else throw .data
  | other => .error other.mismatch

/-! ## Fields by name -/

/-- The value of the field `name`, if there is such a field. -/
def field? (fields : List (String × Json)) (name : String) : Except Fault (Option Json) :=
  match fields.filter (·.1 = name) with
  | [] => .ok none
  | [(_, value)] => .ok (some value)
  | _ => .error .data

/-- Reads the field `name`, which has to be there. -/
def required {α : Type} (decode : Json → Except Fault α) (name : String)
    (fields : List (String × Json)) : Except Fault α :=
  match field? fields name with
  | .ok (some value) => decode value
  | .ok none => .error .data
  | .error fault => .error fault

/-- Reads the field `name`, or takes `absent` when it is not there. -/
def optional {α : Type} (decode : Json → Except Fault α) (absent : α) (name : String)
    (fields : List (String × Json)) : Except Fault α :=
  match field? fields name with
  | .ok (some value) => decode value
  | .ok none => .ok absent
  | .error fault => .error fault

end BeanProcessing.Json

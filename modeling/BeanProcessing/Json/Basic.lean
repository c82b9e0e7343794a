/-!
# JSON values

`Json` is a JSON document as it was written: objects keep the order of their fields and every
repeated field, and numbers keep their spelling where it matters. Which repetitions are allowed is
for the reader of a type to say.

A document that goes wrong is kept as far as it goes. Where it goes wrong there is a flaw, and what
a flaw amounts to depends on whether the value is read or merely passed over: some texts, such as
half of a surrogate pair or a number too large for a binary64, follow the grammar and still denote
nothing, which does not matter in a field that nobody asks for.
-/

namespace BeanProcessing

/-- Why a text could not be read. -/
inductive Json.Fault where
  /-- The text ends too early. -/
  | eof
  /-- The text is not JSON. -/
  | syntaxError
  /-- The text is JSON of the wrong shape. -/
  | data
deriving DecidableEq, Repr

/-- The name of a fault. -/
def Json.Fault.name : Json.Fault → String
  | eof => "Eof"
  | syntaxError => "Syntax"
  | data => "Data"

/-- What is wrong with a document at some place. -/
inductive Json.Flaw where
  /-- The text ends where something has to follow. -/
  | ended
  /-- A character stands where it cannot stand. -/
  | stray
  /-- The text ends within a literal name. -/
  | cutName
  /-- The text ends within a number. -/
  | cutNumber
  /-- A number is too large for a binary64. -/
  | tooLarge
  /-- A string goes wrong with a fault; up to there its surrogates are paired. -/
  | cutText (fault : Json.Fault)
  /-- A string holds half of a surrogate pair; `next` is the fault behind it, if there is one within
  the string or, when the string is a key, within the object. -/
  | unpaired (next : Option Json.Fault)
  /-- A flaw where a key has to stand, behind a comma. -/
  | behindComma (flaw : Json.Flaw)
deriving DecidableEq, Repr

namespace Json.Flaw

/-- The fault of a value that is read. -/
def whenRead : Flaw → Fault
  | ended | cutName | cutNumber => .eof
  | stray | tooLarge | unpaired _ => .syntaxError
  | cutText fault => fault
  | behindComma flaw => flaw.whenRead

/-- The fault of a value that is passed over, if it is one. A number has to be complete before the
text ends. -/
def whenPassedOver : Flaw → Option Fault
  | ended | cutName => some .eof
  | stray | cutNumber => some .syntaxError
  | tooLarge => none
  | cutText fault => some fault
  | unpaired next => next
  | behindComma flaw => flaw.whenPassedOver

/-- The fault of a value that is read as a word, which has to be a string: any other first character
is a stray one. -/
def whenWord : Flaw → Fault
  | ended => .eof
  | cutText fault => fault
  | _ => .syntaxError

/-- The fault of an object that is expected to end here: a comma is a stray character, whatever
comes behind it. -/
def whenClosed : Flaw → Fault
  | behindComma _ => .syntaxError
  | flaw => flaw.whenRead

/-- Whether the flaw lies within a string. -/
def isInText : Flaw → Bool
  | cutText _ | unpaired _ => true
  | _ => false

end Json.Flaw

/-- A number: a whole number without a sign, or the spelling of any other. -/
inductive Json.Number where
  | natural (value : Nat)
  | other (spelling : String)
deriving DecidableEq, Repr

/-- A JSON value. -/
inductive Json where
  | null
  | bool (value : Bool)
  | number (value : Json.Number)
  | string (value : String)
  | array (items : List Json)
  | object (fields : List (String × Json))
  /-- No value, because of a flaw. -/
  | flawed (flaw : Json.Flaw)
  /-- An array or object that goes wrong behind what `front` holds. -/
  | cut (front : Json) (flaw : Json.Flaw)
deriving Inhabited

namespace Json

/-- The whole number `n`. -/
def nat (n : Nat) : Json := .number (.natural n)

/-! ## Faults of a whole value -/

mutual

/-- The first fault of a value, given the faults of its flaws. -/
def firstFault? (faultOf : Flaw → Option Fault) : Json → Option Fault
  | .array items => firstItemFault? faultOf items
  | .object fields => firstFieldFault? faultOf fields
  | .flawed flaw => faultOf flaw
  | .cut front flaw => (front.firstFault? faultOf).or (faultOf flaw)
  | _ => none

/-- The first fault of some items. -/
def firstItemFault? (faultOf : Flaw → Option Fault) : List Json → Option Fault
  | [] => none
  | item :: rest => (item.firstFault? faultOf).or (firstItemFault? faultOf rest)

/-- The first fault of the values of some fields. -/
def firstFieldFault? (faultOf : Flaw → Option Fault) : List (String × Json) → Option Fault
  | [] => none
  | (_, value) :: rest => (value.firstFault? faultOf).or (firstFieldFault? faultOf rest)

end

/-- Reads every part of a value. -/
def takeIn (value : Json) : Except Fault Unit :=
  match value.firstFault? (some ·.whenRead) with
  | some fault => .error fault
  | none => .ok ()

/-- Passes over a value. -/
def passOver (value : Json) : Except Fault Unit :=
  match value.firstFault? (·.whenPassedOver) with
  | some fault => .error fault
  | none => .ok ()

end Json

end BeanProcessing

import BeanProcessing.Json.Basic

/-!
# Writing JSON

Two layouts: compact, without any space, and pretty, with two spaces for each level and every item
and field on a line of its own. In both, strings keep every character that does not have to be
escaped.
-/

namespace BeanProcessing.Json

/-! ## Strings -/

/-- A hexadecimal digit in lower case. -/
def hexDigit (n : Nat) : Char :=
  if n < 10 then Char.ofNat ('0'.toNat + n) else Char.ofNat ('a'.toNat + (n - 10))

/-- A character within a string: escaped by a letter if it has one, spelled out if it is any other
control character below the space, and as it is otherwise. -/
def escapeChar (c : Char) : List Char :=
  if c = '"' then ['\\', '"']
  else if c = '\\' then ['\\', '\\']
  else if c = '\x08' then ['\\', 'b']
  else if c = '\t' then ['\\', 't']
  else if c = '\n' then ['\\', 'n']
  else if c = '\x0c' then ['\\', 'f']
  else if c = '\r' then ['\\', 'r']
  else if c < ' ' then
    ['\\', 'u', '0', '0', hexDigit (c.toNat / 16), hexDigit (c.toNat % 16)]
  else [c]

/-- A string between its quotes. -/
def quote (s : String) : String :=
  "\"" ++ String.ofList (s.toList.flatMap escapeChar) ++ "\""

/-! ## Layouts -/

/-- The spelling of a number. -/
def Number.spelling : Number → String
  | natural n => Nat.repr n
  | other s => s

/-- The text of a value that holds no other; an ill-formed one has none of its own. -/
def leaf : Json → String
  | .bool true => "true"
  | .bool false => "false"
  | .number n => n.spelling
  | .string s => quote s
  | _ => "null"

mutual

/-- The value without any space. -/
def compact : Json → String
  | .array items => "[" ++ ",".intercalate (compactItems items) ++ "]"
  | .object fields => "\x7b" ++ ",".intercalate (compactFields fields) ++ "\x7d"
  | value => leaf value

/-- Each item without any space. -/
def compactItems : List Json → List String
  | [] => []
  | item :: rest => item.compact :: compactItems rest

/-- Each field without any space. -/
def compactFields : List (String × Json) → List String
  | [] => []
  | (key, value) :: rest => (quote key ++ ":" ++ value.compact) :: compactFields rest

end

/-- The start of a line at some depth of nesting. -/
def newLine (depth : Nat) : String :=
  "\n" ++ String.join (List.replicate depth "  ")

/-- Items or fields on lines of their own, within brackets at some depth. -/
def onLines (opening closing : String) (depth : Nat) (parts : List String) : String :=
  opening ++ newLine (depth + 1) ++ ("," ++ newLine (depth + 1)).intercalate parts
    ++ newLine depth ++ closing

mutual

/-- The value with its items and fields on lines of their own, at some depth of nesting. -/
def prettyAt (depth : Nat) : Json → String
  | .array [] => "[]"
  | .array (item :: rest) =>
    onLines "[" "]" depth (prettyAt (depth + 1) item :: prettyItems (depth + 1) rest)
  | .object [] => "\x7b\x7d"
  | .object ((key, value) :: rest) =>
    onLines "\x7b" "\x7d" depth
      ((quote key ++ ": " ++ prettyAt (depth + 1) value) :: prettyFields (depth + 1) rest)
  | value => leaf value

/-- Each item at some depth of nesting. -/
def prettyItems (depth : Nat) : List Json → List String
  | [] => []
  | item :: rest => prettyAt depth item :: prettyItems depth rest

/-- Each field at some depth of nesting. -/
def prettyFields (depth : Nat) : List (String × Json) → List String
  | [] => []
  | (key, value) :: rest => (quote key ++ ": " ++ prettyAt depth value) :: prettyFields depth rest

end

/-- The value with its items and fields on lines of their own. -/
def pretty (value : Json) : String := prettyAt 0 value

end BeanProcessing.Json

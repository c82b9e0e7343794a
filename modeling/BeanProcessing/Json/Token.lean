import BeanProcessing.Json.Basic
import BeanProcessing.Json.Magnitude

/-!
# JSON tokens

A text is cut into tokens one after the other: brackets, commas and colons, strings, and scalars. A
text that goes wrong inside a token ends in a flawed one, which says how, so that whoever consumes
the tokens meets a flaw only when it has used up everything in front of it.

Every token uses up at least one character, so the cutting ends.
-/

namespace BeanProcessing.Json

/-- A piece of a JSON text. -/
inductive Token where
  | openArray
  | closeArray
  | openObject
  | closeObject
  | comma
  | colon
  | text (value : String)
  /-- A literal name or a number. -/
  | scalar (value : Json)
  /-- A string or number that denotes nothing, or the rest of a text that goes wrong. -/
  | flawed (flaw : Flaw)

namespace Token

/-! ## Literal names -/

/-- Reads the rest of a literal name. -/
def scanName (value : Json) : List Char → List Char → Token × List Char
  | [], s => (.scalar value, s)
  | _ :: _, [] => (.flawed .cutName, [])
  | e :: expected, c :: s =>
    if c = e then scanName value expected s else (.flawed .stray, [])

/-! ## Strings -/

/-- The value of a hexadecimal digit. -/
def hexDigit? (c : Char) : Option Nat :=
  if '0' ≤ c && c ≤ '9' then some (c.toNat - '0'.toNat)
  else if 'a' ≤ c && c ≤ 'f' then some (c.toNat - 'a'.toNat + 10)
  else if 'A' ≤ c && c ≤ 'F' then some (c.toNat - 'A'.toNat + 10)
  else none

/-- The code unit that four hexadecimal digits spell. -/
def codeUnit? (a b c d : Char) : Option Nat := do
  let a ← hexDigit? a
  let b ← hexDigit? b
  let c ← hexDigit? c
  let d ← hexDigit? d
  return ((a * 16 + b) * 16 + c) * 16 + d

/-- The character behind a backslash followed by a single letter. -/
def shortEscape? : Char → Option Char
  | '"' => some '"'
  | '\\' => some '\\'
  | '/' => some '/'
  | 'b' => some '\x08'
  | 'f' => some '\x0c'
  | 'n' => some '\n'
  | 'r' => some '\r'
  | 't' => some '\t'
  | _ => none

/-- What has been read of a string: its characters, last first; whether its surrogates were paired
so far; and a leading surrogate that waits for its partner. -/
structure Partial where
  characters : List Char := []
  isPaired : Bool := true
  leading : Option Nat := none

namespace Partial

/-- Adds a character; a leading surrogate in front of it has no partner. -/
def push (p : Partial) (c : Char) : Partial :=
  { characters := c :: p.characters, isPaired := p.isPaired && p.leading.isNone }

/-- Adds a code unit: half of a surrogate pair, or a character of its own. -/
def pushUnit (p : Partial) (unit : Nat) : Partial :=
  if 0xdc00 ≤ unit && unit ≤ 0xdfff then
    match p.leading with
    | some lead =>
      let c := Char.ofNat (0x10000 + (lead - 0xd800) * 0x400 + (unit - 0xdc00))
      { characters := c :: p.characters, isPaired := p.isPaired }
    | none => { p with isPaired := false }
  else if 0xd800 ≤ unit && unit ≤ 0xdbff then
    { p with isPaired := p.isPaired && p.leading.isNone, leading := some unit }
  else
    p.push (Char.ofNat unit)

/-- The finished string. -/
def finish (p : Partial) : Token :=
  if p.isPaired && p.leading.isNone then .text (String.ofList p.characters.reverse)
  else .flawed (.unpaired none)

/-- A string that goes wrong with a fault. A leading surrogate that still waits for its partner is
not yet without one. -/
def fail (p : Partial) (fault : Fault) : Token × List Char :=
  (.flawed (if p.isPaired then .cutText fault else .unpaired (some fault)), [])

end Partial

/-- Reads the rest of a string. A spelled-out code unit takes the next four bytes, whatever they
are: the text ends too early only when there are fewer. -/
def scanText (p : Partial) : List Char → Token × List Char
  | [] => p.fail .eof
  | '"' :: s => (p.finish, s)
  | '\\' :: 'u' :: a :: b :: c :: d :: s =>
    match codeUnit? a b c d with
    | some unit => scanText (p.pushUnit unit) s
    | none => p.fail .syntaxError
  | '\\' :: 'u' :: s => p.fail (if (String.ofList s).utf8ByteSize < 4 then .eof else .syntaxError)
  | '\\' :: c :: s =>
    match shortEscape? c with
    | some c => scanText (p.push c) s
    | none => p.fail .syntaxError
  | c :: s =>
    if c = '\\' then p.fail .eof
    else if c < ' ' then p.fail .syntaxError
    else scanText (p.push c) s

/-! ## Numbers -/

/-- The number with a spelling, if it is not too large. -/
def ofSpelling (spelling : List Char) : Token :=
  if (Magnitude.ofSpelling spelling).isTooLarge then .flawed .tooLarge
  else if spelling.all isDigit then .scalar (.nat (ofDigits spelling))
  else .scalar (.number (.other (String.ofList spelling)))

/-- How far the reading of a number has come. -/
inductive NumberState where
  /-- In front of the whole part, with or without a sign. -/
  | start
  /-- Behind a whole part that is a single zero. -/
  | zero
  /-- Behind a digit of a whole part that is not zero. -/
  | whole
  /-- Behind a zero with a digit after it, which no number has. -/
  | leadingZero
  /-- Behind the point. -/
  | point
  /-- Behind a digit of the fraction. -/
  | fraction
  /-- Behind the exponent mark. -/
  | mark
  /-- Behind the sign of the exponent. -/
  | powerSign
  /-- Behind a digit of the exponent. -/
  | power

namespace NumberState

/-- The state behind one more character, if the number goes on with it. -/
def step? : NumberState → Char → Option NumberState
  | start, c => if c = '0' then some zero else if isDigit c then some whole else none
  | zero, c =>
    if isDigit c then some leadingZero
    else if c = '.' then some point
    else if c = 'e' || c = 'E' then some mark
    else none
  | whole, c =>
    if isDigit c then some whole
    else if c = '.' then some point
    else if c = 'e' || c = 'E' then some mark
    else none
  | leadingZero, _ => none
  | point, c => if isDigit c then some fraction else none
  | fraction, c =>
    if isDigit c then some fraction
    else if c = 'e' || c = 'E' then some mark
    else none
  | mark, c =>
    if c = '+' || c = '-' then some powerSign else if isDigit c then some power else none
  | powerSign, c => if isDigit c then some power else none
  | power, c => if isDigit c then some power else none

/-- The number that ends here with a spelling, or the flaw of ending here in front of `s`. -/
def finish (spelling s : List Char) : NumberState → Token × List Char
  | zero | whole | fraction | power => (ofSpelling spelling, s)
  | leadingZero => (.flawed .stray, [])
  | start | point | mark | powerSign => (.flawed (if s.isEmpty then .cutNumber else .stray), [])

end NumberState

/-- Reads the rest of a number whose characters so far, last first, led to a state. -/
def scanNumber (state : NumberState) (characters : List Char) : List Char → Token × List Char
  | [] => state.finish characters.reverse []
  | c :: s =>
    match state.step? c with
    | some state => scanNumber state (c :: characters) s
    | none => state.finish characters.reverse (c :: s)

/-! ## All tokens -/

/-- Whether a character may stand between tokens. -/
def isSpace (c : Char) : Bool := c == ' ' || c == '\t' || c == '\n' || c == '\r'

/-- Reads the token that starts with `c`, a character that is no space. -/
def scan (c : Char) (s : List Char) : Token × List Char :=
  match c with
  | '[' => (.openArray, s)
  | ']' => (.closeArray, s)
  | '\x7b' => (.openObject, s)
  | '\x7d' => (.closeObject, s)
  | ',' => (.comma, s)
  | ':' => (.colon, s)
  | '"' => scanText {} s
  | 'n' => scanName .null ['u', 'l', 'l'] s
  | 't' => scanName (.bool true) ['r', 'u', 'e'] s
  | 'f' => scanName (.bool false) ['a', 'l', 's', 'e'] s
  | '-' => scanNumber .start ['-'] s
  | '0' => scanNumber .zero ['0'] s
  | c => if isDigit c then scanNumber .whole [c] s else (.flawed .stray, [])

/-- The first token of a text, and what follows it. -/
def next? : List Char → Option (Token × List Char)
  | [] => none
  | c :: s => if isSpace c then next? s else some (scan c s)

/-! ## A token leaves less than there was -/

theorem length_scanName_le (value : Json) (expected s : List Char) :
    (scanName value expected s).2.length ≤ s.length := by
  induction expected generalizing s with
  | nil => simp [scanName]
  | cons e expected ih =>
    cases s with
    | nil => simp [scanName]
    | cons c s =>
      unfold scanName
      split
      · exact Nat.le_succ_of_le (ih s)
      · simp

theorem length_scanText_le (p : Partial) (s : List Char) :
    (scanText p s).2.length ≤ s.length := by
  fun_induction scanText p s <;> simp_all [Partial.fail] <;> omega

theorem length_scanNumber_le (state : NumberState) (characters s : List Char) :
    (scanNumber state characters s).2.length ≤ s.length := by
  induction s generalizing state characters with
  | nil => cases state <;> simp [scanNumber, NumberState.finish]
  | cons c s ih =>
    unfold scanNumber
    split
    · next state' _ => exact Nat.le_succ_of_le (ih state' (c :: characters))
    · cases state <;> simp [NumberState.finish]

theorem length_scan_le (c : Char) (s : List Char) : (scan c s).2.length ≤ s.length := by
  unfold scan
  split <;> try exact Nat.le_refl _
  · exact length_scanText_le _ s
  · exact length_scanName_le _ _ s
  · exact length_scanName_le _ _ s
  · exact length_scanName_le _ _ s
  · exact length_scanNumber_le _ _ s
  · exact length_scanNumber_le _ _ s
  · split
    · exact length_scanNumber_le _ _ s
    · exact Nat.zero_le _

theorem length_lt_of_next? {s rest : List Char} {t : Token} (h : next? s = some (t, rest)) :
    rest.length < s.length := by
  induction s with
  | nil => simp [next?] at h
  | cons c s ih =>
    unfold next? at h
    split at h
    · exact Nat.lt_succ_of_lt (ih h)
    · have hscan : scan c s = (t, rest) := Option.some.inj h
      have hle := length_scan_le c s
      rw [hscan] at hle
      exact Nat.lt_succ_of_le hle

/-- The tokens of a text. -/
def ofText (s : List Char) : List Token :=
  match _h : next? s with
  | none => []
  | some (t, rest) => t :: ofText rest
termination_by s.length
decreasing_by exact length_lt_of_next? _h

end Token

end BeanProcessing.Json

import BeanProcessing.Json.Token

/-!
# Reading JSON

The reader consumes tokens one at a time. It holds the arrays and objects that are open, innermost
first, and knows what may come next. The document is complete when the outermost value is; when a
token cannot stand where it stands, or the tokens run out, the document is what there is so far,
with the flaw at its end.
-/

namespace BeanProcessing.Json

/-- A document: the value of a text, and whether something follows it that does not belong there. -/
structure Document where
  value : Json
  hasMore : Bool

/-! ## Objects whose keys may denote nothing -/

/-- The first fault of the values of some fields and of what ends them, when they are passed over.
-/
def restFault? (ending : Option Flaw) : List (Option String × Json) → Option Fault
  | [] => ending.bind (·.whenPassedOver)
  | (_, value) :: rest => (value.firstFault? (·.whenPassedOver)).or (restFault? ending rest)

/-- The object with some fields, after those in `done`, last first, and with the flaw that ends it,
if it does not come to its end. A key that denotes nothing is a flaw of the object. -/
def ofEntries (done : List (String × Json)) (ending : Option Flaw) :
    List (Option String × Json) → Json
  | [] =>
    match ending with
    | none => .object done.reverse
    | some flaw => .cut (.object done.reverse) flaw
  | (some key, value) :: rest => ofEntries ((key, value) :: done) ending rest
  | (none, value) :: rest =>
    .cut (.object done.reverse) (.unpaired (restFault? ending ((none, value) :: rest)))

/-! ## Open arrays and objects -/

/-- An array or object that is still open, with what it holds so far, last first. -/
inductive Frame where
  | items (done : List Json)
  /-- An object that waits for the value of the field `key`; a key may denote nothing. -/
  | field (done : List (Option String × Json)) (key : Option String)

/-- The array or object that ends behind a value. -/
def Frame.close (value : Json) : Frame → Json
  | .items done => .array (value :: done).reverse
  | .field done key => ofEntries [] none ((key, value) :: done).reverse

/-- The array or object that goes wrong behind a value. -/
def Frame.cut (value : Json) (flaw : Flaw) : Frame → Json
  | .items done => .cut (.array (value :: done).reverse) flaw
  | .field done key => ofEntries [] (some flaw) ((key, value) :: done).reverse

/-- The outermost value, when everything ends behind the innermost one. -/
def Frame.closeAll (frames : List Frame) (value : Json) : Json :=
  frames.foldl (fun value frame => frame.close value) value

/-! ## One token after the other -/

/-- What may come next. -/
inductive Expectation where
  /-- A value. -/
  | value
  /-- The first item of an array, or its end. -/
  | firstItem
  /-- The key of a field or, if it is the first, the end of the object. -/
  | key (isFirst : Bool) (done : List (Option String × Json))
  /-- The colon behind a key. -/
  | colon (done : List (Option String × Json)) (key : Option String)
  /-- Whatever follows a value within the innermost frame. -/
  | separator (value : Json)

namespace Reader

/-- The innermost frame gets a value to begin with. -/
def openValue? (frames : List Frame) : Token → Option (List Frame × Expectation)
  | .openArray => some (frames, .firstItem)
  | .openObject => some (frames, .key true [])
  | .text s => some (frames, .separator (.string s))
  | .scalar v => some (frames, .separator v)
  | .flawed flaw => some (frames, .separator (.flawed flaw))
  | _ => none

/-- Consumes one token, unless it cannot stand there. -/
def step? (frames : List Frame) : Expectation → Token → Option (List Frame × Expectation)
  | .value, t => openValue? frames t
  | .firstItem, .closeArray => some (frames, .separator (.array []))
  | .firstItem, t => openValue? (.items [] :: frames) t
  | .key _ done, .text key => some (frames, .colon done (some key))
  | .key _ done, .flawed (.unpaired none) => some (frames, .colon done none)
  | .key true _, .closeObject => some (frames, .separator (.object []))
  | .key _ _, _ => none
  | .colon done key, .colon => some (.field done key :: frames, .value)
  | .colon _ _, _ => none
  | .separator v, t =>
    match frames, t with
    | .items done :: frames, .comma => some (.items (v :: done) :: frames, .value)
    | .field done key :: frames, .comma => some (frames, .key false ((key, v) :: done))
    | .items done :: frames, .closeArray => some (frames, .separator (Frame.close v (.items done)))
    | .field done key :: frames, .closeObject =>
      some (frames, .separator (Frame.close v (.field done key)))
    | _, _ => none

/-- The flaw of a token that cannot stand there. -/
def flawOf : Expectation → Token → Flaw
  | .key _ _, .flawed flaw => if flaw.isInText then flaw else .stray
  | _, _ => .stray

/-- What there is of the document, if it goes wrong here with a flaw. -/
def stop (flaw : Flaw) (frames : List Frame) : Expectation → Json
  | .value => Frame.closeAll frames (.flawed flaw)
  | .firstItem => Frame.closeAll (.items [] :: frames) (.flawed flaw)
  | .key isFirst done =>
    let flaw := if isFirst then flaw else .behindComma flaw
    Frame.closeAll frames (ofEntries [] (some flaw) done.reverse)
  | .colon done key => Frame.closeAll (.field done key :: frames) (.flawed flaw)
  | .separator v =>
    match frames with
    | [] => v
    | frame :: frames => Frame.closeAll frames (frame.cut v flaw)

/-- Whether the document is complete. -/
def isDone : List Frame → Expectation → Bool
  | [], .separator _ => true
  | _, _ => false

/-- Consumes all tokens. -/
def run (frames : List Frame) (expected : Expectation) : List Token → Document
  | [] => { value := stop .ended frames expected, hasMore := false }
  | t :: tokens =>
    match step? frames expected t with
    | some (frames, expected) => run frames expected tokens
    | none =>
      { value := stop (flawOf expected t) frames expected, hasMore := isDone frames expected }

end Reader

/-- The document of a text. -/
def Document.ofText (text : String) : Document := Reader.run [] .value (Token.ofText text.toList)

/-- Reads a document with a decoder of its value, behind which nothing may follow. -/
def read {α : Type} (decode : Json → Except Fault α) (text : String) : Except Fault α := do
  let document := Document.ofText text
  let a ← decode document.value
  if document.hasMore then throw .syntaxError
  return a

end BeanProcessing.Json

import BeanProcessing.Json.Fields
import BeanProcessing.Json.Reader
import BeanProcessing.Settings

/-!
# Settings in JSON

Settings are an object; whatever is left out has its default. Settings are loaded from a text or
from the bytes of a file, and checked once they are read.
-/

namespace BeanProcessing.Settings

/-- Why settings could not be loaded. -/
inductive LoadFault where
  /-- There is no file. -/
  | missing
  /-- The bytes of the file are no text. -/
  | notText
  /-- The text does not describe settings. -/
  | malformed (fault : Json.Fault)
  /-- A setting is blank that must not be. -/
  | blank (setting : String)
deriving DecidableEq

/-- The message of a fault. -/
def LoadFault.message : LoadFault → String
  | missing => "I/O error: NotFound"
  | notText => "I/O error: InvalidData"
  | malformed fault => "JSON serialization/deserialization error: " ++ fault.name
  | blank setting => "configuration error: `" ++ setting ++ "` must not be empty"

/-- The settings as a JSON value. -/
def toJson (s : Settings) : Json :=
  .object [("top_type", .string s.topType),
    ("generated_marker", .string s.generatedMarker),
    ("introduction_stereotype", .string s.introductionStereotype),
    ("configuration_reader_stereotype", .string s.configurationReaderStereotype),
    ("context_scope_annotation", .string s.contextScopeMarker),
    ("inject_annotation", .string s.injectMarker),
    ("executable_stereotype", .string s.executableStereotype),
    ("bean_stereotypes", .array (s.beanStereotypes.map .string)),
    ("fail_fast", .bool s.failFast)]

/-- The fields of settings; all may be left out. -/
def knownFields : List (Json.Field Settings) :=
  let text (name : String) (set : String → Settings → Settings) : Json.Field Settings :=
    .of name false Json.asString set
  [text "top_type" fun v s => { s with topType := v },
    text "generated_marker" fun v s => { s with generatedMarker := v },
    text "introduction_stereotype" fun v s => { s with introductionStereotype := v },
    text "configuration_reader_stereotype" fun v s => { s with configurationReaderStereotype := v },
    text "context_scope_annotation" fun v s => { s with contextScopeMarker := v },
    text "inject_annotation" fun v s => { s with injectMarker := v },
    text "executable_stereotype" fun v s => { s with executableStereotype := v },
    .of "bean_stereotypes" false (Json.asList Json.asString)
      fun v s => { s with beanStereotypes := v },
    .of "fail_fast" false Json.asBool fun v s => { s with failFast := v }]

/-- Reads settings from a JSON value. -/
def ofJson : Json → Except Json.Fault Settings := Json.asRecord false knownFields {}

/-- Loads settings from a text. -/
def load (text : String) : Except LoadFault Settings :=
  match Json.read ofJson text with
  | .error fault => .error (.malformed fault)
  | .ok s =>
    match s.firstBlank? with
    | some setting => .error (.blank setting)
    | none => .ok s

/-- Loads settings from the bytes of a file, if there is one. -/
def loadFile (bytes : Option ByteArray) : Except LoadFault Settings :=
  match bytes with
  | none => .error .missing
  | some bytes =>
    match String.fromUTF8? bytes with
    | none => .error .notText
    | some text => load text

end BeanProcessing.Settings

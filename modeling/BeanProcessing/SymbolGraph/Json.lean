import BeanProcessing.AnnotationSet.Json
import BeanProcessing.Declaration.Json
import BeanProcessing.Json.Printer
import BeanProcessing.Json.Reader
import BeanProcessing.SymbolGraph.Reference

/-!
# Graphs in JSON

A graph is an object with a list of units and four tables; all of them may be left out. An entry of
a table is its declaration with the placement beside the declaration's own fields. The fields that
belong to the declaration are taken in as a whole, so every one of them has to be well-formed, known
or not.

A text is loaded in two steps: it is read, and then its references are checked.
-/

namespace BeanProcessing

/-- Why a graph could not be loaded. -/
inductive SymbolGraph.LoadFault where
  /-- The text does not describe a graph. -/
  | malformed (fault : Json.Fault)
  /-- The graph lists a symbol that it does not declare. -/
  | undeclared (symbol : Symbol)
deriving DecidableEq

/-- The message for a symbol, as it is shown, that is listed and not declared. -/
def SymbolGraph.undeclaredMessage (shown : String) : String :=
  "undeclared symbol referenced: " ++ shown

/-- The message of a fault. -/
def SymbolGraph.LoadFault.message : SymbolGraph.LoadFault → String
  | malformed fault => "malformed symbol graph: " ++ fault.name
  | undeclared s => SymbolGraph.undeclaredMessage (toString s)

/-! ## Entries -/

/-- The fields of a placement. -/
def Placement.toFields (p : Placement) : List (String × Json) :=
  (match p.enclosing with
    | some outer => [("enclosing", outer.toJson)]
    | none => [])
    ++ [("metadata", p.annotations.toJson)]

/-- An entry as a JSON value. -/
def Entry.toJson {δ : Type} (toFields : δ → List (String × Json)) (e : Entry δ) : Json :=
  .object (toFields e.declaration ++ e.placement.toFields)

namespace Entry

/-- An entry that is being read: its placement, and the fields of its declaration, last first. -/
structure Draft where
  placement : Placement := {}
  others : List (String × Json) := []

/-- The fields of an entry that are read at once: those of its placement. -/
def knownFields : List (Json.Field Draft) :=
  [.of "enclosing" false (Json.asOption (Symbol.ofJson false))
      fun v d => { d with placement := { d.placement with enclosing := v } },
    .of "metadata" false AnnotationSet.ofJson
      fun v d => { d with placement := { d.placement with annotations := v } }]

/-- Takes in a field of the declaration. -/
def keep (name : String) (value : Json) (d : Draft) : Except Json.Fault Draft := do
  value.takeIn
  return { d with others := (name, value) :: d.others }

/-- Reads an entry; `ofJson` reads the declaration from an object of the fields that were taken in.
-/
def ofJson {δ : Type} (ofJson : Json → Except Json.Fault δ) (value : Json) :
    Except Json.Fault (Entry δ) :=
  match value.front with
  | .object fields => do
    let (_, draft) ← Json.readFields knownFields keep [] {} fields
    value.close
    return {
      declaration := ← ofJson (.object draft.others.reverse)
      placement := draft.placement
    }
  | other => .error other.mismatch

end Entry

/-! ## Tables -/

/-- A table with paths for keys as a JSON value. -/
def Table.toJson {α : Type} (toJson : α → Json) (t : Table String α) : Json :=
  .object (t.entries.map fun entry => (entry.1, toJson entry.2))

/-- Reads the entries of a table in order. -/
def Table.readEntries {α : Type} (ofJson : Json → Except Json.Fault α) (t : Table String α) :
    List (String × Json) → Except Json.Fault (Table String α)
  | [] => .ok t
  | (key, value) :: rest => do
    let v ← ofJson value
    (t.insert key v).readEntries ofJson rest

/-- Reads a table; of two entries under one key the first gives the place and the last the value. -/
def Table.ofJson {α : Type} (ofJson : Json → Except Json.Fault α) (value : Json) :
    Except Json.Fault (Table String α) :=
  match value.front with
  | .object fields => do
    let t ← Table.readEntries ofJson ∅ fields
    value.close
    return t
  | other => .error other.mismatch

/-! ## Graphs -/

namespace SymbolGraph

/-- The graph as a JSON value. -/
def toJson (g : SymbolGraph) : Json :=
  .object [("units", .array (g.units.map CompilationUnit.toJson)),
    ("classes", g.classes.toJson (Entry.toJson ClassDeclaration.toFields)),
    ("functions", g.functions.toJson (Entry.toJson FunctionDeclaration.toFields)),
    ("value_parameters",
      g.valueParameters.toJson (Entry.toJson ValueParameterDeclaration.toFields)),
    ("type_parameters",
      g.typeParameters.toJson (Entry.toJson TypeParameterDeclaration.toFields))]

/-- The fields of a graph; all may be left out. -/
def knownFields : List (Json.Field SymbolGraph) :=
  [.of "units" false (Json.asList CompilationUnit.ofJson) fun v g => { g with units := v },
    .of "classes" false (Table.ofJson (Entry.ofJson (ClassDeclaration.ofJson true)))
      fun v g => { g with classes := v },
    .of "functions" false (Table.ofJson (Entry.ofJson (FunctionDeclaration.ofJson true)))
      fun v g => { g with functions := v },
    .of "value_parameters" false
      (Table.ofJson (Entry.ofJson (ValueParameterDeclaration.ofJson true)))
      fun v g => { g with valueParameters := v },
    .of "type_parameters" false
      (Table.ofJson (Entry.ofJson (TypeParameterDeclaration.ofJson true)))
      fun v g => { g with typeParameters := v }]

/-- Reads a graph from a JSON value. -/
def ofJson : Json → Except Json.Fault SymbolGraph := Json.asRecord false knownFields ∅

/-- The text of a graph. -/
def toText (g : SymbolGraph) : String := g.toJson.pretty

/-- Reads a graph from its text and leaves its references unchecked. -/
def read (text : String) : Except Json.Fault SymbolGraph := Json.read ofJson text

/-- Loads a graph from its text, which must list nothing that it does not declare. -/
def load (text : String) : Except LoadFault SymbolGraph :=
  match read text with
  | .error fault => .error (.malformed fault)
  | .ok g =>
    match g.firstUndeclared? with
    | some s => .error (.undeclared s)
    | none => .ok g

end SymbolGraph

end BeanProcessing

import BeanProcessing.AnnotationSet
import BeanProcessing.Json.Fields

/-!
# Annotation sets in JSON

An annotation set is an object with two lists of names. They are written in order and read in any.
-/

namespace BeanProcessing

/-- The names as a JSON value, in order. -/
def NameSet.toJson (s : NameSet) : Json := .array (s.toList.map .string)

/-- Reads a set of names; a name may be repeated. -/
def NameSet.ofJson (value : Json) : Except Json.Fault NameSet :=
  NameSet.ofList <$> value.asList Json.asString

/-- The annotation set as a JSON value. -/
def AnnotationSet.toJson (s : AnnotationSet) : Json :=
  .object [("declared", s.declared.toJson), ("stereotypes", s.stereotypes.toJson)]

/-- The fields of an annotation set. -/
def AnnotationSet.knownFields : List (Json.Field AnnotationSet) :=
  [.of "declared" false NameSet.ofJson fun names s => { s with declared := names },
    .of "stereotypes" false NameSet.ofJson fun names s => { s with stereotypes := names }]

/-- Reads an annotation set. -/
def AnnotationSet.ofJson : Json → Except Json.Fault AnnotationSet :=
  Json.asRecord false knownFields ∅

end BeanProcessing

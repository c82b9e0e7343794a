import BeanProcessing.Text.Dotted

/-!
# Source languages

The language of a source file is read off its extension. It matters for one question: whether a
class nested in another is static unless it says otherwise.
-/

namespace BeanProcessing

/-- The languages that a compilation unit can be written in. -/
inductive Language where
  | java
  | kotlin
  | groovy
  | unknown
deriving DecidableEq, Repr

namespace Language

/-- The name of the language in lower case. -/
def name : Language → String
  | java => "java"
  | kotlin => "kotlin"
  | groovy => "groovy"
  | unknown => "unknown"

instance : ToString Language := ⟨name⟩

/-- The language with a given file extension; case does not matter. -/
def ofExtension? (text : String) : Option Language :=
  match text.map Char.toLower with
  | "java" => some java
  | "kt" => some kotlin
  | "kts" => some kotlin
  | "groovy" => some groovy
  | _ => none

/-- The language of the file at a path. -/
def ofPath (path : String) : Language :=
  ((Dotted.extension? path).bind ofExtension?).getD unknown

/-- Whether a class nested in another is static in this language when no modifier says so. -/
def nestedClassesAreStatic : Language → Bool
  | kotlin => true
  | unknown => true
  | java => false
  | groovy => false

end Language

end BeanProcessing

/-!
# Dotted names

Qualified names and file names are read from their last dot on. `lastSegment` is what follows it,
or the whole name when it has none; `extension?` is what follows it, and only when there is one.
-/

namespace BeanProcessing.Dotted

/-- The part of a name after its last dot, or the whole name when it has no dot. -/
def lastSegment (name : String) : String :=
  String.ofList (name.toList.reverse.takeWhile (· != '.')).reverse

/-- The part of a name after its last dot, when it has one. -/
def extension? (name : String) : Option String :=
  if '.' ∈ name.toList then some (lastSegment name) else none

end BeanProcessing.Dotted

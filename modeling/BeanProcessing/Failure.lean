import BeanProcessing.Symbol

/-!
# Failures

Why a declaration could not be processed. Most causes arise while types are resolved; visitors and
sinks, which are written by others, may report whatever they like in words of their own.
-/

namespace BeanProcessing

/-- Why something could not be done. -/
inductive Failure where
  /-- A parameter has no name. -/
  | missingIdentifier (symbol : Symbol)
  /-- The symbols around `resolving` run in a circle that closes at `repeated`. -/
  | cyclicContext (repeated resolving : Symbol)
  /-- Resolution went wrong in some other way. -/
  | resolution (detail : String)
  /-- The symbol is not declared. -/
  | unknownSymbol (symbol : Symbol)
  /-- A visitor reported an error for the declaration. -/
  | rejected (detail : String)
  /-- A definition that has ended was changed. -/
  | frozen (beanType : String)
  /-- A sink did not take what it was given. -/
  | sink (detail : String)
  /-- Settings do not fit together. -/
  | settings (detail : String)
  /-- The host of the graph failed. -/
  | host (detail : String)
  /-- Something could not be read or written. -/
  | io (detail : String)
  /-- Something is not the JSON that it should be. -/
  | json (detail : String)
deriving DecidableEq

namespace Failure

/-- The message of a failure. -/
def message : Failure → String
  | missingIdentifier s => "missing identifier for " ++ toString s
  | cyclicContext repeated resolving =>
    "internal resolution error: cyclic declaring context at " ++ toString repeated
      ++ " while resolving " ++ toString resolving
  | resolution detail => "internal resolution error: " ++ detail
  | unknownSymbol s => "unknown symbol: " ++ toString s
  | rejected detail => "declaration rejected: " ++ detail
  | frozen beanType => "artifact for " ++ beanType ++ " is already finalized"
  | sink detail => "output sink error: " ++ detail
  | settings detail => "configuration error: " ++ detail
  | host detail => "host error: " ++ detail
  | io detail => "I/O error: " ++ detail
  | json detail => "JSON serialization/deserialization error: " ++ detail

instance : ToString Failure := ⟨message⟩

/-- Whether a visitor rejected the declaration. -/
def isRejection : Failure → Bool
  | rejected _ => true
  | _ => false

end Failure

/-- A declaration that could not be processed, and why. -/
structure DeclarationFailure where
  declaration : Symbol
  failure : Failure
deriving DecidableEq

/-- The declaration, then the message. -/
instance : ToString DeclarationFailure where
  toString f := toString f.declaration ++ ": " ++ f.failure.message

end BeanProcessing

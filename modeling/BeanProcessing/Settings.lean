import BeanProcessing.Text.Blank
import BeanProcessing.Text.Dotted

/-!
# Settings

Every annotation that processing reacts to can be chosen, so that it can serve another framework
than the one it serves by default.
-/

namespace BeanProcessing

/-- The choices that processing depends on. -/
structure Settings where
  /-- The name of the type at the top of every hierarchy. -/
  topType : String := "java.lang.Object"
  /-- The annotation of generated code, which is left alone. -/
  generatedMarker : String := "Generated"
  introductionStereotype : String := "io.micronaut.aop.Introduction"
  configurationReaderStereotype : String := "io.micronaut.context.annotation.ConfigurationReader"
  contextScopeMarker : String := "io.micronaut.context.annotation.Context"
  injectMarker : String := "jakarta.inject.Inject"
  executableStereotype : String := "io.micronaut.context.annotation.Executable"
  beanStereotypes : List String :=
    ["io.micronaut.context.annotation.Bean", "jakarta.inject.Scope", "jakarta.inject.Singleton"]
  /-- Whether the first failure ends a round. -/
  failFast : Bool := false
deriving DecidableEq

namespace Settings

/-- The names of the settings that must not be blank, with what a choice says for them. -/
def mandatory (s : Settings) : List (String × String) :=
  [("top_type", s.topType),
    ("generated_marker", s.generatedMarker),
    ("introduction_stereotype", s.introductionStereotype),
    ("configuration_reader_stereotype", s.configurationReaderStereotype),
    ("context_scope_annotation", s.contextScopeMarker)]

/-- The first setting that is blank and must not be. -/
def firstBlank? (s : Settings) : Option String :=
  (s.mandatory.find? (Blank.isBlank ·.2)).map (·.1)

/-- Whether an annotation with a simple name marks generated code. -/
def marksGenerated (s : Settings) (simpleName : String) : Bool :=
  simpleName == s.generatedMarker || Dotted.lastSegment s.generatedMarker == simpleName

end Settings

end BeanProcessing

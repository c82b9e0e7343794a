import BeanProcessing.BeanDefinition.Visitor
import BeanProcessing.Proofs.Key.Readability
import BeanProcessing.Proofs.Resolver.Direct
import BeanProcessing.Session
import BeanProcessing.Settings.Json
import BeanProcessing.Sink.Failing
import BeanProcessing.Sink.Recording
import BeanProcessing.SymbolGraph.Edit.Json
import BeanProcessing.SymbolGraph.Json
import BeanProcessing.Proofs.Resolver.Agreement
import BeanProcessing.Proofs.Resolver.Canonical
import BeanProcessing.Proofs.Resolver.Transparency
import BeanProcessing.Proofs.Resolver.Transcript
import BeanProcessing.Proofs.Element.Equality
import BeanProcessing.Proofs.Element.Equivalence
import BeanProcessing.Proofs.Resolver.Substitution
import BeanProcessing.Proofs.Resolver.MemberTypes
import BeanProcessing.Proofs.Survey.Independence
import BeanProcessing.Proofs.Session.Conservation
import BeanProcessing.Proofs.Session.FailFast
import BeanProcessing.Proofs.Session.Finalization
import BeanProcessing.Proofs.Resolver.Hygiene
import BeanProcessing.Proofs.Json.Text
import BeanProcessing.Proofs.Json.Record
import BeanProcessing.Proofs.SymbolGraph.RoundTrip
import BeanProcessing.Proofs.Session.Projection
import BeanProcessing.Proofs.Session.Journal
import BeanProcessing.Proofs.Session.Accounting
import BeanProcessing.Proofs.Session.Reporting
import BeanProcessing.Proofs.Resolver.Closure
import BeanProcessing.Proofs.Resolver.Composition
import BeanProcessing.Proofs.Resolver.Stability
import BeanProcessing.Proofs.Resolver.Arguments
import BeanProcessing.Proofs.SymbolGraph.Building
import BeanProcessing.Proofs.SymbolGraph.Members
import BeanProcessing.Proofs.Resolver.Conversation
import BeanProcessing.Proofs.Resolver.PlaceholderNames
import BeanProcessing.Proofs.Resolver.DeclaringClass
import BeanProcessing.Proofs.Resolver.Skeleton
import BeanProcessing.Proofs.Resolver.Congruence
import BeanProcessing.Proofs.Resolver.Failures
import BeanProcessing.Proofs.SymbolGraph.Outward
import BeanProcessing.Proofs.Resolver.NearestClass
import BeanProcessing.Proofs.BeanDefinition.Visits
import BeanProcessing.Proofs.Resolver.Signatures
import BeanProcessing.Proofs.Resolver.Nesting

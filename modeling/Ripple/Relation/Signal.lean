import Ripple.Impact.Merge
import Ripple.Text.Basic

/-!
Signals: the properties of an impact that make it the start or the end of a propagation.
-/
namespace Ripple

inductive Signal where
  | graphqlTrigger
  | graphqlConsumer
  | sqs
  | sharedTypeTrigger
  | apiTrigger
  | apiConsumer
  | dependencyTrigger
  | always
  deriving DecidableEq, Repr

namespace Signal

def all : List Signal :=
  [.graphqlTrigger, .graphqlConsumer, .sqs, .sharedTypeTrigger, .apiTrigger, .apiConsumer,
    .dependencyTrigger, .always]

/-- Whether a file is a GraphQL document by its name. -/
def isGraphqlFile (file : String) : Bool := Text.endsWithAny file [".graphql", ".gql"]

def holds (s : Signal) (i : Impact) : Bool :=
  match s with
  | .graphqlTrigger =>
    i.hasReason .schema || isGraphqlFile i.file || Text.hasAny i.component ["Query", "Mutation"]
  | .graphqlConsumer =>
    isGraphqlFile i.file || Text.hasAny i.file ["query", "mutation", "apollo", "graphql"]
  | .sqs =>
    Text.has i.component "SQS" || i.reasons.any fun r => Text.has (Text.lower r.description) "sqs"
  | .sharedTypeTrigger =>
    Text.hasAny i.file ["types", "interfaces", "models"] ||
      Text.hasAny i.component ["Type", "Interface", "Struct"]
  | .apiTrigger =>
    Text.hasAny i.component ["API", "Handler", "Controller", "Endpoint"] ||
      Text.hasAny i.file ["controller", "handler", "routes"]
  | .apiConsumer =>
    Text.hasAny i.file ["service", "api", "http", "fetch"] || Text.has i.component "Service"
  | .dependencyTrigger =>
    i.hasReason .dependency || Text.has i.file "package.json" || Text.endsWith i.file "go.mod"
  | .always => true

end Signal

end Ripple

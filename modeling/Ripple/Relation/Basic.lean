import Ripple.Gathering

/-!
Relations between repositories, and the records that say which components of one repository are
affected by a component of another.
-/
namespace Ripple

/-- How a change propagates from one repository to another. -/
inductive RelationKind where
  | graphqlSchema
  | sqs
  | sharedTypes
  | apiCall
  | npmPackage
  deriving DecidableEq, Repr

namespace RelationKind

def text : RelationKind → String
  | .graphqlSchema => "graphql-schema"
  | .sqs => "sqs"
  | .sharedTypes => "shared-types"
  | .apiCall => "api-call"
  | .npmPackage => "npm-package"

def all : List RelationKind := [.graphqlSchema, .sqs, .sharedTypes, .apiCall, .npmPackage]

end RelationKind

/-- A declared edge from one repository to another. -/
structure Relation where
  source : String
  target : String
  via : RelationKind
  /-- Globs of files in the target that count as affected whatever they are. -/
  patterns : Option (List String)
  deriving DecidableEq, Repr

/-- A component of one repository, and the components of another that it may affect. -/
structure Record where
  sourceRepo : String
  sourceComponent : String
  targetRepo : String
  targets : List String
  relation : RelationKind
  deriving DecidableEq, Repr

namespace Record

def key (r : Record) : String × String × String × RelationKind :=
  (r.sourceRepo, r.sourceComponent, r.targetRepo, r.relation)

def ofTargets (sourceRepo sourceComponent targetRepo : String) (targets : List String)
    (relation : RelationKind) : Record :=
  { sourceRepo, sourceComponent, targetRepo, targets := distinct targets, relation }

/-- Records are told apart by their key; their targets are distinct texts. -/
def gathering : Gathering Record String (String × String × String × RelationKind) String where
  key := key
  parts := targets
  withParts r targets := { r with targets }
  partKey := id

/-- One record for each key, in the order of their first occurrence, with all targets of the key. -/
def unite (records : List Record) : List Record := gathering.gather records

end Record

end Ripple

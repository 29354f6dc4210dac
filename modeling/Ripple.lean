import Ripple.Main
import Ripple.Git.Session
import Ripple.Git.Snapshot
import Ripple.Proofs.Gathering
import Ripple.Proofs.Glob
import Ripple.Proofs.Outcome
import Ripple.Proofs.Matching
import Ripple.Proofs.Correlation
import Ripple.Proofs.Accounting
import Ripple.Proofs.SchemaChanges
import Ripple.Proofs.SchemaReport
import Ripple.Proofs.Lookup
import Ripple.Proofs.Setup
import Ripple.Proofs.Confinement
import Ripple.Proofs.Integrity
import Ripple.Proofs.SchemaPropagation
import Ripple.Proofs.Entries
import Ripple.Proofs.Reading
import Ripple.Proofs.Checking
import Ripple.Proofs.Loading
import Ripple.Proofs.Checked
import Ripple.Proofs.Paths
import Ripple.Proofs.Loaded
import Ripple.Proofs.Validating
import Ripple.Proofs.Incremental
import Ripple.Proofs.Merging
import Ripple.Proofs.Rearrangement
import Ripple.Proofs.Provenance
import Ripple.Proofs.ModifiedClasses
import Ripple.Proofs.JsonScalars
import Ripple.Proofs.JsonRoundTrip
import Ripple.Proofs.Instants
import Ripple.Proofs.ResultRoundTrip
import Ripple.Proofs.ReaderNames
import Ripple.Proofs.SchemaNames
import Ripple.Proofs.Descriptions
import Ripple.Proofs.ChangedParts
import Ripple.Proofs.SchemaComparison
import Ripple.Proofs.SchemaDuality
import Ripple.Proofs.ReportedPaths
import Ripple.Proofs.Positions
import Ripple.Proofs.DefinitionOrder
import Ripple.Proofs.SchemaOrder
import Ripple.Proofs.KeyedUnion
import Ripple.Proofs.Portions
import Ripple.Proofs.GlobLanguage
import Ripple.Proofs.PatternFaults
import Ripple.Proofs.ChangedDocuments
import Ripple.Proofs.TokenPlaces
import Ripple.Proofs.OperationHeads
import Ripple.Proofs.RegexSearch
import Ripple.Proofs.OperationSearch
import Ripple.Proofs.ClientOperations
import Ripple.Proofs.SchemaReasons
import Ripple.Proofs.RegexOccurrence
import Ripple.Proofs.HandlerNames
import Ripple.Proofs.GoFindings
import Ripple.Proofs.FileDifferences
import Ripple.Proofs.ChangeSets
import Ripple.Proofs.TemplateOwners
import Ripple.Proofs.ListedNames
import Ripple.Proofs.GitQuestions
import Ripple.Proofs.ReadableReport
import Ripple.Proofs.ReportFiles
import Ripple.Proofs.LiteralPaths
import Ripple.Proofs.RelativeLocations
import Ripple.Proofs.GlobTranslation
import Ripple.Proofs.SchemaAdditions
import Ripple.Proofs.TreeSearch

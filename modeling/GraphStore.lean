import GraphStore.Conformance.Suite
import GraphStore.Persist.Scenario
import GraphStore.Persist.Script
import GraphStore.Proofs.Persist.Closing
import GraphStore.Proofs.Persist.Failure
import GraphStore.Proofs.Persist.Frame
import GraphStore.Proofs.Persist.GeneratedKeys
import GraphStore.Proofs.Persist.Identities
import GraphStore.Proofs.Persist.JoinedRows
import GraphStore.Proofs.Persist.LinkedRows
import GraphStore.Proofs.Persist.Reconciling
import GraphStore.Proofs.Persist.RequiredReferences
import GraphStore.Proofs.Persist.SavingBack
import GraphStore.Proofs.Persist.Selection
import GraphStore.Proofs.Persist.SingleReferences
import GraphStore.Proofs.Persist.Transactions
import GraphStore.Proofs.Persist.UnmatchedRows
import GraphStore.Proofs.Predicate.Builders
import GraphStore.Proofs.Predicate.TextMethods
import GraphStore.Proofs.Sqlite.StoredValues
import GraphStore.Proofs.Sqlite.Transactions
import GraphStore.Proofs.Statement.Agreement
import GraphStore.Proofs.Statement.Aliases
import GraphStore.Proofs.Statement.ColumnNames
import GraphStore.Proofs.Statement.Deletion
import GraphStore.Proofs.Statement.Dialects
import GraphStore.Proofs.Statement.Layout
import GraphStore.Proofs.Statement.NamedPlaceholders
import GraphStore.Proofs.Statement.Orphans
import GraphStore.Proofs.Statement.Placeholders
import GraphStore.Proofs.Statement.RelationPaths
import GraphStore.Proofs.Statement.Structure
import GraphStore.Proofs.Text.Separators
import GraphStore.Proofs.Text.Truncation
import GraphStore.Record.NumberedSupply
import GraphStore.Sample.Catalog
import GraphStore.Sqlite.Connection

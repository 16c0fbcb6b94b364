import RowMapper.Calendar.Date
import RowMapper.Calendar.Pattern
import RowMapper.Calendar.Rfc3339
import RowMapper.Calendar.Time
import RowMapper.Condition.Basic
import RowMapper.Condition.Reader
import RowMapper.Condition.Tagged
import RowMapper.Config.Basic
import RowMapper.Config.Document
import RowMapper.Config.Variables
import RowMapper.Connection.Driver
import RowMapper.Connection.ScriptReader
import RowMapper.Connection.Scripted
import RowMapper.Connection.Statistics
import RowMapper.Decimal.Binary
import RowMapper.Decimal.Reader
import RowMapper.Decimal.Shortest
import RowMapper.Dialect
import RowMapper.Entries
import RowMapper.Error
import RowMapper.Event.Basic
import RowMapper.Event.Observer
import RowMapper.Event.ObserverReader
import RowMapper.Json.Access
import RowMapper.Json.Basic
import RowMapper.Json.Printer
import RowMapper.Json.Reader
import RowMapper.Naming.Basic
import RowMapper.Naming.Irregular
import RowMapper.Naming.Singular
import RowMapper.Proofs.Alias.Cuts
import RowMapper.Proofs.Alias.Occurrence
import RowMapper.Proofs.Calendar.WrittenItems
import RowMapper.Proofs.Condition.Comparisons
import RowMapper.Proofs.Condition.Formula
import RowMapper.Proofs.Condition.GroupShapes
import RowMapper.Proofs.Condition.Grouping
import RowMapper.Proofs.Condition.Parts
import RowMapper.Proofs.Condition.RoundTrip
import RowMapper.Proofs.Config.VariableOrder
import RowMapper.Proofs.Config.WrittenUrls
import RowMapper.Proofs.Decimal.Integers
import RowMapper.Proofs.Decimal.Shapes
import RowMapper.Proofs.Decimal.WholeNumbers
import RowMapper.Proofs.Outcome
import RowMapper.Proofs.Parameter.Filing
import RowMapper.Proofs.Parameter.Fragments
import RowMapper.Proofs.Parameter.Frames
import RowMapper.Proofs.Parameter.FreshNames
import RowMapper.Proofs.Parameter.Names
import RowMapper.Proofs.Parameter.Threads
import RowMapper.Proofs.Placeholder.Inlined
import RowMapper.Proofs.Placeholder.Outline
import RowMapper.Proofs.Placeholder.Positional
import RowMapper.Proofs.Placeholder.Predicates
import RowMapper.Proofs.Placeholder.Queries
import RowMapper.Proofs.Placeholder.Reads
import RowMapper.Proofs.Placeholder.Scanners
import RowMapper.Proofs.Placeholder.Texts
import RowMapper.Proofs.Placeholder.Token
import RowMapper.Proofs.Placeholder.Writes
import RowMapper.Proofs.Query.Calls
import RowMapper.Proofs.Query.ListedEntries
import RowMapper.Proofs.Query.RelationJoins
import RowMapper.Proofs.Quoting.ListedValues
import RowMapper.Proofs.Quoting.Literals
import RowMapper.Proofs.Quoting.Names
import RowMapper.Proofs.Quoting.Reader
import RowMapper.Proofs.Record.Changes
import RowMapper.Proofs.Record.Denials
import RowMapper.Proofs.Record.Effects
import RowMapper.Proofs.Record.Identities
import RowMapper.Proofs.Record.IntegerChanges
import RowMapper.Proofs.Record.KeySpelling
import RowMapper.Proofs.Record.Marks
import RowMapper.Proofs.Record.Reassignments
import RowMapper.Proofs.Record.Requirements
import RowMapper.Proofs.Record.Tracking
import RowMapper.Proofs.Record.ValueStores
import RowMapper.Proofs.Record.Writes
import RowMapper.Proofs.Relation.JunctionLayout
import RowMapper.Proofs.Relation.LinkChanges
import RowMapper.Proofs.Relation.LinkDifference
import RowMapper.Proofs.Render.ClauseParts
import RowMapper.Proofs.Render.Clauses
import RowMapper.Proofs.Render.HandedOut
import RowMapper.Proofs.Render.Redaction
import RowMapper.Proofs.Render.Runs
import RowMapper.Proofs.Run
import RowMapper.Proofs.Schema.Declarations
import RowMapper.Proofs.Schema.DeclaredSizes
import RowMapper.Proofs.Schema.DonorFields
import RowMapper.Proofs.Schema.Overlays
import RowMapper.Proofs.Schema.OwnNames
import RowMapper.Proofs.Schema.Registrations
import RowMapper.Proofs.Session.BrokenQueries
import RowMapper.Proofs.Session.CopiedRows
import RowMapper.Proofs.Session.CurrentCopies
import RowMapper.Proofs.Session.Cycle
import RowMapper.Proofs.Session.Deletion
import RowMapper.Proofs.Session.FirstSave
import RowMapper.Proofs.Session.Hooks
import RowMapper.Proofs.Session.Inserts
import RowMapper.Proofs.Session.KeyedTables
import RowMapper.Proofs.Session.Layouts
import RowMapper.Proofs.Session.LinkRoutes
import RowMapper.Proofs.Session.Linking
import RowMapper.Proofs.Session.Loads
import RowMapper.Proofs.Session.Lookups
import RowMapper.Proofs.Session.Messages
import RowMapper.Proofs.Session.MissingTables
import RowMapper.Proofs.Session.OpenConnections
import RowMapper.Proofs.Session.OutdatedCopies
import RowMapper.Proofs.Session.OwnerCache
import RowMapper.Proofs.Session.PendingLinks
import RowMapper.Proofs.Session.Refusals
import RowMapper.Proofs.Session.RepeatedSaves
import RowMapper.Proofs.Session.RequiredColumns
import RowMapper.Proofs.Session.ResolvedRelations
import RowMapper.Proofs.Session.Rosters
import RowMapper.Proofs.Session.RowUpdates
import RowMapper.Proofs.Session.Runs
import RowMapper.Proofs.Session.Verbs
import RowMapper.Proofs.Session.VoidedRecords
import RowMapper.Proofs.Session.Walks
import RowMapper.Proofs.Statement.Aggregates
import RowMapper.Proofs.Statement.Alignment
import RowMapper.Proofs.Statement.Assignments
import RowMapper.Proofs.Statement.BareNames
import RowMapper.Proofs.Statement.Binding
import RowMapper.Proofs.Statement.Conditions
import RowMapper.Proofs.Statement.FragmentValues
import RowMapper.Proofs.Statement.InlinedValues
import RowMapper.Proofs.Statement.Inserts
import RowMapper.Proofs.Statement.KeyValues
import RowMapper.Proofs.Statement.Links
import RowMapper.Proofs.Statement.PredicateKeywords
import RowMapper.Proofs.Statement.Selections
import RowMapper.Proofs.Statement.Tuples
import RowMapper.Proofs.Statement.Updates
import RowMapper.Proofs.Statement.Verbs
import RowMapper.Proofs.Statement.Windows
import RowMapper.Proofs.Text.Lowering
import RowMapper.Proofs.Text.Pieces
import RowMapper.Proofs.Url.Addresses
import RowMapper.Proofs.Url.Authorities
import RowMapper.Proofs.Url.Encoding
import RowMapper.Proofs.Url.Paths
import RowMapper.Proofs.Value.CanonicalForms
import RowMapper.Proofs.Value.KeptValues
import RowMapper.Proofs.Value.NumberTexts
import RowMapper.Proofs.Value.WrittenIntegers
import RowMapper.Proofs.Value.WrittenMoments
import RowMapper.Query.Aggregate
import RowMapper.Query.Basic
import RowMapper.Query.Build
import RowMapper.Record.Basic
import RowMapper.Record.Edit
import RowMapper.Record.Identity
import RowMapper.Record.Tagged
import RowMapper.Relation.Basic
import RowMapper.Relation.Junction
import RowMapper.Schema.Basic
import RowMapper.Schema.Reader
import RowMapper.Schema.Registry
import RowMapper.Schema.SqlType
import RowMapper.Session.Basic
import RowMapper.Session.Find
import RowMapper.Session.Focus
import RowMapper.Session.Links
import RowMapper.Session.Save
import RowMapper.Session.Select
import RowMapper.Session.Tables
import RowMapper.Sql.Identifier
import RowMapper.Sql.Inline
import RowMapper.Sql.Literal
import RowMapper.Sql.Parameters
import RowMapper.Sql.Placeholder
import RowMapper.Sql.Predicate
import RowMapper.Sql.Statement
import RowMapper.Sql.Write
import RowMapper.Text.Blank
import RowMapper.Text.Case
import RowMapper.Text.CaseTable
import RowMapper.Text.Hex
import RowMapper.Text.Pattern
import RowMapper.Text.Pieces
import RowMapper.Text.Quoted
import RowMapper.Text.Word
import RowMapper.Text.WordTable
import RowMapper.Url.Basic
import RowMapper.Url.Ipv6
import RowMapper.Url.Percent
import RowMapper.Uuid
import RowMapper.Value.Basic
import RowMapper.Value.Coercion
import RowMapper.Value.Tagged

import CatalogSync.Main
import CatalogSync.Registry.Draft
import CatalogSync.Schema.Draft
import CatalogSync.Sync.Unchecked
import CatalogSync.Proofs.Catalog.Key
import CatalogSync.Proofs.Catalog.PlainName
import CatalogSync.Proofs.Catalog.Table
import CatalogSync.Proofs.Catalog.TypeRule
import CatalogSync.Proofs.Cli.Answered
import CatalogSync.Proofs.Cli.Coded
import CatalogSync.Proofs.Cli.Ends
import CatalogSync.Proofs.Cli.Exit
import CatalogSync.Proofs.Cli.History
import CatalogSync.Proofs.Cli.Perform
import CatalogSync.Proofs.Cli.SyncAll
import CatalogSync.Proofs.Database.Session
import CatalogSync.Proofs.Database.Survey
import CatalogSync.Proofs.Files.Breaks
import CatalogSync.Proofs.Files.Tree
import CatalogSync.Proofs.Json.Written
import CatalogSync.Proofs.Json.RoundTrip
import CatalogSync.Proofs.Output.Binding
import CatalogSync.Proofs.Output.Caches
import CatalogSync.Proofs.Registry.Basic
import CatalogSync.Proofs.Registry.History
import CatalogSync.Proofs.Record.Unchecked
import CatalogSync.Proofs.Registry.Orderly
import CatalogSync.Proofs.Registry.Unchecked
import CatalogSync.Proofs.Schema.AttributeText
import CatalogSync.Proofs.Schema.Build
import CatalogSync.Proofs.Schema.BuiltRoundTrip
import CatalogSync.Proofs.Schema.Faults
import CatalogSync.Proofs.Schema.FieldLine
import CatalogSync.Proofs.Schema.ParsedText
import CatalogSync.Proofs.Schema.Draft
import CatalogSync.Proofs.Schema.Stable
import CatalogSync.Proofs.Schema.StableModel
import CatalogSync.Proofs.Settings.Explained
import CatalogSync.Proofs.Sync.Independent
import CatalogSync.Proofs.Sync.Printed
import CatalogSync.Proofs.Sync.Reports
import CatalogSync.Proofs.Registry.Aftermath
import CatalogSync.Proofs.Schema.BuiltFields
import CatalogSync.Proofs.Schema.FieldNames
import CatalogSync.Proofs.Schema.PrimaryKey
import CatalogSync.Proofs.Text.Loose
import CatalogSync.Proofs.Text.Pieces
import CatalogSync.Proofs.Schema.KeyNames
import CatalogSync.Proofs.Text.Respaced
import CatalogSync.Proofs.Schema.Interleaved
import CatalogSync.Proofs.Schema.DroppedLine
import CatalogSync.Proofs.Schema.BlockOrder
import CatalogSync.Proofs.Schema.Columns
import CatalogSync.Proofs.Schema.Consistent
import CatalogSync.Proofs.Catalog.BasicType
import CatalogSync.Proofs.Catalog.CollectedKeys
import CatalogSync.Proofs.Database.Encoded
import CatalogSync.Proofs.Schema.Issues
import CatalogSync.Proofs.Schema.Unchecked
import CatalogSync.Proofs.Database.Identifier
import CatalogSync.Proofs.Registry.Formats
import CatalogSync.Proofs.Schema.BuiltIssues

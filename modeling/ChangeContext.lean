import ChangeContext.Assembly.Basic
import ChangeContext.Assembly.Common
import ChangeContext.Assembly.Project
import ChangeContext.Assembly.Ranking
import ChangeContext.Assembly.Similar
import ChangeContext.Bundle.Basic
import ChangeContext.Bundle.Codec
import ChangeContext.Bundle.Load
import ChangeContext.Cache.Basic
import ChangeContext.Cache.Key
import ChangeContext.Cache.Snapshot
import ChangeContext.CommandLine.Invocation
import ChangeContext.CommandLine.Level
import ChangeContext.CommandLine.Message
import ChangeContext.Decimal
import ChangeContext.Diff.Analysis
import ChangeContext.Diff.Counts
import ChangeContext.Diff.Encoding
import ChangeContext.Diff.Hunk
import ChangeContext.Diff.Overlay
import ChangeContext.Digest
import ChangeContext.Engine
import ChangeContext.Failure
import ChangeContext.FileTree.Basic
import ChangeContext.FileTree.Edit
import ChangeContext.FileTree.Walk
import ChangeContext.Instant.Basic
import ChangeContext.Instant.Calendar
import ChangeContext.Instant.Clock
import ChangeContext.Instant.Text
import ChangeContext.Inventory
import ChangeContext.Json.Basic
import ChangeContext.Json.Decode
import ChangeContext.Json.Reader
import ChangeContext.Json.Writer
import ChangeContext.Language
import ChangeContext.Main
import ChangeContext.Mention.Basic
import ChangeContext.Mention.Candidate
import ChangeContext.Mention.Nearest
import ChangeContext.NameMap
import ChangeContext.Outline.Basic
import ChangeContext.Outline.Heuristic
import ChangeContext.Outline.Structural
import ChangeContext.Outline.Tier
import ChangeContext.Path.Basic
import ChangeContext.Path.Normalize
import ChangeContext.Path.Order
import ChangeContext.Pattern.Basic
import ChangeContext.Pattern.Search
import ChangeContext.Profile
import ChangeContext.Proofs.Assembly.Freshness
import ChangeContext.Proofs.Assembly.Limits
import ChangeContext.Proofs.Assembly.Listing
import ChangeContext.Proofs.Assembly.Permutation
import ChangeContext.Proofs.Assembly.Ranking
import ChangeContext.Proofs.Assembly.Related
import ChangeContext.Proofs.Assembly.Requests
import ChangeContext.Proofs.Assembly.Similar
import ChangeContext.Proofs.Assembly.Transparency
import ChangeContext.Proofs.Bundle.Codec
import ChangeContext.Proofs.Bundle.Shape
import ChangeContext.Proofs.Cache.Bookkeeping
import ChangeContext.Proofs.Cache.CleanUp
import ChangeContext.Proofs.Cache.Eviction
import ChangeContext.Proofs.Cache.FileSets
import ChangeContext.Proofs.Cache.FileState
import ChangeContext.Proofs.Cache.History
import ChangeContext.Proofs.Cache.Import
import ChangeContext.Proofs.Cache.Keying
import ChangeContext.Proofs.Cache.Overfull
import ChangeContext.Proofs.Cache.Recency
import ChangeContext.Proofs.Cache.Run
import ChangeContext.Proofs.Cache.Snapshot
import ChangeContext.Proofs.Cache.Transfer
import ChangeContext.Proofs.Diff.Cursors
import ChangeContext.Proofs.Diff.Delta
import ChangeContext.Proofs.Diff.Division
import ChangeContext.Proofs.Diff.Mirror
import ChangeContext.Proofs.Diff.Numbering
import ChangeContext.Proofs.Diff.Patch
import ChangeContext.Proofs.Diff.Report
import ChangeContext.Proofs.Diff.Signature
import ChangeContext.Proofs.Diff.Stretch
import ChangeContext.Proofs.Diff.Totals
import ChangeContext.Proofs.Engine.Limits
import ChangeContext.Proofs.Engine.Restart
import ChangeContext.Proofs.Engine.Snapshot
import ChangeContext.Proofs.Enumeration
import ChangeContext.Proofs.FileTree.Edit
import ChangeContext.Proofs.FileTree.Entry
import ChangeContext.Proofs.FileTree.Trail
import ChangeContext.Proofs.FileTree.Walk
import ChangeContext.Proofs.Instant.Calendar
import ChangeContext.Proofs.Instant.Text
import ChangeContext.Proofs.Inventory
import ChangeContext.Proofs.Inventory.Worklist
import ChangeContext.Proofs.Json.RoundTrip
import ChangeContext.Proofs.Json.Shape
import ChangeContext.Proofs.Json.Token
import ChangeContext.Proofs.Loop
import ChangeContext.Proofs.Mention.Candidate
import ChangeContext.Proofs.Mention.Existence
import ChangeContext.Proofs.Mention.Extraction
import ChangeContext.Proofs.Mention.Queue
import ChangeContext.Proofs.Mention.Quoted
import ChangeContext.Proofs.Mention.Resolution
import ChangeContext.Proofs.Mention.Shape
import ChangeContext.Proofs.Outline.Agreement
import ChangeContext.Proofs.Outline.AnonymousValues
import ChangeContext.Proofs.Outline.Contribution
import ChangeContext.Proofs.Outline.Declarations
import ChangeContext.Proofs.Outline.DefaultExports
import ChangeContext.Proofs.Outline.DefaultReadings
import ChangeContext.Proofs.Outline.Description
import ChangeContext.Proofs.Outline.ExportDeclarations
import ChangeContext.Proofs.Outline.ExportItems
import ChangeContext.Proofs.Outline.ExportLists
import ChangeContext.Proofs.Outline.Expressions
import ChangeContext.Proofs.Outline.FunctionDeclarations
import ChangeContext.Proofs.Outline.FunctionVariables
import ChangeContext.Proofs.Outline.ImportPatterns
import ChangeContext.Proofs.Outline.ItemLists
import ChangeContext.Proofs.Outline.Layout
import ChangeContext.Proofs.Outline.Parameters
import ChangeContext.Proofs.Outline.PatternParts
import ChangeContext.Proofs.Outline.Preorder
import ChangeContext.Proofs.Outline.Readings
import ChangeContext.Proofs.Outline.Signature
import ChangeContext.Proofs.Outline.Statement
import ChangeContext.Proofs.Outline.Values
import ChangeContext.Proofs.Outline.Walk
import ChangeContext.Proofs.Outline.Writing
import ChangeContext.Proofs.Path.Canonical
import ChangeContext.Proofs.Path.Normalize
import ChangeContext.Proofs.Path.Place
import ChangeContext.Proofs.Path.Spelling
import ChangeContext.Proofs.Pattern.Occurrences
import ChangeContext.Proofs.Pattern.Reach
import ChangeContext.Proofs.Pattern.Scan
import ChangeContext.Proofs.Pattern.Search
import ChangeContext.Proofs.Script.Construct
import ChangeContext.Proofs.Script.Lexeme
import ChangeContext.Proofs.Script.Name
import ChangeContext.Proofs.Script.Preorder
import ChangeContext.Proofs.Settings.RoundTrip
import ChangeContext.Proofs.Style.Indentation
import ChangeContext.Proofs.Style.Naming
import ChangeContext.Proofs.Style.Votes
import ChangeContext.Proofs.Text.ByteOrder
import ChangeContext.Proofs.Text.Lines
import ChangeContext.Proofs.Text.Trim
import ChangeContext.Proofs.Toml.Document
import ChangeContext.Proofs.Toml.Text
import ChangeContext.Proofs.Toml.Value
import ChangeContext.Report.Bundle
import ChangeContext.Report.Diff
import ChangeContext.Report.Mention
import ChangeContext.Script.Grammar
import ChangeContext.Script.Lexeme
import ChangeContext.Script.Tree
import ChangeContext.Settings.Basic
import ChangeContext.Settings.Document
import ChangeContext.Settings.Encoding
import ChangeContext.Style
import ChangeContext.Text.Alphanumeric
import ChangeContext.Text.Blank
import ChangeContext.Text.CharRange
import ChangeContext.Text.Lines
import ChangeContext.Text.LowerCase
import ChangeContext.Text.WordChar
import ChangeContext.Toml.Basic
import ChangeContext.Toml.Draft
import ChangeContext.Toml.Reader
import ChangeContext.Toml.Writer

import SqlInsight.Batch
import SqlInsight.Command.Arguments
import SqlInsight.Command.Run
import SqlInsight.Command.Usage
import SqlInsight.Completion.Candidate
import SqlInsight.Completion.Clause
import SqlInsight.Completion.Context
import SqlInsight.Completion.Display
import SqlInsight.Diagnostic
import SqlInsight.Diagnostic.Json
import SqlInsight.Engine
import SqlInsight.Files
import SqlInsight.Grammar.Dialect
import SqlInsight.Grammar.Escape
import SqlInsight.Grammar.Keyword
import SqlInsight.Grammar.Lexer
import SqlInsight.Grammar.Parser
import SqlInsight.Grammar.Parser.Alteration
import SqlInsight.Grammar.Parser.Basic
import SqlInsight.Grammar.Parser.Binding
import SqlInsight.Grammar.Parser.Call
import SqlInsight.Grammar.Parser.Change
import SqlInsight.Grammar.Parser.Table
import SqlInsight.Grammar.Parser.ColumnOption
import SqlInsight.Grammar.Parser.Constraint
import SqlInsight.Grammar.Parser.Control
import SqlInsight.Grammar.Parser.Definition
import SqlInsight.Grammar.Parser.Dispatch
import SqlInsight.Grammar.Parser.Expr
import SqlInsight.Grammar.Parser.Form
import SqlInsight.Grammar.Parser.Literal
import SqlInsight.Grammar.Parser.Query
import SqlInsight.Grammar.Parser.Relation
import SqlInsight.Grammar.Parser.Removal
import SqlInsight.Grammar.Parser.Role
import SqlInsight.Grammar.Parser.Routine
import SqlInsight.Grammar.Parser.RowPattern
import SqlInsight.Grammar.Parser.Select
import SqlInsight.Grammar.Parser.Transfer
import SqlInsight.Grammar.Parser.TypeName
import SqlInsight.Grammar.Parser.Upkeep
import SqlInsight.Grammar.Parser.Variable
import SqlInsight.Grammar.Shown
import SqlInsight.Grammar.Token
import SqlInsight.Grammar.Tree
import SqlInsight.Json
import SqlInsight.Json.Printer
import SqlInsight.Json.Reader
import SqlInsight.Json.Record
import SqlInsight.Keyed
import SqlInsight.Main
import SqlInsight.Name.Quoting
import SqlInsight.Name.Requoting
import SqlInsight.Outline
import SqlInsight.Outline.OfSyntax
import SqlInsight.Outline.Visit
import SqlInsight.Project
import SqlInsight.Proofs.Batch.Stretches
import SqlInsight.Proofs.Batch.Pieces
import SqlInsight.Proofs.Batch.SelfContained
import SqlInsight.Proofs.Completion.AliasColumns
import SqlInsight.Proofs.Completion.BeforeCursor
import SqlInsight.Proofs.Json.Record
import SqlInsight.Proofs.Name.Requoting
import SqlInsight.Proofs.Outline.Mentions
import SqlInsight.Proofs.Outline.Parentheses
import SqlInsight.Proofs.Outline.Uses
import SqlInsight.Proofs.Reading.Ladder
import SqlInsight.Proofs.References.Names
import SqlInsight.Proofs.References.Placeholder
import SqlInsight.Proofs.References.Scoping
import SqlInsight.Proofs.References.Walk
import SqlInsight.Proofs.References.Written
import SqlInsight.Proofs.Schema.Json
import SqlInsight.Proofs.Span.Cursor
import SqlInsight.Proofs.Span.Joined
import SqlInsight.Proofs.Span.MaskedLines
import SqlInsight.Proofs.Span.Partition
import SqlInsight.Proofs.Text.Bytes
import SqlInsight.Proofs.Text.CaseFold
import SqlInsight.Proofs.Text.Cut
import SqlInsight.Proofs.Text.Lexemes
import SqlInsight.Proofs.Text.Positions
import SqlInsight.Proofs.Text.Pattern
import SqlInsight.Proofs.Text.Scan
import SqlInsight.Proofs.Text.Search
import SqlInsight.Proofs.Toml.Written
import SqlInsight.Proofs.Toml.Document
import SqlInsight.Proofs.Toml.Number
import SqlInsight.Proofs.Toml.Quoted
import SqlInsight.Proofs.Toml.Tables
import SqlInsight.Proofs.Validation.Advice
import SqlInsight.Proofs.Validation.Filters
import SqlInsight.Proofs.Validation.Joined
import SqlInsight.Proofs.Validation.Lockstep
import SqlInsight.Proofs.Validation.MissingTables
import SqlInsight.Proofs.Validation.Places
import SqlInsight.Proofs.Validation.QueryColumns
import SqlInsight.Proofs.Validation.Sight
import SqlInsight.Reading
import SqlInsight.Reading.Standard
import SqlInsight.References
import SqlInsight.Report
import SqlInsight.Schema
import SqlInsight.Schema.Json
import SqlInsight.Session
import SqlInsight.Session.Event
import SqlInsight.Session.Handler
import SqlInsight.Session.Json
import SqlInsight.Session.Publication
import SqlInsight.Session.Workspace
import SqlInsight.Settings
import SqlInsight.Settings.Json
import SqlInsight.Settings.Toml
import SqlInsight.Span
import SqlInsight.Span.Locate
import SqlInsight.Spelling
import SqlInsight.Style
import SqlInsight.SyntaxError
import SqlInsight.Text.Basic
import SqlInsight.Text.CaseFold
import SqlInsight.Text.CharClass
import SqlInsight.Text.Digits
import SqlInsight.Text.Pattern
import SqlInsight.Text.Position
import SqlInsight.Text.Quoted
import SqlInsight.Text.Region
import SqlInsight.Text.Search
import SqlInsight.Text.Table.Word
import SqlInsight.Text.Table.Case
import SqlInsight.Text.Table.Printing
import SqlInsight.Toml
import SqlInsight.Toml.Document
import SqlInsight.Toml.Number
import SqlInsight.Toml.Printer
import SqlInsight.Toml.Quoted
import SqlInsight.Toml.Reader
import SqlInsight.Validation
import SqlInsight.Validation.Anchor
import SqlInsight.Validation.Checker
import SqlInsight.Validation.Names
import SqlInsight.Validation.Scope
import SqlInsight.Validation.Walk
import SqlInsight.Proofs.Span.Scanner
import SqlInsight.Proofs.Span.Restart
import SqlInsight.Proofs.Batch.Bounds
import SqlInsight.Proofs.Span.FixedPoint
import SqlInsight.Proofs.Span.Neighbour
import SqlInsight.Proofs.Session.Course
import SqlInsight.Proofs.Session.Settling
import SqlInsight.Proofs.Session.Interleaving
import SqlInsight.Proofs.Session.Loads
import SqlInsight.Proofs.Session.Reloading
import SqlInsight.Proofs.Settings.RoundTrip
import SqlInsight.Proofs.Text.MaskedBytes
import SqlInsight.Proofs.Text.Code
import SqlInsight.Proofs.Batch.Segments
import SqlInsight.Proofs.Batch.Layout
import SqlInsight.Proofs.Span.Isolated
import SqlInsight.Proofs.Span.Sliced
import SqlInsight.Proofs.Validation.Resolution
import SqlInsight.Proofs.Validation.ColumnUses
import SqlInsight.Proofs.Validation.ColumnFindings
import SqlInsight.Proofs.Validation.LexicalColumns
import SqlInsight.Proofs.Validation.LexicalScoping
import SqlInsight.Proofs.Validation.Alone
import SqlInsight.Proofs.Name.Boundaries
import SqlInsight.Proofs.Text.Occurrences
import SqlInsight.Proofs.Validation.Marks
import SqlInsight.Proofs.Validation.QualifiedMarks
import SqlInsight.Proofs.Validation.RepeatedMarks
import SqlInsight.Proofs.Validation.StarMarks
import SqlInsight.Proofs.Text.Matches
import SqlInsight.Proofs.Completion.QuietNames
import SqlInsight.Proofs.Completion.Lockstep
import SqlInsight.Proofs.Completion.Searches
import SqlInsight.Proofs.Completion.ClauseWords
import SqlInsight.Proofs.Completion.NameContents
import SqlInsight.Proofs.References.Introductions
import SqlInsight.Proofs.References.Spelled
import SqlInsight.Proofs.References.TableList
import SqlInsight.Proofs.Related
import SqlInsight.Proofs.Text.LineIndex
import SqlInsight.Proofs.References.Bound
import SqlInsight.Proofs.Text.Beside
import SqlInsight.Proofs.Validation.Identifiers
import SqlInsight.Proofs.Validation.Recased
import SqlInsight.Proofs.Validation.RecasedFindings
import SqlInsight.Proofs.Spelling.Distance
import SqlInsight.Proofs.Spelling.Nearest
import SqlInsight.Proofs.Name.Quoting
import SqlInsight.Proofs.SyntaxError.Place
import SqlInsight.Proofs.Text.Remasked
import SqlInsight.Proofs.Text.Words
import SqlInsight.Proofs.Validation.Balance
import SqlInsight.Proofs.Outline.Columns
import SqlInsight.Proofs.References.Qualified

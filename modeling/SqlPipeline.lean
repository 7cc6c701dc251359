import SqlPipeline.Aggregate
import SqlPipeline.Bound.Basic
import SqlPipeline.Bound.Bind
import SqlPipeline.Bound.Function
import SqlPipeline.Command.Arguments
import SqlPipeline.Command.Run
import SqlPipeline.Config
import SqlPipeline.Error
import SqlPipeline.Error.List
import SqlPipeline.Job.Execution
import SqlPipeline.Job.Lifecycle
import SqlPipeline.Job.Statement
import SqlPipeline.Json.Basic
import SqlPipeline.Json.Decode
import SqlPipeline.Json.Draft
import SqlPipeline.Json.Reader
import SqlPipeline.Layout
import SqlPipeline.Main
import SqlPipeline.Number.Arithmetic
import SqlPipeline.Number.Binary64
import SqlPipeline.Number.Digits
import SqlPipeline.Number.DoubleText
import SqlPipeline.Number.Nearest
import SqlPipeline.Number.Shortest
import SqlPipeline.Plan.Compile
import SqlPipeline.Plan.Context
import SqlPipeline.Plan.Filter
import SqlPipeline.Plan.Metadata
import SqlPipeline.Plan.Source
import SqlPipeline.Plan.Visitor
import SqlPipeline.Proofs.Bound.Columns
import SqlPipeline.Proofs.Bound.Holds
import SqlPipeline.Proofs.Bound.Shift
import SqlPipeline.Proofs.Bound.ShortCircuit
import SqlPipeline.Proofs.Bound.Spellings
import SqlPipeline.Proofs.Bound.Verdict
import SqlPipeline.Proofs.Change.Assignments
import SqlPipeline.Proofs.Change.Columns
import SqlPipeline.Proofs.Change.Exact
import SqlPipeline.Proofs.Change.Plan
import SqlPipeline.Proofs.Change.Reference
import SqlPipeline.Proofs.Change.Selection
import SqlPipeline.Proofs.Change.Shutdown
import SqlPipeline.Proofs.Config.Writes
import SqlPipeline.Proofs.Error.List
import SqlPipeline.Proofs.Job.Calls
import SqlPipeline.Proofs.Job.Execution
import SqlPipeline.Proofs.Job.Lifecycle
import SqlPipeline.Proofs.Job.Wiring
import SqlPipeline.Proofs.Network.Basic
import SqlPipeline.Proofs.Network.Invariant
import SqlPipeline.Proofs.Network.Progress
import SqlPipeline.Proofs.Network.Streaming
import SqlPipeline.Proofs.Number.Exact
import SqlPipeline.Proofs.Number.Rounding
import SqlPipeline.Proofs.Plan.Alike
import SqlPipeline.Proofs.Plan.Deferring
import SqlPipeline.Proofs.Plan.Dialogue
import SqlPipeline.Proofs.Plan.Does
import SqlPipeline.Proofs.Plan.Joins
import SqlPipeline.Proofs.Plan.Resolve
import SqlPipeline.Proofs.Plan.Steps
import SqlPipeline.Proofs.Plan.Visits
import SqlPipeline.Proofs.Query.Acceptance
import SqlPipeline.Proofs.Query.Basic
import SqlPipeline.Proofs.Query.Binds
import SqlPipeline.Proofs.Query.Distinct
import SqlPipeline.Proofs.Query.Failures
import SqlPipeline.Proofs.Query.NestedLoop
import SqlPipeline.Proofs.Query.OfSelect
import SqlPipeline.Proofs.Query.OwnColumns
import SqlPipeline.Proofs.Query.PushDown
import SqlPipeline.Proofs.Query.Rows
import SqlPipeline.Proofs.Query.Run
import SqlPipeline.Proofs.Query.WherePlans
import SqlPipeline.Proofs.Query.Width
import SqlPipeline.Proofs.Recursion
import SqlPipeline.Proofs.Result
import SqlPipeline.Proofs.Sql.Breaks
import SqlPipeline.Proofs.Sql.Endings
import SqlPipeline.Proofs.Sql.Expressions
import SqlPipeline.Proofs.Sql.Grammar
import SqlPipeline.Proofs.Sql.LetterCase
import SqlPipeline.Proofs.Sql.LexErrors
import SqlPipeline.Proofs.Sql.Lexing
import SqlPipeline.Proofs.Sql.ParseErrors
import SqlPipeline.Proofs.Sql.Pieces
import SqlPipeline.Proofs.Sql.Precedence
import SqlPipeline.Proofs.Sql.Printing
import SqlPipeline.Proofs.Sql.ReadBack
import SqlPipeline.Proofs.Sql.Reading
import SqlPipeline.Proofs.Sql.RoundTrip
import SqlPipeline.Proofs.Sql.Scripts
import SqlPipeline.Proofs.Sql.Segments
import SqlPipeline.Proofs.Sql.SelectInto
import SqlPipeline.Proofs.Sql.Spellings
import SqlPipeline.Proofs.Sql.StatementGrammar
import SqlPipeline.Proofs.Sql.Statements
import SqlPipeline.Proofs.Sql.Termination
import SqlPipeline.Proofs.Table.Calls
import SqlPipeline.Proofs.Table.ColumnNames
import SqlPipeline.Proofs.Table.InMemory
import SqlPipeline.Proofs.Table.Typing
import SqlPipeline.Proofs.Table.Upsert
import SqlPipeline.Proofs.Table.Written
import SqlPipeline.Proofs.Task.Closing
import SqlPipeline.Proofs.Task.Flow
import SqlPipeline.Proofs.Task.Gives
import SqlPipeline.Proofs.Task.Grouping
import SqlPipeline.Proofs.Task.Sends
import SqlPipeline.Proofs.Task.Wiring
import SqlPipeline.Proofs.Value.Aggregates
import SqlPipeline.Proofs.Value.Extremes
import SqlPipeline.Proofs.Value.IntegerText
import SqlPipeline.Proofs.Value.Order
import SqlPipeline.Schema.Basic
import SqlPipeline.Schema.Catalog
import SqlPipeline.Sql.Expr
import SqlPipeline.Sql.Keyword
import SqlPipeline.Sql.Lexer
import SqlPipeline.Sql.Name
import SqlPipeline.Sql.Parser.Basic
import SqlPipeline.Sql.Parser.Expr
import SqlPipeline.Sql.Parser.Statement
import SqlPipeline.Sql.Script
import SqlPipeline.Sql.Statement
import SqlPipeline.Sql.Token
import SqlPipeline.Table.Basic
import SqlPipeline.Table.Definition
import SqlPipeline.Task.Basic
import SqlPipeline.Task.Change
import SqlPipeline.Task.Handoff
import SqlPipeline.Task.Run
import SqlPipeline.Task.Setup
import SqlPipeline.Task.Stage
import SqlPipeline.Text.Basic
import SqlPipeline.Text.Blank
import SqlPipeline.Text.Letter
import SqlPipeline.Text.LetterCase
import SqlPipeline.Value.Basic
import SqlPipeline.Value.Cast
import SqlPipeline.Value.Operators

import TableQuery.Aggregate.Accumulator
import TableQuery.Aggregate.Function
import TableQuery.Aggregate.Groups
import TableQuery.Delimited.Dialect
import TableQuery.Delimited.Join
import TableQuery.Delimited.Joiner
import TableQuery.Delimited.Sniff
import TableQuery.Delimited.Split
import TableQuery.Double
import TableQuery.Double.Shortest
import TableQuery.Double.Text
import TableQuery.Expression.Bound
import TableQuery.Expression.Builtin
import TableQuery.Expression.Error
import TableQuery.Expression.Evaluation
import TableQuery.Expression.Fragment
import TableQuery.Expression.Lexer
import TableQuery.Expression.Operators
import TableQuery.Expression.Outline
import TableQuery.Expression.Parser
import TableQuery.Expression.Token
import TableQuery.Expression.Tree
import TableQuery.Keyed
import TableQuery.Query.Assignments
import TableQuery.Query.Basic
import TableQuery.Query.Binding
import TableQuery.Query.Clauses
import TableQuery.Query.Columns
import TableQuery.Query.Definitions
import TableQuery.Query.Error
import TableQuery.Query.Fragment
import TableQuery.Query.JoinSpec
import TableQuery.Query.Literals
import TableQuery.Query.Plan
import TableQuery.Query.Scope
import TableQuery.Run.Error
import TableQuery.Run.Execution
import TableQuery.Run.Feed
import TableQuery.Run.JoinIndex
import TableQuery.Run.Output
import TableQuery.Run.Projection
import TableQuery.Run.Query
import TableQuery.Run.Update
import TableQuery.Settings
import TableQuery.Table.Basic
import TableQuery.Table.Directory
import TableQuery.Table.FieldCounts
import TableQuery.Table.Memory
import TableQuery.Table.Reader
import TableQuery.Table.Writer
import TableQuery.TableError
import TableQuery.Text.Blank
import TableQuery.Text.Case
import TableQuery.Text.Fold
import TableQuery.Text.Integer
import TableQuery.Text.Quoted
import TableQuery.Text.Search
import TableQuery.Text.Utf8
import TableQuery.Text.Word
import TableQuery.Value
import TableQuery.Value.Equality
import TableQuery.Value.Hash
import TableQuery.Value.Order
import TableQuery.Proofs.Double.Integral
import TableQuery.Proofs.Value.Hash
import TableQuery.Proofs.Keyed
import TableQuery.Proofs.Run.Feed
import TableQuery.Proofs.Delimited.Preservation
import TableQuery.Proofs.Delimited.RoundTrip
import TableQuery.Proofs.Run.NestedLoop
import TableQuery.Proofs.Sorting
import TableQuery.Proofs.Aggregate.Grouping
import TableQuery.Proofs.Run.Emission
import TableQuery.Proofs.Run.Stages
import TableQuery.Proofs.Run.Rows
import TableQuery.Proofs.Run.Arrivals
import TableQuery.Proofs.Run.Streaming
import TableQuery.Proofs.Run.Demand
import TableQuery.Proofs.Run.Selection
import TableQuery.Proofs.Query.Clauses
import TableQuery.Proofs.Query.Equality
import TableQuery.Proofs.Run.Phases
import TableQuery.Proofs.Run.Assignments
import TableQuery.Proofs.Run.Updating
import TableQuery.Proofs.Run.Stopping
import TableQuery.Proofs.Run.Refusal
import TableQuery.Proofs.Expression.Lexing
import TableQuery.Proofs.Query.Literals
import TableQuery.Proofs.Query.Pieces
import TableQuery.Proofs.Delimited.LineBreaks
import TableQuery.Proofs.Expression.Printing
import TableQuery.Proofs.Expression.Reading
import TableQuery.Proofs.Query.Comments
import TableQuery.Proofs.Query.Header
import TableQuery.Proofs.Query.Opacity
import TableQuery.Proofs.Run.Delivery
import TableQuery.Proofs.Table.Reader
import TableQuery.Proofs.Table.RoundTrip
import TableQuery.Proofs.Text.Lines
import TableQuery.Proofs.Text.Utf8
import TableQuery.Proofs.Expression.Spelling
import TableQuery.Proofs.Expression.Steps
import TableQuery.Proofs.Run.RowWidth
import TableQuery.Proofs.Run.OutputWidth
import TableQuery.Proofs.Run.Partners
import TableQuery.Proofs.Delimited.Grammar
import TableQuery.Proofs.Delimited.Unquoted
import TableQuery.Proofs.Delimited.Rereading
import TableQuery.Proofs.Delimited.GivingWay
import TableQuery.Proofs.Delimited.PlainFields
import TableQuery.Proofs.Run.Ending
import TableQuery.Proofs.Run.Withholding
import TableQuery.Proofs.Run.Continuation
import TableQuery.Proofs.Run.Seeds
import TableQuery.Proofs.Run.Unmatched
import TableQuery.Proofs.Table.Blocks
import TableQuery.Proofs.Query.PlanScoping
import TableQuery.Proofs.Query.ClauseOrder
import TableQuery.Proofs.Query.RecordDependence
import TableQuery.Proofs.Query.Repetition
import TableQuery.Proofs.Expression.Phrases
import TableQuery.Proofs.Expression.TokenChars
import TableQuery.Proofs.Query.AggregateFree
import TableQuery.Proofs.Query.Fragments
import TableQuery.Proofs.Query.AssignmentLists
import TableQuery.Proofs.Expression.Parts
import TableQuery.Proofs.Expression.Lists
import TableQuery.Proofs.Query.ColumnMaps
import TableQuery.Proofs.Query.FieldSpellings
import TableQuery.Proofs.Query.Variables
import TableQuery.Proofs.Query.Mentions
import TableQuery.Proofs.Query.Sections
import TableQuery.Proofs.Query.Placement
import TableQuery.Proofs.Query.RowCounts
import TableQuery.Proofs.Value.Arithmetic
import TableQuery.Proofs.Value.IntegerTexts
import TableQuery.Proofs.Value.Extremum
import TableQuery.Proofs.Query.JoinMasks
import TableQuery.Proofs.Query.Readings
import TableQuery.Proofs.Query.ColumnSpellings
import TableQuery.Proofs.Expression.Patterns
import TableQuery.Proofs.Expression.Searching
import TableQuery.Proofs.Expression.Places
import TableQuery.Proofs.Expression.FaultPlaces
import TableQuery.Proofs.Aggregate.ArrivalOrder
import TableQuery.Proofs.Value.LinearOrder
import TableQuery.Proofs.Query.NumberedColumns
import TableQuery.Proofs.Run.Preparation

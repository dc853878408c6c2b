import RowStore.Batch.Limits
import RowStore.Batch.Plan
import RowStore.Calendar.DateTime
import RowStore.Calendar.Reader
import RowStore.Column
import RowStore.ColumnName
import RowStore.Fault
import RowStore.Flow.Basic
import RowStore.Flow.Pump
import RowStore.Flow.Stream
import RowStore.Json.Basic
import RowStore.Json.Decoder
import RowStore.Json.Document
import RowStore.Json.Lexer
import RowStore.Json.Numeral
import RowStore.Json.Place
import RowStore.Json.Printer
import RowStore.Json.Problem
import RowStore.Number.Binary64
import RowStore.Number.Layout
import RowStore.Number.Reader
import RowStore.Number.Shortest
import RowStore.Options
import RowStore.Pool
import RowStore.Query.Basic
import RowStore.Query.Reader
import RowStore.Query.Statement
import RowStore.Record
import RowStore.ResultSet
import RowStore.Schema.Basic
import RowStore.Schema.Definition
import RowStore.Schema.Description
import RowStore.Sql.Buffer
import RowStore.Sql.Literal
import RowStore.Sql.Quoted
import RowStore.Sql.Statement
import RowStore.Store.Executor
import RowStore.Store.Keys
import RowStore.Store.Records
import RowStore.Store.Work
import RowStore.Text.Choice
import RowStore.Text.Hex
import RowStore.Text.Hidden
import RowStore.Text.Inspect
import RowStore.Text.Joining
import RowStore.Text.Utf8
import RowStore.Value
import RowStore.Wire.Cell
import RowStore.Wire.Client
import RowStore.Wire.ColumnType
import RowStore.Wire.Packet
import RowStore.Wire.Parameter
import RowStore.Proofs.Checks
import RowStore.Proofs.Infix
import RowStore.Proofs.ColumnName
import RowStore.Proofs.Number.Numeral
import RowStore.Proofs.Sql.Reading
import RowStore.Proofs.Sql.Buffer
import RowStore.Proofs.Sql.Joined
import RowStore.Proofs.Sql.Statement
import RowStore.Proofs.Query.Tokens
import RowStore.Proofs.Batch.Packing
import RowStore.Proofs.Batch.Columns
import RowStore.Proofs.Batch.Pieces
import RowStore.Proofs.Sql.Insert
import RowStore.Proofs.Sql.Predicate
import RowStore.Proofs.Sql.Truth
import RowStore.Proofs.Query.Membership
import RowStore.Proofs.Query.NullTests
import RowStore.Proofs.Sql.Bound
import RowStore.Proofs.Batch.ReadBack
import RowStore.Proofs.Batch.Size
import RowStore.Proofs.Record
import RowStore.Proofs.StoredFields
import RowStore.Proofs.Batch.PacketLimit
import RowStore.Proofs.Batch.Fewest
import RowStore.Proofs.Batch.SplitSize
import RowStore.Proofs.Store.Work
import RowStore.Proofs.Store.Recorded
import RowStore.Proofs.Store.Saving
import RowStore.Proofs.Store.Operation
import RowStore.Proofs.Flow.Ends
import RowStore.Proofs.Flow.Delivery
import RowStore.Proofs.Flow.Pause
import RowStore.Proofs.Flow.Moment
import RowStore.Proofs.Flow.Waking
import RowStore.Proofs.Flow.Upcoming
import RowStore.Proofs.Flow.Collecting
import RowStore.Proofs.Store.Streaming
import RowStore.Proofs.Table.Basic
import RowStore.Proofs.Table.Splitting
import RowStore.Proofs.Table.Retry
import RowStore.Proofs.Keys.Command
import RowStore.Proofs.Keys.Table
import RowStore.Proofs.Keys.Statement
import RowStore.Proofs.Keys.Memory
import RowStore.Proofs.Keys.Operation
import RowStore.Proofs.Keys.Refinement
import RowStore.Proofs.Query.Outcome
import RowStore.Proofs.Store.Scope
import RowStore.Proofs.Number.Rounding
import RowStore.Proofs.Number.Shortest
import RowStore.Proofs.Number.Value
import RowStore.Proofs.Calendar.Reading
import RowStore.Proofs.Schema.DeclaredType
import RowStore.Proofs.Schema.Description
import RowStore.Proofs.Schema.BooleanKind
import RowStore.Proofs.Schema.Definition
import RowStore.Proofs.Schema.RoundTrip
import RowStore.Proofs.Wire.Datum
import RowStore.Proofs.Json.Integer
import RowStore.Proofs.Results.Row
import RowStore.Proofs.Results.Filling
import RowStore.Proofs.Results.WrittenBack
import RowStore.Proofs.Sql.Path
import RowStore.Proofs.Calendar.TextOrder
import RowStore.Proofs.Calendar.Chronology
import RowStore.Proofs.Calendar.LiteralOrder
import RowStore.Proofs.Batch.Stringified
import RowStore.Proofs.Results.TruthCell
import RowStore.Proofs.Flow.Mapper
import RowStore.Proofs.Flow.Gatherer
import RowStore.Proofs.Json.Decoding
import RowStore.Proofs.Json.Printing
import RowStore.Proofs.Query.Decoding
import RowStore.Proofs.Query.Description
import RowStore.Proofs.Keys.Limit
import RowStore.Proofs.Record.History

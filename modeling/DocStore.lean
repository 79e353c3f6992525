import DocStore.Binary64.Basic
import DocStore.Binary64.Round
import DocStore.Client.Answer
import DocStore.Client.Basic
import DocStore.Client.Query
import DocStore.Config.Basic
import DocStore.Config.File
import DocStore.Decimal.Basic
import DocStore.Decimal.Layout
import DocStore.Decimal.Shortest
import DocStore.Document.Basic
import DocStore.Document.Path
import DocStore.Document.Stored
import DocStore.Error
import DocStore.Filter.Basic
import DocStore.Filter.Bound
import DocStore.Filter.Compile
import DocStore.Filter.Error
import DocStore.Filter.Escape
import DocStore.Filter.Merge
import DocStore.Filter.Noted
import DocStore.Filter.OfJson
import DocStore.Filter.Statement
import DocStore.Http.Call
import DocStore.Http.Host
import DocStore.Http.Message
import DocStore.Http.Script
import DocStore.Http.Target
import DocStore.Json.Basic
import DocStore.Json.Printer
import DocStore.Json.Raw
import DocStore.Json.Record
import DocStore.Json.Token
import DocStore.Proofs.Binary64.Nearest
import DocStore.Proofs.Binary64.Neighbours
import DocStore.Proofs.Binary64.Order
import DocStore.Proofs.Binary64.Rounded
import DocStore.Proofs.Binary64.Rounding
import DocStore.Proofs.Config.Saved
import DocStore.Proofs.Decimal.Literal
import DocStore.Proofs.Decimal.Numeral
import DocStore.Proofs.Decimal.Shortest
import DocStore.Proofs.Document.Attributes
import DocStore.Proofs.Document.Path
import DocStore.Proofs.Document.Settled
import DocStore.Proofs.Document.Stored
import DocStore.Proofs.Filter.Alike
import DocStore.Proofs.Filter.BadLeaf
import DocStore.Proofs.Filter.Bounds
import DocStore.Proofs.Filter.Calls
import DocStore.Proofs.Filter.Checks
import DocStore.Proofs.Filter.Compiled
import DocStore.Proofs.Filter.Depth
import DocStore.Proofs.Filter.Emptiness
import DocStore.Proofs.Filter.Escaped
import DocStore.Proofs.Filter.EscapedRequests
import DocStore.Proofs.Filter.Exclusion
import DocStore.Proofs.Filter.Grammar
import DocStore.Proofs.Filter.Leaf
import DocStore.Proofs.Filter.Lexeme
import DocStore.Proofs.Filter.Literal
import DocStore.Proofs.Filter.Marks
import DocStore.Proofs.Filter.Meaning
import DocStore.Proofs.Filter.Merged
import DocStore.Proofs.Filter.Names
import DocStore.Proofs.Filter.Numbers
import DocStore.Proofs.Filter.Outline
import DocStore.Proofs.Filter.Parsed
import DocStore.Proofs.Filter.Quoting
import DocStore.Proofs.Filter.Reading
import DocStore.Proofs.Filter.Rewriting
import DocStore.Proofs.Filter.Statements
import DocStore.Proofs.Filter.Tests
import DocStore.Proofs.Filter.Truth
import DocStore.Proofs.Filter.WellFormed
import DocStore.Proofs.Http.Interleaved
import DocStore.Proofs.Http.Target
import DocStore.Proofs.Json.Fields
import DocStore.Proofs.Json.Height
import DocStore.Proofs.Json.Indented
import DocStore.Proofs.Json.Numbers
import DocStore.Proofs.Json.ReadBack
import DocStore.Proofs.Json.Scan
import DocStore.Proofs.Json.Slots
import DocStore.Proofs.Session.Batches
import DocStore.Proofs.Session.Calls
import DocStore.Proofs.Session.Chunks
import DocStore.Proofs.Session.DocumentMap
import DocStore.Proofs.Session.Exchanges
import DocStore.Proofs.Session.Records
import DocStore.Proofs.Session.Refinement
import DocStore.Proofs.Session.Retrieval
import DocStore.Proofs.Session.Routes
import DocStore.Proofs.Session.Searches
import DocStore.Proofs.Session.Server
import DocStore.Proofs.Text.Percent
import DocStore.Proofs.Text.Utf8
import DocStore.Retriever
import DocStore.Schema
import DocStore.Store
import DocStore.Text.Blank
import DocStore.Text.Percent
import DocStore.Text.Quoted
import DocStore.Text.Unprintable
import DocStore.Text.Utf8

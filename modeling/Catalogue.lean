import Catalogue.Calendar.Date
import Catalogue.Calendar.Iso
import Catalogue.Calendar.Moment
import Catalogue.Document.Adapter
import Catalogue.Document.Collection
import Catalogue.Document.Condition
import Catalogue.Document.Connection
import Catalogue.Document.Pipeline
import Catalogue.Document.Regex
import Catalogue.Failure
import Catalogue.Field.Conversion
import Catalogue.Field.Pattern
import Catalogue.Field.PatternReader
import Catalogue.Field.Registry
import Catalogue.Field.TimeForm
import Catalogue.Field.Validator
import Catalogue.Field.Wildcard
import Catalogue.Filter.Compile
import Catalogue.Filter.Term
import Catalogue.Json.Reader
import Catalogue.Lookup
import Catalogue.Number.Binary64
import Catalogue.Number.Notation
import Catalogue.Number.Shortest
import Catalogue.Proofs.Calendar.Chronology
import Catalogue.Proofs.Calendar.Iso
import Catalogue.Proofs.Calendar.Shift
import Catalogue.Proofs.Document.Clauses
import Catalogue.Proofs.Document.Connection
import Catalogue.Proofs.Document.Execution
import Catalogue.Proofs.Document.Expression
import Catalogue.Proofs.Document.Form
import Catalogue.Proofs.Document.Identity
import Catalogue.Proofs.Document.Operators
import Catalogue.Proofs.Document.Paging
import Catalogue.Proofs.Document.RandomOrder
import Catalogue.Proofs.Document.Row
import Catalogue.Proofs.Document.Search
import Catalogue.Proofs.Failing
import Catalogue.Proofs.Field.Like
import Catalogue.Proofs.Field.Marks
import Catalogue.Proofs.Field.Validator
import Catalogue.Proofs.Field.Wildcard
import Catalogue.Proofs.Filter.Composition
import Catalogue.Proofs.Filter.Moments
import Catalogue.Proofs.Filter.Parts
import Catalogue.Proofs.Filter.Refusals
import Catalogue.Proofs.Json.Nesting
import Catalogue.Proofs.Json.Reader
import Catalogue.Proofs.Ordering.Comparator
import Catalogue.Proofs.Ordering.Document
import Catalogue.Proofs.Ordering.Keys
import Catalogue.Proofs.Ordering.Number
import Catalogue.Proofs.Ordering.Row
import Catalogue.Proofs.Parity.Listing
import Catalogue.Proofs.Parity.Mirror
import Catalogue.Proofs.Parity.Reading
import Catalogue.Proofs.Parity.Selection
import Catalogue.Proofs.Parity.Sequence
import Catalogue.Proofs.Parity.Wildcards
import Catalogue.Proofs.Query.Between
import Catalogue.Proofs.Query.Bounds
import Catalogue.Proofs.Query.Carriers
import Catalogue.Proofs.Query.ClosedNames
import Catalogue.Proofs.Query.Directives
import Catalogue.Proofs.Query.Forms
import Catalogue.Proofs.Query.Operands
import Catalogue.Proofs.Query.Reading
import Catalogue.Proofs.Query.Refusals
import Catalogue.Proofs.Relational.Acceptance
import Catalogue.Proofs.Relational.Application
import Catalogue.Proofs.Relational.Content
import Catalogue.Proofs.Relational.Deletion
import Catalogue.Proofs.Relational.Drafting
import Catalogue.Proofs.Relational.Execution
import Catalogue.Proofs.Relational.FreeText
import Catalogue.Proofs.Relational.Limits
import Catalogue.Proofs.Relational.Marking
import Catalogue.Proofs.Relational.Overflow
import Catalogue.Proofs.Relational.Paging
import Catalogue.Proofs.Relational.Sequence
import Catalogue.Proofs.Relational.Storage
import Catalogue.Proofs.Relational.Timestamp
import Catalogue.Proofs.Relational.Wording
import Catalogue.Proofs.Store.OneQuery
import Catalogue.Proofs.Store.Page
import Catalogue.Proofs.Store.Paging
import Catalogue.Proofs.Store.Rearrangement
import Catalogue.Proofs.Store.Recording
import Catalogue.Proofs.Store.SingleUse
import Catalogue.Proofs.Text.Numeral
import Catalogue.Proofs.Text.Padding
import Catalogue.Proofs.Text.Words
import Catalogue.Proofs.Timestamp.Precision
import Catalogue.Proofs.Timestamp.Written
import Catalogue.Query.Order
import Catalogue.Query.Plan
import Catalogue.Query.Predicate
import Catalogue.Query.Request
import Catalogue.Relational.Adapter
import Catalogue.Relational.Binding
import Catalogue.Relational.Cell
import Catalogue.Relational.Condition
import Catalogue.Relational.Database
import Catalogue.Relational.Like
import Catalogue.Relational.Limits
import Catalogue.Relational.Source
import Catalogue.Relational.Statement
import Catalogue.Relational.Table
import Catalogue.Settings
import Catalogue.Store.Adapter
import Catalogue.Store.Listing
import Catalogue.Text.Blank
import Catalogue.Text.Digit
import Catalogue.Text.Letter
import Catalogue.Text.Numeral
import Catalogue.Text.Printable
import Catalogue.Text.Quoted
import Catalogue.Timestamp.DayParts
import Catalogue.Timestamp.Quantity
import Catalogue.Timestamp.Reader
import Catalogue.Timestamp.Reading
import Catalogue.Timestamp.Token
import Catalogue.Timestamp.Word
import Catalogue.Value.Basic
import Catalogue.Value.Literal
import Catalogue.Value.Order

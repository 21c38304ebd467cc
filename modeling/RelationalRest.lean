import RelationalRest.Binary64.Basic
import RelationalRest.Binary64.Decimal
import RelationalRest.Binary64.Shortest
import RelationalRest.Calendar.Date
import RelationalRest.Calendar.Printer
import RelationalRest.Calendar.Reader
import RelationalRest.Calendar.Timestamp
import RelationalRest.Declaration.Basic
import RelationalRest.Declaration.Files
import RelationalRest.Declaration.Printer
import RelationalRest.Declaration.Reader
import RelationalRest.Declaration.Resolve
import RelationalRest.Error.Request
import RelationalRest.Error.Schema
import RelationalRest.Error.Store
import RelationalRest.Fields
import RelationalRest.Hook
import RelationalRest.Http.MediaType
import RelationalRest.Http.Message
import RelationalRest.Http.Server
import RelationalRest.Http.Uri
import RelationalRest.Json.Basic
import RelationalRest.Json.Printer
import RelationalRest.Json.Reader
import RelationalRest.Kind.Basic
import RelationalRest.Kind.Filter
import RelationalRest.Listing.Building
import RelationalRest.Listing.Filter
import RelationalRest.Listing.Join
import RelationalRest.Listing.Paging
import RelationalRest.Listing.Projection
import RelationalRest.Listing.Sorting
import RelationalRest.Operation.Conversation
import RelationalRest.Operation.Creation
import RelationalRest.Operation.Lookup
import RelationalRest.Operation.Removal
import RelationalRest.Operation.Survey
import RelationalRest.Postgres.Answer
import RelationalRest.Postgres.Cell
import RelationalRest.Postgres.Numeric
import RelationalRest.Postgres.Octets
import RelationalRest.Postgres.Parameter
import RelationalRest.Proofs.Binary64.Decimal
import RelationalRest.Proofs.Binary64.DecimalText
import RelationalRest.Proofs.Binary64.Rounding
import RelationalRest.Proofs.Binary64.Shortest
import RelationalRest.Proofs.Calendar.DayNumber
import RelationalRest.Proofs.Calendar.Forms
import RelationalRest.Proofs.Calendar.Offsets
import RelationalRest.Proofs.Calendar.Parts
import RelationalRest.Proofs.Calendar.ReadBack
import RelationalRest.Proofs.Calendar.Succession
import RelationalRest.Proofs.Calendar.Written
import RelationalRest.Proofs.Catalog.Building
import RelationalRest.Proofs.Catalog.Checked
import RelationalRest.Proofs.Catalog.Declared
import RelationalRest.Proofs.Catalog.Reordering
import RelationalRest.Proofs.Catalog.Resolved
import RelationalRest.Proofs.Fields
import RelationalRest.Proofs.Http.Location
import RelationalRest.Proofs.Http.Serving
import RelationalRest.Proofs.Http.Uri
import RelationalRest.Proofs.Http.Wording
import RelationalRest.Proofs.Kind.Characters
import RelationalRest.Proofs.Kind.Coercion
import RelationalRest.Proofs.Kind.Operator
import RelationalRest.Proofs.Kind.PlainText
import RelationalRest.Proofs.Kind.Presence
import RelationalRest.Proofs.Listing.Alike
import RelationalRest.Proofs.Listing.ColumnFilter
import RelationalRest.Proofs.Listing.Covering
import RelationalRest.Proofs.Listing.Delimiters
import RelationalRest.Proofs.Listing.Filterable
import RelationalRest.Proofs.Listing.Kept
import RelationalRest.Proofs.Listing.Links
import RelationalRest.Proofs.Listing.Nesting
import RelationalRest.Proofs.Listing.Ordering
import RelationalRest.Proofs.Listing.Parallel
import RelationalRest.Proofs.Listing.Plan
import RelationalRest.Proofs.Listing.Projected
import RelationalRest.Proofs.Listing.Quoting
import RelationalRest.Proofs.Listing.Scope
import RelationalRest.Proofs.Listing.Selection
import RelationalRest.Proofs.Listing.SelfContained
import RelationalRest.Proofs.Listing.Steps
import RelationalRest.Proofs.Listing.Turning
import RelationalRest.Proofs.Listing.Walk
import RelationalRest.Proofs.Listing.Window
import RelationalRest.Proofs.Listing.Words
import RelationalRest.Proofs.Operation.Blame
import RelationalRest.Proofs.Operation.Columns
import RelationalRest.Proofs.Operation.Conversation
import RelationalRest.Proofs.Operation.Creation
import RelationalRest.Proofs.Operation.Gathering
import RelationalRest.Proofs.Operation.Ownership
import RelationalRest.Proofs.Operation.Readings
import RelationalRest.Proofs.Operation.RealOwner
import RelationalRest.Proofs.Operation.Rearrangement
import RelationalRest.Proofs.Operation.Refusals
import RelationalRest.Proofs.Operation.Rejection
import RelationalRest.Proofs.Operation.Removal
import RelationalRest.Proofs.Operation.RemovalStatement
import RelationalRest.Proofs.Operation.SoftDeletion
import RelationalRest.Proofs.Operation.Stamping
import RelationalRest.Proofs.Operation.Statements
import RelationalRest.Proofs.Operation.Survey
import RelationalRest.Proofs.Record.Admission
import RelationalRest.Proofs.Record.Concealment
import RelationalRest.Proofs.Record.Hoisting
import RelationalRest.Proofs.Record.Owner
import RelationalRest.Proofs.Record.Placement
import RelationalRest.Proofs.Record.Reconstruction
import RelationalRest.Proofs.Record.Redaction
import RelationalRest.Proofs.Record.Row
import RelationalRest.Proofs.Record.Stripping
import RelationalRest.Proofs.Sql.Clause
import RelationalRest.Proofs.Sql.Effect
import RelationalRest.Proofs.Sql.Insertion
import RelationalRest.Proofs.Sql.Masking
import RelationalRest.Proofs.Sql.Meaning
import RelationalRest.Proofs.Sql.Name
import RelationalRest.Proofs.Sql.Operands
import RelationalRest.Proofs.Sql.Placeholders
import RelationalRest.Proofs.Sql.ReadBack
import RelationalRest.Proofs.Sql.Reading
import RelationalRest.Proofs.Sql.Spelling
import RelationalRest.Proofs.Sql.Token
import RelationalRest.Proofs.Success
import RelationalRest.Proofs.Text.FormEncoding
import RelationalRest.Proofs.Text.Numeral
import RelationalRest.Proofs.Text.Split
import RelationalRest.Proofs.Text.Utf8
import RelationalRest.Record.Creation
import RelationalRest.Record.Envelope
import RelationalRest.Request
import RelationalRest.Resource.Basic
import RelationalRest.Resource.Catalog
import RelationalRest.Resource.Draft
import RelationalRest.Settings
import RelationalRest.Sql.Change
import RelationalRest.Sql.Condition
import RelationalRest.Sql.Query
import RelationalRest.Sql.Statement
import RelationalRest.Sql.Value
import RelationalRest.Text.Blank
import RelationalRest.Text.Cut
import RelationalRest.Text.FormEncoding
import RelationalRest.Text.Hex
import RelationalRest.Text.Numeral
import RelationalRest.Text.Utf8

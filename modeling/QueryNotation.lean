import QueryNotation.Clause
import QueryNotation.Compiler
import QueryNotation.Decimal.Basic
import QueryNotation.Decimal.Layout
import QueryNotation.Decimal.Nearest
import QueryNotation.Decimal.Scaled
import QueryNotation.Decimal.Shortest
import QueryNotation.Dialect.Basic
import QueryNotation.Dialect.Builtin
import QueryNotation.Dialect.Names
import QueryNotation.Dialect.Profile
import QueryNotation.Event
import QueryNotation.Failure
import QueryNotation.Json.Basic
import QueryNotation.Json.Draft
import QueryNotation.Json.Shape
import QueryNotation.Json.Token
import QueryNotation.Lowering.Error
import QueryNotation.Lowering.Expr
import QueryNotation.Lowering.Statement
import QueryNotation.Number
import QueryNotation.Proofs.Agreement
import QueryNotation.Proofs.Aliases
import QueryNotation.Proofs.Alignment
import QueryNotation.Proofs.BareNames
import QueryNotation.Proofs.Chains
import QueryNotation.Proofs.Changes
import QueryNotation.Proofs.Clauses
import QueryNotation.Proofs.Edits
import QueryNotation.Proofs.Enclosure
import QueryNotation.Proofs.Entries
import QueryNotation.Proofs.EventLog
import QueryNotation.Proofs.Faults
import QueryNotation.Proofs.Features
import QueryNotation.Proofs.Folding
import QueryNotation.Proofs.Grammar
import QueryNotation.Proofs.Joins
import QueryNotation.Proofs.KeyOrder
import QueryNotation.Proofs.Lookups
import QueryNotation.Proofs.Members
import QueryNotation.Proofs.NestedFields
import QueryNotation.Proofs.NormalForm
import QueryNotation.Proofs.Numbering
import QueryNotation.Proofs.Numerals
import QueryNotation.Proofs.Observations
import QueryNotation.Proofs.Occurrence
import QueryNotation.Proofs.Parentheses
import QueryNotation.Proofs.Parts
import QueryNotation.Proofs.Placeholders
import QueryNotation.Proofs.Places
import QueryNotation.Proofs.Precedence
import QueryNotation.Proofs.Quoting
import QueryNotation.Proofs.Registration
import QueryNotation.Proofs.Rereading
import QueryNotation.Proofs.Roundtrip
import QueryNotation.Proofs.Scanning
import QueryNotation.Proofs.SharedTexts
import QueryNotation.Proofs.Shifting
import QueryNotation.Proofs.Spellings
import QueryNotation.Proofs.Subtrees
import QueryNotation.Proofs.Success
import QueryNotation.Proofs.ValueRows
import QueryNotation.Proofs.ValueTexts
import QueryNotation.Proofs.Writing
import QueryNotation.Query.Basic
import QueryNotation.Query.Form
import QueryNotation.Query.Reading
import QueryNotation.Query.Validity
import QueryNotation.Query.Written
import QueryNotation.Registry
import QueryNotation.Scalar
import QueryNotation.Session
import QueryNotation.Settings
import QueryNotation.Sql.Basic
import QueryNotation.Sql.Operator
import QueryNotation.Sql.Piece
import QueryNotation.Sql.Print
import QueryNotation.Text.Escaped
import QueryNotation.Text.LowerCase
import QueryNotation.Text.Quoted
import QueryNotation.Text.Unprinted
import QueryNotation.Text.UpperCase
import QueryNotation.Toml.Basic
import QueryNotation.Toml.Document
import QueryNotation.Toml.Reader
import QueryNotation.Toml.Scalar
import QueryNotation.Toml.Text

import TableAccess.Condition.Basic
import TableAccess.Condition.Json
import TableAccess.Condition.Lowering
import TableAccess.Condition.Operator
import TableAccess.Config
import TableAccess.Criteria
import TableAccess.Dialect
import TableAccess.Error
import TableAccess.Event
import TableAccess.Fetch.Compile
import TableAccess.Fetch.Json
import TableAccess.Fetch.Params
import TableAccess.Gateway.Basic
import TableAccess.Gateway.Traced
import TableAccess.Json.Basic
import TableAccess.Json.Document
import TableAccess.Json.Fields
import TableAccess.Json.Literal
import TableAccess.Model
import TableAccess.Number.Binary64
import TableAccess.Number.Bounds
import TableAccess.Number.Layout
import TableAccess.Number.Reading
import TableAccess.Number.Rounding
import TableAccess.Number.Shortest
import TableAccess.Proofs.AlikeStatements
import TableAccess.Proofs.BoundScalars
import TableAccess.Proofs.Builders
import TableAccess.Proofs.Calls
import TableAccess.Proofs.Clauses
import TableAccess.Proofs.Columns
import TableAccess.Proofs.ConfigTexts
import TableAccess.Proofs.CountAgreement
import TableAccess.Proofs.CountAnswers
import TableAccess.Proofs.DecimalTexts
import TableAccess.Proofs.DisallowedKeys
import TableAccess.Proofs.Discipline
import TableAccess.Proofs.Entries
import TableAccess.Proofs.ErrorOrder
import TableAccess.Proofs.Fetches
import TableAccess.Proofs.FilterFaults
import TableAccess.Proofs.FilterGrammar
import TableAccess.Proofs.FilterReading
import TableAccess.Proofs.FilterStages
import TableAccess.Proofs.FilteredWrites
import TableAccess.Proofs.FlatGroups
import TableAccess.Proofs.FoldedPairs
import TableAccess.Proofs.GuardedWrites
import TableAccess.Proofs.Insertion
import TableAccess.Proofs.KeyOrder
import TableAccess.Proofs.LeadingNoise
import TableAccess.Proofs.Lexemes
import TableAccess.Proofs.Limits
import TableAccess.Proofs.ListIntegers
import TableAccess.Proofs.ListLiterals
import TableAccess.Proofs.Lowering
import TableAccess.Proofs.Magnitudes
import TableAccess.Proofs.Meaning
import TableAccess.Proofs.MemberPass
import TableAccess.Proofs.ModelCalls
import TableAccess.Proofs.NearestNumbers
import TableAccess.Proofs.NumberKeys
import TableAccess.Proofs.NumeralTexts
import TableAccess.Proofs.Numerals
import TableAccess.Proofs.Paging
import TableAccess.Proofs.PagingClauses
import TableAccess.Proofs.Pieces
import TableAccess.Proofs.Placeholders
import TableAccess.Proofs.PlainNumbers
import TableAccess.Proofs.Plans
import TableAccess.Proofs.Preparation
import TableAccess.Proofs.PrintedData
import TableAccess.Proofs.PrintedRecords
import TableAccess.Proofs.ReadableLimits
import TableAccess.Proofs.Reading
import TableAccess.Proofs.RecordWrites
import TableAccess.Proofs.RowHistories
import TableAccess.Proofs.RowReaders
import TableAccess.Proofs.RowTexts
import TableAccess.Proofs.SelectionCounts
import TableAccess.Proofs.SelectionParts
import TableAccess.Proofs.Selections
import TableAccess.Proofs.ShortestDecimals
import TableAccess.Proofs.SingleRows
import TableAccess.Proofs.StatementLog
import TableAccess.Proofs.Statements
import TableAccess.Proofs.Structure
import TableAccess.Proofs.Tokens
import TableAccess.Proofs.Transparency
import TableAccess.Proofs.Traversals
import TableAccess.Proofs.Truncation
import TableAccess.Proofs.UnknownColumns
import TableAccess.Proofs.ValueIndependence
import TableAccess.Proofs.Words
import TableAccess.Proofs.WriterStatements
import TableAccess.Record
import TableAccess.Row
import TableAccess.Schema.Column
import TableAccess.Schema.Table
import TableAccess.Sql.Delete
import TableAccess.Sql.Expr
import TableAccess.Sql.Insert
import TableAccess.Sql.Select
import TableAccess.Sql.Statement
import TableAccess.Sql.Update
import TableAccess.StatementKind
import TableAccess.Text.Blank
import TableAccess.Text.Escaped
import TableAccess.Text.Integer
import TableAccess.Text.Printable
import TableAccess.Text.Truncated
import TableAccess.Value
import TableAccess.Write

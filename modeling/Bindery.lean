import Bindery.Access.Error
import Bindery.Access.Fetch
import Bindery.Access.Handle
import Bindery.Access.HostType
import Bindery.Access.Routine
import Bindery.Access.Row
import Bindery.Access.Script
import Bindery.Action.Basic
import Bindery.Action.Compiled
import Bindery.Action.Condition
import Bindery.Action.Reference
import Bindery.Calendar
import Bindery.Code.Argument
import Bindery.Code.Literal
import Bindery.Code.Method
import Bindery.Code.Module
import Bindery.Code.TypeText
import Bindery.Dialect
import Bindery.Fault
import Bindery.Group
import Bindery.Json.Basic
import Bindery.Json.Decode
import Bindery.Json.Printer
import Bindery.Json.Reader
import Bindery.Name.Allocator
import Bindery.Name.Identifier
import Bindery.Name.Words
import Bindery.Number.Binary
import Bindery.Number.Layout
import Bindery.Number.Reading
import Bindery.Number.Shortest
import Bindery.Options
import Bindery.Proofs.Access.Course
import Bindery.Proofs.Access.Fetching
import Bindery.Proofs.Access.Passage
import Bindery.Proofs.Access.Performed
import Bindery.Proofs.Access.Variables
import Bindery.Proofs.Action.Parameters
import Bindery.Proofs.Action.Wrapper
import Bindery.Proofs.Calendar
import Bindery.Proofs.Code.Arguments
import Bindery.Proofs.Code.Call
import Bindery.Proofs.Code.Claimed
import Bindery.Proofs.Code.MethodText
import Bindery.Proofs.Code.Module
import Bindery.Proofs.Code.StringLiteral
import Bindery.Proofs.Code.ValueLiteral
import Bindery.Proofs.Group
import Bindery.Proofs.Json.RoundTrip
import Bindery.Proofs.Name.Allocator
import Bindery.Proofs.Name.Identifier
import Bindery.Proofs.Name.Spelling
import Bindery.Proofs.Name.Words
import Bindery.Proofs.Outcome
import Bindery.Proofs.Query.Reading
import Bindery.Proofs.Query.Rows
import Bindery.Proofs.Schema.Creation
import Bindery.Proofs.Schema.DatabaseNames
import Bindery.Proofs.Schema.Defaults
import Bindery.Proofs.Schema.Json
import Bindery.Proofs.Schema.Registry
import Bindery.Proofs.Scope
import Bindery.Proofs.Scope.DerivedNames
import Bindery.Proofs.Scope.Resolution
import Bindery.Proofs.Shape
import Bindery.Proofs.Statement.Acceptance
import Bindery.Proofs.Statement.Assignments
import Bindery.Proofs.Statement.BranchModes
import Bindery.Proofs.Statement.Branches
import Bindery.Proofs.Statement.ColumnKeys
import Bindery.Proofs.Statement.Conflicts
import Bindery.Proofs.Statement.Contents
import Bindery.Proofs.Statement.Layout
import Bindery.Proofs.Statement.Lexing
import Bindery.Proofs.Statement.Literals
import Bindery.Proofs.Statement.Occurrences
import Bindery.Proofs.Statement.Placeholders
import Bindery.Proofs.Statement.Restriction
import Bindery.Proofs.Statement.Spacing
import Bindery.Proofs.Statement.Truth
import Bindery.Proofs.Statement.Yields
import Bindery.Proofs.Text.Ascii
import Bindery.Proofs.Text.ByteOrder
import Bindery.Proofs.Text.Formula
import Bindery.Proofs.Text.Numeral
import Bindery.Proofs.Text.QuestionMark
import Bindery.Proofs.Text.Token
import Bindery.Proofs.Transaction.Arguments
import Bindery.Proofs.Transaction.Dialect
import Bindery.Proofs.Transaction.Planned
import Bindery.Proofs.Transaction.Returns
import Bindery.Proofs.Transaction.Simulation
import Bindery.Proofs.Transaction.Single
import Bindery.Proofs.Transaction.Sources
import Bindery.Proofs.Writer.Basic
import Bindery.Proofs.Writer.Compiled
import Bindery.Proofs.Writer.Select
import Bindery.Schema.Column
import Bindery.Schema.ColumnType
import Bindery.Schema.Creation
import Bindery.Schema.Json
import Bindery.Schema.Registry
import Bindery.Schema.Table
import Bindery.Scope
import Bindery.Shape
import Bindery.Statement.Basic
import Bindery.Statement.Draft
import Bindery.Statement.Filter
import Bindery.Statement.Order
import Bindery.Statement.Prepared
import Bindery.Statement.Select
import Bindery.Statement.Union
import Bindery.Statement.Write
import Bindery.Text.Blank
import Bindery.Text.LetterCase
import Bindery.Text.Numeral
import Bindery.Text.Quoted
import Bindery.Transaction.Basic
import Bindery.Transaction.Plan
import Bindery.Value.Basic
import Bindery.Value.Json
import Bindery.Writer.Basic
import Bindery.Writer.Change
import Bindery.Writer.Select

import StockFlow.Catalog
import StockFlow.Command.Invocation
import StockFlow.Command.Run
import StockFlow.Dialect.Basic
import StockFlow.Dialect.CallPattern
import StockFlow.Dialect.Config
import StockFlow.Dialect.FunctionName
import StockFlow.Dialect.Options
import StockFlow.Document.Basic
import StockFlow.Document.Part
import StockFlow.Engine.Attribute
import StockFlow.Engine.Classification
import StockFlow.Engine.Status
import StockFlow.Equation.Call
import StockFlow.Equation.Piece
import StockFlow.Equation.Reference
import StockFlow.Equation.Token
import StockFlow.Error
import StockFlow.Graph.Basic
import StockFlow.Graph.Classification
import StockFlow.Json.Basic
import StockFlow.Json.Pretty
import StockFlow.Json.Reader
import StockFlow.Line.Basic
import StockFlow.Line.Join
import StockFlow.Line.Mark
import StockFlow.Line.Wrap
import StockFlow.Main
import StockFlow.Model.Basic
import StockFlow.Model.Check
import StockFlow.Model.Edit
import StockFlow.Model.Export
import StockFlow.Model.Load
import StockFlow.Proofs.AnswerBytes
import StockFlow.Proofs.Arguments
import StockFlow.Proofs.Authored
import StockFlow.Proofs.BlockShape
import StockFlow.Proofs.Building
import StockFlow.Proofs.Catalogs
import StockFlow.Proofs.Characters
import StockFlow.Proofs.Comments
import StockFlow.Proofs.Commuting
import StockFlow.Proofs.Contents
import StockFlow.Proofs.Edges
import StockFlow.Proofs.Endings
import StockFlow.Proofs.EngineRoles
import StockFlow.Proofs.FirstCall
import StockFlow.Proofs.FunctionNames
import StockFlow.Proofs.Greedy
import StockFlow.Proofs.Incremental
import StockFlow.Proofs.Inflows
import StockFlow.Proofs.Joining
import StockFlow.Proofs.Layout
import StockFlow.Proofs.LeadingCalls
import StockFlow.Proofs.ListedParents
import StockFlow.Proofs.Literals
import StockFlow.Proofs.Loading
import StockFlow.Proofs.Mismatch
import StockFlow.Proofs.Names
import StockFlow.Proofs.Nesting
import StockFlow.Proofs.OneLine
import StockFlow.Proofs.Partition
import StockFlow.Proofs.Placeholder
import StockFlow.Proofs.Places
import StockFlow.Proofs.QuotedNames
import StockFlow.Proofs.Reading
import StockFlow.Proofs.Rebuilding
import StockFlow.Proofs.Refusals
import StockFlow.Proofs.Rejoining
import StockFlow.Proofs.Reloading
import StockFlow.Proofs.Reordering
import StockFlow.Proofs.Rereading
import StockFlow.Proofs.Rewriting
import StockFlow.Proofs.RoundTrip
import StockFlow.Proofs.Runs
import StockFlow.Proofs.Scanning
import StockFlow.Proofs.Spans
import StockFlow.Proofs.Spellings
import StockFlow.Proofs.Tiling
import StockFlow.Proofs.Trimming
import StockFlow.Proofs.Unedited
import StockFlow.Proofs.Utf8
import StockFlow.Proofs.Written
import StockFlow.Report
import StockFlow.Text.Basic
import StockFlow.Text.Quoted
import StockFlow.Text.Utf8
import StockFlow.Unicode.Alphanumeric
import StockFlow.Unicode.Blank
import StockFlow.Unicode.CaseFold
import StockFlow.Unicode.Graphic
import StockFlow.Unicode.Identifier
import StockFlow.Unicode.Ranges
import StockFlow.Unicode.UpperCase
import StockFlow.Variable.Block
import StockFlow.Variable.Dependency
import StockFlow.Variable.Record
import StockFlow.Proofs.FunctionNames

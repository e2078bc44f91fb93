import Externs.Comment
import Externs.Compile
import Externs.Conventions
import Externs.Decimal.Binary64
import Externs.Decimal.Shortest
import Externs.Declaration.Basic
import Externs.Declaration.OfModel
import Externs.Diagnostic
import Externs.Enumeration
import Externs.Failure
import Externs.FileTree
import Externs.Generator
import Externs.Json.Basic
import Externs.Json.Lexeme
import Externs.Json.Numbers
import Externs.Json.Pretty
import Externs.Json.Problem
import Externs.Json.Reader
import Externs.Json.Record
import Externs.Json.Skip
import Externs.Json.Strings
import Externs.Json.Typed
import Externs.Layout.Listing
import Externs.Layout.Script
import Externs.Layout.Wrap
import Externs.Log
import Externs.Model.Basic
import Externs.Model.Defect
import Externs.Model.Dump
import Externs.Pipeline
import Externs.Schema.Document
import Externs.Schema.Lowering
import Externs.Schema.Node
import Externs.Schema.Rejection
import Externs.Text.Blank
import Externs.Text.Line
import Externs.Text.Position
import Externs.Text.Quoted
import Externs.Text.Shown
import Externs.TypeExpr.Basic
import Externs.TypeExpr.OfType
import Externs.Proofs.Model.Name
import Externs.Proofs.Model.Violations
import Externs.Proofs.TypeExpr.Erased
import Externs.Proofs.TypeExpr.Unambiguous
import Externs.Proofs.Declaration.Statements
import Externs.Proofs.Json.Reading
import Externs.Proofs.Schema.Compiled
import Externs.Proofs.Declaration.Targets
import Externs.Proofs.Comment.Blanked
import Externs.Proofs.Schema.Shape
import Externs.Proofs.Schema.Places
import Externs.Proofs.Declaration.Composition
import Externs.Proofs.Schema.Representable
import Externs.Proofs.Layout.Ink
import Externs.Proofs.Layout.Wrapped
import Externs.Proofs.Declaration.Reflow
import Externs.Proofs.Layout.Documented
import Externs.Proofs.Declaration.DocLines
import Externs.Proofs.Comment.Segments
import Externs.Proofs.Json.Yields
import Externs.Proofs.Schema.Nesting
import Externs.Proofs.Json.Printed
import Externs.Proofs.Model.Restored
import Externs.Proofs.Layout.Width
import Externs.Proofs.Layout.Words
import Externs.Proofs.TypeExpr.Listed
import Externs.Proofs.Schema.NamedUse
import Externs.Proofs.TypeExpr.Braces
import Externs.Proofs.Text.Offsets
import Externs.Proofs.Enumeration.Keys
import Externs.Proofs.Layout.Program
import Externs.Proofs.Layout.Unclosed
import Externs.Proofs.JavaScript.StringLiteral

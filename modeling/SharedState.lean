import SharedState.Bindings
import SharedState.Check
import SharedState.Command.Drawing
import SharedState.Command.Options
import SharedState.Command.Request
import SharedState.Command.Run
import SharedState.Console
import SharedState.Datum
import SharedState.Decimal
import SharedState.Diagnostic
import SharedState.Diagram.Mermaid
import SharedState.Diagram.Outline
import SharedState.Document
import SharedState.Document.Graph
import SharedState.Document.Schema
import SharedState.Exemption
import SharedState.Files.Discovery
import SharedState.Files.FilePath
import SharedState.Files.Tree
import SharedState.Graph
import SharedState.Input
import SharedState.Json.Reader
import SharedState.Json.Writer
import SharedState.Kind
import SharedState.Ledger
import SharedState.Log
import SharedState.Main
import SharedState.Program.Build
import SharedState.Program.ClassDecl
import SharedState.Program.Members
import SharedState.Program.Scope
import SharedState.Proofs.JsonText
import SharedState.Proofs.Reachability
import SharedState.Proofs.Retyping
import SharedState.Proofs.Widening
import SharedState.Schema
import SharedState.Settings
import SharedState.Settings.Load
import SharedState.Settings.Schema
import SharedState.Source.Expr
import SharedState.Source.Grammar
import SharedState.Source.Lexer
import SharedState.Source.Literal
import SharedState.Source.Numeral
import SharedState.Source.Parse
import SharedState.Source.Pattern
import SharedState.Source.Quoted
import SharedState.Source.Statement
import SharedState.Source.Syntax
import SharedState.Source.Token
import SharedState.Symbol
import SharedState.Text.Blank
import SharedState.Text.CellWidth
import SharedState.Text.CharName
import SharedState.Text.Dotted
import SharedState.Text.Glob
import SharedState.Text.Identifier
import SharedState.Text.Markup
import SharedState.Text.Shown
import SharedState.Text.Styled
import SharedState.Text.Utf8
import SharedState.Text.Wrap
import SharedState.Toml.Reader
import SharedState.Toml.Scalar
import SharedState.TypeExpr
import SharedState.TypeRef
import SharedState.Walk
import SharedState.Proofs.DocumentText
import SharedState.Proofs.TypeText
import SharedState.Proofs.TypeTokens
import SharedState.Proofs.TypeGrammar
import SharedState.Proofs.Conversion
import SharedState.Proofs.Portable
import SharedState.Proofs.DocumentGraph
import SharedState.Proofs.RoundTrip
import SharedState.Proofs.ReadBack
import SharedState.Proofs.ModuleNames
import SharedState.Proofs.Declarations
import SharedState.Proofs.ClassMembers
import SharedState.Proofs.SourceGraph
import SharedState.Proofs.Export
import SharedState.Proofs.Findings
import SharedState.Proofs.Marking
import SharedState.Proofs.Trace
import SharedState.Proofs.Rearrangement
import SharedState.Proofs.DocumentOrder
import SharedState.Proofs.Elaboration
import SharedState.Proofs.TopLevel
import SharedState.Proofs.ModuleOrder
import SharedState.Proofs.Observers
import SharedState.Proofs.Records
import SharedState.Proofs.Unreached
import SharedState.Proofs.Singletons
import SharedState.Proofs.MoreRoots
import SharedState.Proofs.WideningSteps
import SharedState.Proofs.Recursion
import SharedState.Proofs.Annotations
import SharedState.Proofs.Inputs
import SharedState.Proofs.CheckEndings
import SharedState.Proofs.OutputModes
import SharedState.Proofs.JsonMode
import SharedState.Proofs.Sessions
import SharedState.Proofs.Rebuilding
import SharedState.Proofs.Addresses
import SharedState.Proofs.ClassSites
import SharedState.Proofs.AnnotationMeaning
import SharedState.Proofs.ConsoleRuns
import SharedState.Proofs.WrittenGraphs
import SharedState.Proofs.ClassFields
import SharedState.Proofs.Renaming
import SharedState.Proofs.DocumentMeaning
import SharedState.Proofs.Attributes
import SharedState.Proofs.Diagram
import SharedState.Proofs.RelativeImports
import SharedState.Proofs.UnionSpellings
import SharedState.Proofs.NormalForms
import SharedState.Proofs.UnionWidening
import SharedState.Proofs.MarkerStability
import SharedState.Proofs.LiteralLength
import SharedState.Proofs.WrittenLiterals
import SharedState.Proofs.StatementLiterals
import SharedState.Proofs.ForwardReferences
import SharedState.Proofs.ClassStore

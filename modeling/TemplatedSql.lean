import TemplatedSql.Catalog
import TemplatedSql.CommandLine.Help
import TemplatedSql.CommandLine.Request
import TemplatedSql.CommandLine.Run
import TemplatedSql.Config
import TemplatedSql.Diagnostic
import TemplatedSql.Error
import TemplatedSql.Eval.Call
import TemplatedSql.Eval.Context
import TemplatedSql.Eval.Render
import TemplatedSql.FileTree
import TemplatedSql.Main
import TemplatedSql.Number.Binary
import TemplatedSql.Number.Decimal
import TemplatedSql.Path
import TemplatedSql.Position
import TemplatedSql.Project
import TemplatedSql.Project.Compile
import TemplatedSql.Proofs.Arena
import TemplatedSql.Proofs.Evaluation
import TemplatedSql.Proofs.Frame
import TemplatedSql.Proofs.Session
import TemplatedSql.Scope
import TemplatedSql.Session
import TemplatedSql.SourceFile
import TemplatedSql.Table
import TemplatedSql.Text.Blank
import TemplatedSql.Text.CaseTable
import TemplatedSql.Text.Casing
import TemplatedSql.Text.Quoted
import TemplatedSql.Text.Search
import TemplatedSql.Token
import TemplatedSql.Token.Lexeme
import TemplatedSql.Token.Locator
import TemplatedSql.Token.Scan
import TemplatedSql.Toml.Document
import TemplatedSql.Toml.Scalar
import TemplatedSql.Toml.Statement
import TemplatedSql.Toml.Text
import TemplatedSql.Toml.Tree
import TemplatedSql.Toml.Value
import TemplatedSql.Tree
import TemplatedSql.Tree.Parser.Body
import TemplatedSql.Tree.Parser.Expr
import TemplatedSql.Tree.Parser.Step
import TemplatedSql.Tree.Printer
import TemplatedSql.Value
import TemplatedSql.Value.Action
import TemplatedSql.Value.Argument
import TemplatedSql.Value.Method
import TemplatedSql.Value.Operator
import TemplatedSql.WorkPool
import TemplatedSql.Proofs.Alike.Value
import TemplatedSql.Proofs.Alike.Operator
import TemplatedSql.Proofs.Alike.Call
import TemplatedSql.Proofs.Alike.Context
import TemplatedSql.Proofs.Alike.Block
import TemplatedSql.Proofs.Alike.Evaluation
import TemplatedSql.Proofs.Release
import TemplatedSql.Proofs.LexicalScope
import TemplatedSql.Proofs.Activity
import TemplatedSql.Proofs.Termination
import TemplatedSql.Proofs.Token.Layout
import TemplatedSql.Proofs.Grammar.Derivation
import TemplatedSql.Proofs.Grammar.Reads
import TemplatedSql.Proofs.Grammar.Lookahead
import TemplatedSql.Proofs.Grammar.Complete
import TemplatedSql.Proofs.Grammar.Sound
import TemplatedSql.Proofs.Grammar.Unique
import TemplatedSql.Proofs.Grammar.Accept
import TemplatedSql.Proofs.Number.Sign
import TemplatedSql.Proofs.Number.Text
import TemplatedSql.Proofs.Printing.Legible
import TemplatedSql.Proofs.Printing.Scanning
import TemplatedSql.Proofs.Printing.ReadBack
import TemplatedSql.Proofs.Printing.RoundTrip
import TemplatedSql.Proofs.WorkPool.Account
import TemplatedSql.Proofs.WorkPool.Serial
import TemplatedSql.Proofs.WorkPool.Failure
import TemplatedSql.Proofs.Project.Catalog
import TemplatedSql.Proofs.Project.Compile
import TemplatedSql.Proofs.WorkPool.Step
import TemplatedSql.Proofs.Relocation.Tree
import TemplatedSql.Proofs.Relocation.Value
import TemplatedSql.Proofs.Relocation.Call
import TemplatedSql.Proofs.Relocation.Evaluation
import TemplatedSql.Proofs.Grammar.Places
import TemplatedSql.Proofs.Printing.Clean
import TemplatedSql.Proofs.Printing.Outside
import TemplatedSql.Proofs.Printing.Tag
import TemplatedSql.Proofs.Printing.Template
import TemplatedSql.Proofs.Binding
import TemplatedSql.Proofs.Import.Chronicle
import TemplatedSql.Proofs.Import.Failure
import TemplatedSql.Proofs.Import.Once
import TemplatedSql.Proofs.Token.Places
import TemplatedSql.Proofs.Token.Trimming
import TemplatedSql.Proofs.Project.Listing
import TemplatedSql.Proofs.Import.Closed
import TemplatedSql.Proofs.Import.Origin
import TemplatedSql.Proofs.Project.Library
import TemplatedSql.Proofs.Project.Relation
import TemplatedSql.Proofs.Project.Independence
import TemplatedSql.Proofs.Project.Recall
import TemplatedSql.Proofs.Project.Agreement
import TemplatedSql.Proofs.Unplaced.Value
import TemplatedSql.Proofs.Unplaced.Context
import TemplatedSql.Proofs.Unplaced.Evaluation
import TemplatedSql.Proofs.Unplaced.Render
import TemplatedSql.Proofs.Project.Reformatting
import TemplatedSql.Proofs.Provenance.Value
import TemplatedSql.Proofs.Provenance.Evaluation
import TemplatedSql.Proofs.Provenance.Render
import TemplatedSql.Proofs.Provenance.Reach
import TemplatedSql.Proofs.Provenance.Names
import TemplatedSql.Proofs.Project.Provenance
import TemplatedSql.Proofs.Project.ErrorPlace
import TemplatedSql.Proofs.Grammar.ErrorPlace
import TemplatedSql.Proofs.Grammar.Shape
import TemplatedSql.Proofs.Range
import TemplatedSql.Proofs.Token.Munch
import TemplatedSql.Proofs.Equality
import TemplatedSql.Proofs.Project.Reference
import TemplatedSql.Proofs.Splitting
import TemplatedSql.Proofs.Grammar.Advance
import TemplatedSql.Proofs.Grammar.Expression
import TemplatedSql.Proofs.Grammar.Progress

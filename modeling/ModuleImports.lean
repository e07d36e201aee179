import ModuleImports.Main
import ModuleImports.Command.FileTree
import ModuleImports.Proofs.Token.Literal
import ModuleImports.Proofs.Import.Layout
import ModuleImports.Proofs.Import.Piecewise
import ModuleImports.Proofs.Import.Records
import ModuleImports.Proofs.Import.Extension
import ModuleImports.Proofs.Import.Front
import ModuleImports.Proofs.Json.ReadBack
import ModuleImports.Proofs.Json.Standard
import ModuleImports.Proofs.Import.RecordJson
import ModuleImports.Proofs.Lexeme.BrokenLiteral
import ModuleImports.Proofs.Token.BrokenLiteral
import ModuleImports.Proofs.Lexeme.LongestNumeral
import ModuleImports.Proofs.Token.Numeral
import ModuleImports.Proofs.Lexeme.Classification
import ModuleImports.Proofs.Token.Classification
import ModuleImports.Proofs.Lexeme.Bounds
import ModuleImports.Proofs.Token.Calls
import ModuleImports.Proofs.Token.Lookahead
import ModuleImports.Proofs.Diagnostic.Label
import ModuleImports.Proofs.Import.Refusal
import ModuleImports.Proofs.Text.Quoted
import ModuleImports.Proofs.Diagnostic.Filling
import ModuleImports.Proofs.Import.OptionsJson
import ModuleImports.Proofs.Import.Descent
import ModuleImports.Proofs.Import.DescentReader
import ModuleImports.Proofs.Import.Progress
import ModuleImports.Proofs.Text.ContextWindow
import ModuleImports.Proofs.Command.Listing
import ModuleImports.Proofs.Command.Run
import ModuleImports.Proofs.Command.Lines
import ModuleImports.Proofs.Command.Legibility

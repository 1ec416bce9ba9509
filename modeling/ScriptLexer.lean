import ScriptLexer.Config.Reader
import ScriptLexer.Files.Disk.Build
import ScriptLexer.Files.Faulty
import ScriptLexer.Files.Memory
import ScriptLexer.Project
import ScriptLexer.Proofs.Lexeme.Boundary
import ScriptLexer.Proofs.Lexeme.Cut
import ScriptLexer.Proofs.Tokens.Run
import ScriptLexer.Proofs.Tokens.Span
import ScriptLexer.Proofs.Tokens.Soundness
import ScriptLexer.Proofs.Tokens.Completeness
import ScriptLexer.Proofs.Tokens.Moved
import ScriptLexer.Proofs.Tokens.Restart
import ScriptLexer.Proofs.Tokens.Concatenation
import ScriptLexer.Proofs.Lexeme.Defect
import ScriptLexer.Proofs.Lexeme.Quotation
import ScriptLexer.Proofs.Reference.Lookup
import ScriptLexer.Proofs.Tokens.Stop
import ScriptLexer.Proofs.Errors.Anchor
import ScriptLexer.Proofs.Errors.Finality
import ScriptLexer.Proofs.Access.Discipline
import ScriptLexer.Proofs.Access.Opacity
import ScriptLexer.Proofs.Tokens.Blocks
import ScriptLexer.Proofs.Path.Components
import ScriptLexer.Proofs.Path.Below
import ScriptLexer.Proofs.Path.Sibling
import ScriptLexer.Proofs.Reference.Variants
import ScriptLexer.Proofs.Reference.Containment
import ScriptLexer.Proofs.Disk.Tree
import ScriptLexer.Proofs.Disk.Walk
import ScriptLexer.Proofs.Disk.Build
import ScriptLexer.Proofs.Disk.Locate
import ScriptLexer.Proofs.Tokens.Simulation
import ScriptLexer.Proofs.Files.Memory
import ScriptLexer.Proofs.Reference.Precedence
import ScriptLexer.Proofs.Files.Agreement
import ScriptLexer.Proofs.Project.Loading
import ScriptLexer.Proofs.Project.Relocation
import ScriptLexer.Proofs.Text.Lines
import ScriptLexer.Proofs.Text.Utf8
import ScriptLexer.Proofs.Disk.Content
import ScriptLexer.Proofs.Tokens.Positions
import ScriptLexer.Proofs.Reference.Addressing
import ScriptLexer.Proofs.Reference.Grammar
import ScriptLexer.Proofs.Tokens.Rounds
import ScriptLexer.Proofs.Json.Grammar
import ScriptLexer.Proofs.Json.Text
import ScriptLexer.Proofs.Json.Number
import ScriptLexer.Proofs.Json.Value
import ScriptLexer.Proofs.Config.Document
import ScriptLexer.Proofs.Config.RoundTrip

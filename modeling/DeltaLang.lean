import DeltaLang.Main
import DeltaLang.SumType.Expansion
import DeltaLang.Proofs.Acceptance
import DeltaLang.Proofs.Ir.Acceptance
import DeltaLang.Proofs.Assembly.Acceptance
import DeltaLang.Proofs.Backends
import DeltaLang.Proofs.Assembly.Machine
import DeltaLang.Proofs.Assembly.Label
import DeltaLang.Proofs.Assembly.Simulation
import DeltaLang.Proofs.Assembly.Reader
import DeltaLang.Proofs.Assembly.Correctness
import DeltaLang.Proofs.Ir.Machine
import DeltaLang.Proofs.Ir.Emission
import DeltaLang.Proofs.Ir.Simulation
import DeltaLang.Proofs.Ir.Correctness
import DeltaLang.Proofs.Text.Hex
import DeltaLang.Proofs.Text.Utf8
import DeltaLang.Proofs.Text.Quoted
import DeltaLang.Proofs.Text.Characters
import DeltaLang.Proofs.Token.Shape
import DeltaLang.Proofs.Token.Items
import DeltaLang.Proofs.Token.Scan
import DeltaLang.Proofs.Token.Segments
import DeltaLang.Proofs.Token.Position
import DeltaLang.Proofs.Token.Separation
import DeltaLang.Proofs.Token.Words
import DeltaLang.Proofs.Tree.Grammar
import DeltaLang.Proofs.Tree.Parser
import DeltaLang.Proofs.Tree.Render
import DeltaLang.Proofs.Tree.Viable
import DeltaLang.Proofs.Tree.Expected
import DeltaLang.Proofs.Literal
import DeltaLang.Proofs.Supported
import DeltaLang.Proofs.Assembly.Stack
import DeltaLang.Proofs.Compile
import DeltaLang.Proofs.Assembly.Emission
import DeltaLang.Proofs.Assembly.Reference
import DeltaLang.Proofs.Ir.Names
import DeltaLang.Proofs.Ir.WellFormed
import DeltaLang.Proofs.Functions
import DeltaLang.Proofs.Ir.Symbols
import DeltaLang.Proofs.Tree.Words
import DeltaLang.Proofs.Typing
import DeltaLang.Proofs.Yaml.Input
import DeltaLang.Proofs.Yaml.Scalar
import DeltaLang.Proofs.Yaml.Scanner
import DeltaLang.Proofs.Yaml.Node
import DeltaLang.Proofs.Manifest
import DeltaLang.Proofs.Tree.Cursor
import DeltaLang.Proofs.Diagnostic
import DeltaLang.Proofs.Json
import DeltaLang.Proofs.SumType
import DeltaLang.Proofs.TypeInfo

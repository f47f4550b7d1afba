import CilAssembly.Binary
import CilAssembly.Brainfuck.Lowering
import CilAssembly.Brainfuck.Parser
import CilAssembly.Brainfuck.Program
import CilAssembly.Brainfuck.SyntaxError
import CilAssembly.CilType
import CilAssembly.ClassName
import CilAssembly.CommandLine.Arguments
import CilAssembly.CommandLine.FileSystem
import CilAssembly.CommandLine.Run
import CilAssembly.CommandLine.SystemTree
import CilAssembly.Context
import CilAssembly.Context.Branches
import CilAssembly.Context.Declarations
import CilAssembly.Context.Emission
import CilAssembly.Context.Items
import CilAssembly.Context.Methods
import CilAssembly.Context.Storage
import CilAssembly.Duration
import CilAssembly.Identifier
import CilAssembly.Image
import CilAssembly.Instruction
import CilAssembly.Label
import CilAssembly.Labels
import CilAssembly.Listing
import CilAssembly.MachineType
import CilAssembly.Main
import CilAssembly.Opcode
import CilAssembly.Output
import CilAssembly.Peephole
import CilAssembly.Reporter
import CilAssembly.Scope
import CilAssembly.Source.Lines
import CilAssembly.Source.Span
import CilAssembly.Stop
import CilAssembly.StringLiteral
import CilAssembly.SyntaxTree
import CilAssembly.Text.Digits
import CilAssembly.Text.Dump
import CilAssembly.Text.Unprintable
import CilAssembly.UsageTable
import CilAssembly.Proofs.Evaluation.Execution
import CilAssembly.Proofs.Evaluation.Refinement
import CilAssembly.Proofs.Peephole.Rules
import CilAssembly.Proofs.Peephole.Window
import CilAssembly.Proofs.Peephole.Meaning
import CilAssembly.Proofs.Brainfuck.Execution
import CilAssembly.Proofs.Brainfuck.Code
import CilAssembly.Proofs.Brainfuck.Simulation
import CilAssembly.Proofs.Brainfuck.EntryPoint
import CilAssembly.Proofs.Brainfuck.Lowering
import CilAssembly.Proofs.Generation.Methods
import CilAssembly.Proofs.Brainfuck.Compilation
import CilAssembly.Proofs.Brainfuck.Brackets
import CilAssembly.Proofs.Brainfuck.Reading
import CilAssembly.Proofs.Brainfuck.Folding
import CilAssembly.Proofs.Generation.Effects
import CilAssembly.Proofs.Generation.Output
import CilAssembly.Proofs.Generation.Ledger
import CilAssembly.Proofs.Generation.Placement
import CilAssembly.Proofs.Generation.Resolution
import CilAssembly.Proofs.Brainfuck.Observation
import CilAssembly.Proofs.Brainfuck.StackHeight
import CilAssembly.Proofs.Dataflow.Tables
import CilAssembly.Proofs.Lexical.Entry
import CilAssembly.Proofs.Lexical.Nesting
import CilAssembly.Proofs.Brainfuck.Statements
import CilAssembly.Proofs.Dataflow.Joins
import CilAssembly.Proofs.Lexical.Bindings
import CilAssembly.Proofs.Source.Lines
import CilAssembly.Proofs.Brainfuck.EmptyLoops
import CilAssembly.Proofs.Brainfuck.Warnings
import CilAssembly.Proofs.Brainfuck.Comments
import CilAssembly.Proofs.Lexical.Scopes
import CilAssembly.Proofs.Brainfuck.Spans
import CilAssembly.Proofs.Spelling.Names
import CilAssembly.Proofs.Spelling.Signatures
import CilAssembly.Proofs.Generation.Slots
import CilAssembly.Proofs.Spelling.Literals
import CilAssembly.Proofs.Spelling.Identifiers
import CilAssembly.Proofs.Generation.Storage
import CilAssembly.Proofs.Spelling.References

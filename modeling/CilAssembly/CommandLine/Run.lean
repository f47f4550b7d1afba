import CilAssembly.Brainfuck.Lowering
import CilAssembly.Brainfuck.Parser
import CilAssembly.CommandLine.Arguments
import CilAssembly.Duration

/-! What the command line does: read a program, compile it and write the listing. -/
namespace CilAssembly.CommandLine

/-- Why a file cannot be read or written. -/
inductive FileError
  | notFound
  | noDevice
  | notADirectory
  | isADirectory
  | busy
  | noSpace
  | nameTooLong
  | notText
  | other (reason : String)
  deriving DecidableEq, Repr, Inhabited

namespace FileError

def message : FileError → String
  | .notFound => "No such file or directory (os error 2)"
  | .noDevice => "No such device or address (os error 6)"
  | .notADirectory => "Not a directory (os error 20)"
  | .isADirectory => "Is a directory (os error 21)"
  | .busy => "Text file busy (os error 26)"
  | .noSpace => "No space left on device (os error 28)"
  | .nameTooLong => "File name too long (os error 36)"
  | .notText => "stream did not contain valid UTF-8"
  | .other reason => reason

end FileError

/-- What the command line needs from its surroundings. The clock counts nanoseconds. -/
structure Host (m : Type → Type) where
  readText : String → m (Except FileError String)
  writeText : String → String → m (Except FileError Unit)
  print : String → m Unit
  printError : String → m Unit
  showReport : Brainfuck.Report → m Unit
  clock : m Nat

/-- Reports what stopped a unit. It belongs to no node and goes to the first line of the file. -/
def reportFatal (path : String) (failure : Failure) (reporter : Reporter) : Reporter :=
  reporter.report ⟨.error, ⟨path, 1⟩, "fatal: " ++ failure.message⟩

/-- The options of a unit by the arguments. -/
def Arguments.options (a : Arguments) : Options :=
  { peephole := !a.flags.noPeephole
    checked := a.flags.checked
    assemblyName := a.assemblyName.getD "program" }

variable {m : Type → Type} [Monad m]

/-- Writes a finished listing out and shows what was asked for. -/
def writeListing (host : Host m) (a : Arguments) (listing : Listing) (parsing generating : Nat) :
    m Unit := do
  let start ← host.clock
  let text := listing.render
  match ← host.writeText a.outputPath text with
  | .error e =>
    host.printError ("Error writing file " ++ a.outputPath ++ ": " ++
      (Failure.cannotWrite e.message).message ++ "\n")
  | .ok () =>
    let writing := (← host.clock) - start
    if a.flags.dumpListing then host.print ("Generated CIL assembly:\n" ++ text)
    if a.flags.traceTime then
      host.print ("Compilation time breakdown:\n" ++
        " - Parsing time:     " ++ Duration.render parsing ++ "\n" ++
        " - Codegen time:     " ++ Duration.render generating ++ "\n" ++
        " - Writing time:     " ++ Duration.render writing ++ "\n")

/-- Generates a unit from a program and writes it out. -/
def compileProgram (host : Host m) (a : Arguments) (text : String) (program : Brainfuck.Program)
    (parsing : Nat) : m Unit := do
  let start ← host.clock
  match Brainfuck.compile a.path text program (Context.create a.options) with
  | .error (.violation v) c => host.printError (c.reporter.streamFrom 0 ++ v.message ++ "\n")
  | .error (.failure f) c =>
    host.printError ((reportFatal a.path f c.reporter).streamFrom 0)
  | .ok tree c =>
    let generating := (← host.clock) - start
    host.printError (c.reporter.streamFrom 0)
    if a.flags.dumpTree then
      host.print ("AST:\n" ++ String.join (tree.dumpLines.map fun line => " " ++ line ++ "\n"))
    if !c.reporter.hasErrors then
      match Gen.finish c with
      | .ok listing _ => writeListing host a listing parsing generating
      | .error (.violation v) _ => host.printError (v.message ++ "\n")
      | .error (.failure f) _ => host.printError (f.message ++ "\n")

/-- Compiles the file that the arguments name. -/
def compileFile (host : Host m) (a : Arguments) : m Unit := do
  match ← host.readText a.path with
  | .error e => host.printError ("Error reading file " ++ a.path ++ ": " ++ e.message ++ "\n")
  | .ok text =>
    let start ← host.clock
    match Brainfuck.Program.ofText text with
    | .error e => host.showReport (e.report a.path text (Brainfuck.unclosedBracket text))
    | .ok program =>
      let parsing := (← host.clock) - start
      compileProgram host a text program parsing

def usage : String :=
  "usage: [compile] [file] [-o output] [--dump-ast] [--dump-il] [--trace-time] [--no-peephole] " ++
    "[--checked] [--assembly-name name] [-v]\n"

/-- Does what a command line asks for and gives the exit code. Only arguments that are not understood
give one other than zero. -/
def run (host : Host m) (args : List String) : m UInt32 := do
  match Request.ofList args with
  | some (.compile a) => compileFile host a; return 0
  | some .help => host.print usage; return 0
  | some .version => host.print "0.1.0\n"; return 0
  | none => host.printError usage; return 2

end CilAssembly.CommandLine

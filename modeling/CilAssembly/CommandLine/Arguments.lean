/-!
The arguments of the command line. The arguments of the `compile` command may stand alone; where the
command is named, only what follows it counts. The other command is `help`, which takes the name of a
command and nothing else.
-/
namespace CilAssembly.CommandLine

/-- The switches that take no value. -/
structure Flags where
  dumpTree : Bool := false
  dumpListing : Bool := false
  traceTime : Bool := false
  noPeephole : Bool := false
  checked : Bool := false
  verbose : Bool := false
  deriving DecidableEq, Repr, Inhabited

structure Arguments where
  file : Option String := none
  output : Option String := none
  assemblyName : Option String := none
  flags : Flags := {}
  deriving DecidableEq, Repr, Inhabited

namespace Arguments

/-- Sets what must not be set twice. -/
def setOnce {α : Type} (old : Option α) (value : α) : Option (Option α) :=
  if old.isSome then none else some (some value)

/-- Raises a switch that must not be raised twice. -/
def raiseOnce (old : Bool) : Option Bool :=
  if old then none else some true

/-- Raises the switch of a long name. -/
def raise (a : Arguments) (name : String) : Option Arguments := do
  let f := a.flags
  match name with
  | "dump-ast" => return { a with flags := { f with dumpTree := ← raiseOnce f.dumpTree } }
  | "dump-il" => return { a with flags := { f with dumpListing := ← raiseOnce f.dumpListing } }
  | "trace-time" => return { a with flags := { f with traceTime := ← raiseOnce f.traceTime } }
  | "no-peephole" => return { a with flags := { f with noPeephole := ← raiseOnce f.noPeephole } }
  | "checked" => return { a with flags := { f with checked := ← raiseOnce f.checked } }
  | "verbose" => return { a with flags := { f with verbose := ← raiseOnce f.verbose } }
  | _ => none

/-- The options that take a value. -/
inductive Setting
  | output | assemblyName
  deriving DecidableEq, Repr, Inhabited

def Setting.ofLong? : String → Option Setting
  | "output" => some .output
  | "assembly-name" => some .assemblyName
  | _ => none

def assign (a : Arguments) (setting : Setting) (value : String) : Option Arguments := do
  match setting with
  | .output => return { a with output := ← setOnce a.output value }
  | .assemblyName => return { a with assemblyName := ← setOnce a.assemblyName value }

def setFile (a : Arguments) (value : String) : Option Arguments := do
  return { a with file := ← setOnce a.file value }

/-- What an argument of a command line is. -/
inductive Shape
  /-- The mark after which every argument is a file. -/
  | separator
  /-- An option by its long name, with a value if one is attached. -/
  | long (name : String) (value : Option String)
  /-- Options by their one-letter names. -/
  | short (letters : List Char)
  | plain
  deriving DecidableEq, Repr, Inhabited

/-- Splits a text at the first equals sign. -/
def splitValue (text : List Char) : String × Option String :=
  let name := text.takeWhile (· != '=')
  let value := match text.dropWhile (· != '=') with
    | [] => none
    | _ :: value => some (String.ofList value)
  (String.ofList name, value)

def Shape.of (arg : String) : Shape :=
  match arg.toList with
  | ['-', '-'] => .separator
  | '-' :: '-' :: text => let (name, value) := splitValue text; .long name value
  | '-' :: c :: letters => .short (c :: letters)
  | _ => .plain

/-- Reads files only. -/
def ofFiles (a : Arguments) : List String → Option Arguments
  | [] => some a
  | arg :: rest => do ofFiles (← a.setFile arg) rest

/-- The file to compile. -/
def path (a : Arguments) : String :=
  a.file.getD "tests/main.bf"

/-- The file to write. -/
def outputPath (a : Arguments) : String :=
  a.output.getD "a.il"

end Arguments

/-- What a command line asks for. -/
inductive Request
  | compile (a : Arguments)
  | help
  | version
  deriving DecidableEq, Repr, Inhabited

namespace Request

open Arguments (Setting Shape)

/-- The request of an option that needs nothing else. The version is asked for only while a command
may still be named. -/
def ofLong? (command : Bool) : String → Option Request
  | "help" => some .help
  | "version" => if command then some .version else none
  | _ => none

/-- What one-letter options come to. -/
inductive Letters
  | done (a : Arguments)
  /-- The last letter takes a value, which is still to come. -/
  | pending (a : Arguments) (setting : Setting)
  | asked (request : Request)
  deriving DecidableEq, Repr, Inhabited

/-- Reads one-letter options. The letter that takes a value takes the rest of the letters, or leaves
its value to the next argument. -/
def Letters.of (command : Bool) (a : Arguments) : List Char → Option Letters
  | [] => some (.done a)
  | 'v' :: rest => do Letters.of command (← a.raise "verbose") rest
  | 'h' :: _ => some (.asked .help)
  | 'V' :: _ => if command then some (.asked .version) else none
  | 'o' :: [] => some (.pending a .output)
  | 'o' :: '=' :: value => do return .done (← a.assign .output (String.ofList value))
  | 'o' :: value => do return .done (← a.assign .output (String.ofList value))
  | _ :: _ => none

/-- Reads what follows the `help` command. No command has commands of its own. -/
def ofTopics : List String → Option Request
  | [] | ["compile"] | ["help"] => some .help
  | _ => none

/-- Reads the remaining arguments. `command` tells that a command may still be named. -/
def ofListFrom (command : Bool) (a : Arguments) : List String → Option Request
  | [] => some (.compile a)
  | arg :: rest =>
    if command && arg == "compile" then ofListFrom false {} rest
    else if command && arg == "help" then ofTopics rest
    else
      match Shape.of arg with
      | .separator => (a.ofFiles rest).map .compile
      | .plain => do ofListFrom command (← a.setFile arg) rest
      | .long name (some value) => do
        ofListFrom command (← a.assign (← Setting.ofLong? name) value) rest
      | .long name none =>
        match Setting.ofLong? name, ofLong? command name with
        | some setting, _ => valueFrom command a setting rest
        | none, some request => some request
        | none, none => do ofListFrom command (← a.raise name) rest
      | .short letters =>
        match Letters.of command a letters with
        | some (.done a) => ofListFrom command a rest
        | some (.pending a setting) => valueFrom command a setting rest
        | some (.asked request) => some request
        | none => none
where
  /-- Reads the value of an option and then the remaining arguments. -/
  valueFrom (command : Bool) (a : Arguments) (setting : Setting) : List String → Option Request
    | [] => none
    | value :: rest => do
      if Shape.of value != .plain then none
      ofListFrom command (← a.assign setting value) rest

/-- The request of a command line, or none where it is not understood. -/
def ofList (args : List String) : Option Request :=
  ofListFrom true {} args

end Request

end CilAssembly.CommandLine

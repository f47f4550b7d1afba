import CilAssembly.Brainfuck.Program
import CilAssembly.Context.Branches
import CilAssembly.Context.Declarations
import CilAssembly.Context.Items
import CilAssembly.Context.Methods
import CilAssembly.Context.Storage
import CilAssembly.UsageTable

/-!
From program to listing. The program becomes the entry point `Main` of a class of its own, with the
tape as a local byte vector and the pointer as a local index into it. One statement node per command
gives diagnostics their place.
-/
namespace CilAssembly.Brainfuck

/-- The number of cells on the tape. -/
def tapeLength : Int32 := 30000

/-- The class that holds the program. -/
def programClass : String := "BrainfuckProgram"

/-- What the dataflow of a program is about: the two locals, and the output as a third variable that
writing assigns. -/
inductive Tracked
  | tape | pointer | output
  deriving DecidableEq, Repr, Inhabited

def Tracked.slot : Tracked → Nat
  | .tape => 0
  | .pointer => 1
  | .output => 2

/-- What the commands of a program are lowered with: their statement nodes in order, the console
methods and the two locals. -/
structure Target where
  tree : SyntaxTree
  statements : Array NodeId
  write : MethodId
  read : MethodId
  tape : Slot
  pointer : Slot
  deriving Repr, Inhabited

/-- How far lowering has come: the next statement, what is known on the current path and how many
output commands there were. -/
structure Progress where
  next : Nat := 0
  usage : UsageTable := .empty
  writes : Nat := 0
  deriving DecidableEq, Repr, Inhabited

/-- A step of lowering. -/
abbrev Lower := StateT Progress Gen

namespace Lower

/-- Notes what happened to a variable on the current path. -/
def note (what : Tracked) (status : Status) : Lower Unit :=
  modify fun p => { p with usage := p.usage.set what.slot status }

/-- Takes the node of the next statement. -/
def nextStatement (target : Target) : Lower NodeId := do
  let node ← Gen.orViolate (fetch target.statements (← get).next)
  modify fun p => { p with next := p.next + 1 }
  return node

/-- Allocates the tape. The pointer starts at zero, as locals do. -/
def allocateTape (target : Target) : Lower Unit := do
  Gen.loadInt32 tapeLength
  Gen.adjust 1
  Gen.newVector .uint8
  Gen.accessSlot .storeLocal target.tape
  Gen.adjust (-1)
  note .tape .modified

/-- Pushes the tape and the pointer. -/
def cellOperands (target : Target) : Lower Unit := do
  Gen.accessSlot .loadLocal target.tape
  Gen.accessSlot .loadLocal target.pointer
  Gen.adjust 2
  note .tape .used
  note .pointer .used

/-- Pushes the current cell. -/
def loadCell (target : Target) : Lower Unit := do
  cellOperands target
  Gen.loadElement .uint8
  Gen.adjust (-1)

/-- Stores what a step pushes into the current cell. -/
def storeCell (target : Target) (value : Lower Unit) : Lower Unit := do
  cellOperands target
  let store ← Gen.prepareStore .uint8
  value
  Gen.commitStore store
  Gen.adjust (-3)

/-- Lowers a command other than a loop. Steps that cancel out emit nothing. -/
def action (target : Target) : Action → Lower Unit
  | .add amount =>
    if amount = 0 then pure ()
    else storeCell target do
      loadCell target
      Gen.loadInt32 amount
      Gen.adjust 1
      Gen.arithmetic .add false
      Gen.adjust (-1)
      Gen.arithmetic .convU1 false
  | .shift offset =>
    if offset = 0 then pure ()
    else do
      Gen.accessSlot .loadLocal target.pointer
      Gen.loadInt32 offset
      Gen.adjust 2
      Gen.simple .add
      Gen.accessSlot .storeLocal target.pointer
      Gen.adjust (-2)
      note .pointer (.used ||| .modified)
  | .output => do
    loadCell target
    Gen.call target.write none
    Gen.adjust (-1)
    note .output .modified
    modify fun p => { p with writes := p.writes + 1 }
  | .input => storeCell target do
    Gen.call target.read none
    Gen.adjust 1
    Gen.simple .convU1
  | .clear => storeCell target do
    Gen.loadInt32 0
    Gen.adjust 1

/-- Lowers a sequence of commands. A loop is tested at its bottom; as its body may never run, what is
known after it held both before it and after the body. -/
def program (target : Target) : Program → Lower Unit
  | .done => pure ()
  | .act _ command rest => do
    let _ ← nextStatement target
    action target command
    program target rest
  | .loop _ body rest => do
    let node ← nextStatement target
    let test ← Gen.newLabel
    let top ← Gen.newLabel
    Gen.jump .br test
    Gen.place top
    let skipped := (← get).usage
    program target body
    Gen.place test
    loadCell target
    Gen.jump .brtrue top
    Gen.adjust (-1)
    modify fun p => { p with usage := skipped.meet p.usage }
    if body.isDone then
      let location := (← Gen.orViolate (target.tree.get node)).location
      Gen.report .warning location "this loop never ends once entered"
    program target rest

end Lower

/-- The warning that the output of a program deserves, if any. -/
def outputWarning? (progress : Progress) : Option String :=
  if progress.writes = 0 then some "the program never writes any output"
  else if progress.usage.get Tracked.output.slot &&& Status.modified = 0 then
    some "output is only written inside loops that may never run"
  else none

/-- The tree of a program with the nodes of its statements, of `Main` and of its class. -/
structure Outline where
  tree : SyntaxTree
  statements : Array NodeId
  main : NodeId
  classNode : NodeId
  deriving Repr, Inhabited

/-- Adds one statement node a command. -/
def declareStatements (file : String) (index : LineIndex) (statements : List (Spanned String)) :
    SyntaxTree × Array NodeId :=
  statements.foldl
    (fun (tree, ids) s =>
      let (id, tree) := tree.push (.statement s.item) (index.locate file s.span)
      (tree, ids.push id))
    ({}, #[])

def Outline.ofProgram (file text : String) (p : Program) : Outline :=
  let (tree, statements) := declareStatements file (.ofText text) p.statements
  let start : Location := ⟨file, 1⟩
  let (body, tree) := tree.push (.block statements.toList) start
  let (main, tree) := tree.push (.methodDeclaration "Main" none (some body)) start
  let definition : ClassDefinition := ⟨programClass, none, none, [main]⟩
  let (classNode, tree) := tree.push (.classDefinition definition) start
  { tree, statements, main, classNode }

/-- Generates the body of `Main`. -/
def lowerMain (outline : Outline) (write read main : MethodId) (p : Program) : Gen Unit := do
  Gen.beginMethod main
  let tape ← Gen.allocLocal (.vector .uint8) (some "tape")
  let pointer ← Gen.allocLocal .int32 (some "ptr")
  let target : Target :=
    { tree := outline.tree, statements := outline.statements, write, read, tape, pointer }
  let usage :=
    (UsageTable.empty.set Tracked.tape.slot .declared).set Tracked.pointer.slot .declared
  let ((), progress) ← StateT.run (do Lower.allocateTape target; Lower.program target p) { usage }
  Gen.simple .ret
  Gen.endMethod
  match outputWarning? progress with
  | some message =>
    let location := (← Gen.orViolate (outline.tree.get outline.main)).location
    Gen.report .warning location message
  | none => pure ()

/-- Generates a whole unit from a program. Returns the tree made for it. -/
def compile (file text : String) (p : Program) : Gen SyntaxTree := do
  let outline := Outline.ofProgram file text p
  let console ← Gen.importClass libraryScope "System" "Console"
  let write ← Gen.addMethod console "Write" { result := .void, params := [.char] }
  let read ← Gen.addMethod console "Read" { result := .int32, params := [] }
  let own ← Gen.addClass none programClass
  let main ← Gen.addMethod own "Main" { result := .void, params := [] }
  Gen.modifyMethod main ({ · with isEntryPoint := true })
  Gen.bindItem (.ofClass own) outline.classNode
  Gen.bindItem (.ofMethod main) outline.main
  Gen.moduleHeader
  Gen.beginClass own
  let _ ← Gen.withItem outline.tree (.ofMethod main) (lowerMain outline write read main p)
  Gen.endClass
  return outline.tree

end CilAssembly.Brainfuck

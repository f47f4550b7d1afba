import CilAssembly.Labels
import CilAssembly.Listing
import CilAssembly.Peephole
import CilAssembly.Reporter
import CilAssembly.Scope

/-!
The state of a compilation unit, and the steps that everything else is made of: queueing an
instruction, committing the queue, appending a line and accounting for the evaluation stack.
-/
namespace CilAssembly

/-- What the front end chooses for a unit. -/
structure Options where
  peephole : Bool := true
  checked : Bool := false
  assemblyName : String := "program"
  deriving DecidableEq, Repr, Inhabited

/-- Where in the program names are resolved and how arithmetic behaves: the current scope, class,
namespace and generic parameters, whether arithmetic traps on overflow, and whether a region of the
program has chosen so. -/
structure Lexical where
  scope : ScopeId := Scopes.global
  classNode : Option NodeId := none
  spaceNode : Option NodeId := none
  typeFormals : Option NodeId := none
  methodFormals : Option NodeId := none
  checked : Bool := false
  checkedChanged : Bool := false
  deriving DecidableEq, Repr, Inhabited

/-- A local variable or an argument. -/
structure Slot where
  index : Nat
  type : CilType
  deriving DecidableEq, Repr, Inhabited

def Slot.machine (slot : Slot) : MachineType :=
  slot.type.machineType

/-- The method being generated; `start` is the first line of its body. -/
structure Frame where
  method : MethodId
  args : Array Slot
  locals : Array Slot := #[]
  start : Nat
  deriving DecidableEq, Repr, Inhabited

/-- The height of the evaluation stack and the greatest height it needs in the current method. -/
structure StackUse where
  height : Int := 0
  peak : Nat := 0
  deriving DecidableEq, Repr, Inhabited

structure Context where
  assemblyName : String := "program"
  reporter : Reporter := {}
  image : Image := {}
  bindings : List (Item × NodeId) := []
  scopes : Scopes := .initial
  lexical : Lexical := {}
  checkedByDefault : Bool := false
  listing : Listing := {}
  queue : Peephole.Queue
  labels : Labels := {}
  frame : Option Frame := none
  stack : StackUse := {}
  deriving DecidableEq, Repr, Inhabited

/-- The context of a new unit. -/
def Context.create (options : Options) : Context where
  assemblyName := options.assemblyName
  lexical := { checked := options.checked }
  checkedByDefault := options.checked
  queue := { enabled := options.peephole }

/-- A step of generation. It changes the context and may stop; the context at the stop stays
visible. -/
abbrev Gen := EStateM Stop Context

namespace Gen

def violate {α : Type} (v : Violation) : Gen α :=
  throw (.violation v)

def fail {α : Type} (f : Failure) : Gen α :=
  throw (.failure f)

/-- The result of a check, or the violation it found. -/
def orViolate {α : Type} : Except Violation α → Gen α
  | .ok a => pure a
  | .error v => violate v

def orFail {α : Type} : Except Failure α → Gen α
  | .ok a => pure a
  | .error f => fail f

/-- Reads the program items. -/
def readImage {α : Type} (query : Image → Except Violation α) : Gen α := do
  orViolate (query (← get).image)

/-- Puts an instruction into the peephole window. -/
def enqueue (i : Instruction) : Gen Unit :=
  modify fun c =>
    let (queue, committed) := c.queue.push i
    { c with queue, listing := c.listing.pushInstructions committed }

/-- Commits the peephole window: what follows is never simplified together with what came before. -/
def flush : Gen Unit :=
  modify fun c =>
    let (queue, committed) := c.queue.flush
    { c with queue, listing := c.listing.pushInstructions committed }

/-- Turns the peephole rules on or off. -/
def setPeephole (enabled : Bool) : Gen Unit :=
  modify fun c =>
    let (queue, committed) := c.queue.setEnabled enabled
    { c with queue, listing := c.listing.pushInstructions committed }

/-- Commits the window and appends a line. -/
def appendLine (line : Line) : Gen Unit := do
  flush
  modify fun c => { c with listing := c.listing.push line }

/-- Commits the window and appends an instruction. -/
def barrier (i : Instruction) : Gen Unit :=
  appendLine (.instruction i)

/-- Commits the window and appends an instruction on a token. -/
def tokenBarrier (opcode : Opcode) (token : String) : Gen Unit :=
  barrier ⟨opcode, .token token⟩

/-- Commits the window and appends an assembler directive. -/
def directive (text : String) : Gen Unit :=
  appendLine (.directive text)

/-- The listing so far, with the window committed. -/
def currentListing : Gen Listing := do
  flush
  return (← get).listing

/-- Accounts for the stack effect of what was just emitted. The height is a signed 32-bit number. -/
def adjust (delta : Int) : Gen Unit := do
  let height := (← get).stack.height + delta
  if height < -0x80000000 ∨ 0x80000000 ≤ height then violate .additionOverflow
  else if height < 0 then violate .stackUnderflow
  else modify fun c => { c with stack := ⟨height, max c.stack.peak height.toNat⟩ }

/-- Reserves room above the current height. The greatest height is an unsigned 32-bit number. -/
def extend (extra : Nat) : Gen Unit := do
  let needed := (← get).stack.height.toNat + extra
  if 0x100000000 ≤ needed then violate .additionOverflow
  else modify fun c => { c with stack := { c.stack with peak := max c.stack.peak needed } }

def report (severity : Severity) (location : Location) (message : String) : Gen Unit :=
  modify fun c => { c with reporter := c.reporter.report ⟨severity, location, message⟩ }

/-- Ends the unit and hands its listing over. -/
def finish : Gen Listing := do
  if (← get).frame.isSome then violate .unitEndsInsideMethod
  flush
  orViolate ((← get).labels.checkComplete .unit)
  modify fun c => { c with listing := c.listing.resolveFrom 0 c.labels.isLeaveTarget }
  return (← get).listing

end Gen

end CilAssembly

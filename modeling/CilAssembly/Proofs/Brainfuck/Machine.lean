import CilAssembly.Listing
import CilAssembly.Proofs.Evaluation.Execution
import Mathlib.Data.Stream.Defs
import Mathlib.Tactic.Common

/-!
A machine for the body of an entry point: byte vectors on a heap, a console to read from and to
write to, jumps to labels. The code that is left to run is a suffix of the body.
-/
namespace CilAssembly.Brainfuck
open Evaluation

inductive Reference
  | null
  | vector (address : Nat)
  deriving DecidableEq, Repr

/-- What instructions share: the vectors allocated so far and the answers that reading will get. -/
structure World where
  vectors : List (Array UInt8)
  input : Stream' Int32

/-- The state of the machine between two instructions. -/
abbrev MachineState := State Reference World

namespace MachineState

/-- The vector that a value refers to, with its address. -/
def vectorOf (s : MachineState) : Value Reference → Except Fault (Nat × Array UInt8)
  | .reference (.vector address) =>
    match s.world.vectors[address]? with
    | some cells => .ok (address, cells)
    | none => .error .invalid
  | .reference .null => .error (.trap .nullReference)
  | _ => .error .invalid

/-- The bounds check of an access to a vector. -/
def checkIndex (cells : Array UInt8) (index : Int32) : Except Fault Nat :=
  if index.toInt < 0 ∨ cells.size ≤ index.toInt then .error (.trap .indexOutOfRange)
  else .ok index.toInt.toNat

/-- Stores the top of the stack into a local. -/
def storeLocal (s : MachineState) (index : Int) : Except Fault MachineState :=
  match s.stack with
  | v :: stack =>
    if 0 ≤ index ∧ index < s.locals.length then
      .ok { s with stack, locals := s.locals.set index.toNat v }
    else .error .invalid
  | [] => .error .invalid

/-- Allocates a vector of zeros. -/
def allocate (s : MachineState) : Except Fault MachineState :=
  match s.stack with
  | .int32 size :: stack =>
    if size.toInt < 0 then .error (.trap .overflow)
    else
      .ok { s with
        stack := .reference (.vector s.world.vectors.length) :: stack
        world.vectors := s.world.vectors ++ [Array.replicate size.toInt.toNat 0] }
  | _ => .error .invalid

def loadElement (s : MachineState) : Except Fault MachineState :=
  match s.stack with
  | .int32 index :: target :: stack => do
    let (_, cells) ← s.vectorOf target
    let position ← checkIndex cells index
    return { s with stack := .int32 (cells.getD position 0).toUInt32.toInt32 :: stack }
  | _ => .error .invalid

/-- Stores the low byte of a number. -/
def storeElement (s : MachineState) : Except Fault MachineState :=
  match s.stack with
  | .int32 value :: .int32 index :: target :: stack => do
    let (address, cells) ← s.vectorOf target
    let position ← checkIndex cells index
    let stored := cells.setIfInBounds position value.toUInt32.toUInt8
    return { s with stack, world.vectors := s.world.vectors.set address stored }
  | _ => .error .invalid

/-- Signed addition that traps where the sum has no 32 bits. -/
def addChecked (s : MachineState) : Except Fault MachineState :=
  match s.stack with
  | .int32 y :: .int32 x :: stack =>
    let sum := x.toInt + y.toInt
    if sum < -0x80000000 ∨ 0x80000000 ≤ sum then .error (.trap .overflow)
    else .ok { s with stack := .int32 (.ofInt sum) :: stack }
  | _ => .error .invalid

/-- The conversion to a byte that traps where the number is none. -/
def toByteChecked (s : MachineState) : Except Fault MachineState :=
  match s.stack with
  | .int32 x :: _ => if x.toInt < 0 ∨ 255 < x.toInt then .error (.trap .overflow) else .ok s
  | _ => .error .invalid

end MachineState

/-- The element class of byte vectors. -/
def byteToken : String := "[.library]System.Byte"

def readToken : String := "int32 [.library]System.Console::Read()"

def writeToken : String := "void [.library]System.Console::Write(char)"

/-- Calls a method of the console: reading takes the next answer, writing takes a character, which
is the low half of a number. -/
def callConsole (token : String) (s : MachineState) :
    Except Fault (MachineState × List UInt16) :=
  if token = readToken then
    .ok ({ s with
      stack := .int32 s.world.input.head :: s.stack, world.input := s.world.input.tail }, [])
  else if token = writeToken then
    match s.stack with
    | .int32 c :: stack => .ok ({ s with stack }, [c.toUInt32.toUInt16])
    | _ => .error .invalid
  else .error .invalid

/-- The instructions that work on locals, vectors and the console, and checked arithmetic. -/
def runtimeStep (i : Instruction) (s : MachineState) :
    Except Fault (MachineState × List UInt16) :=
  match i.opcode, i.operand with
  | .stloc_0, _ => (·, []) <$> s.storeLocal 0
  | .stloc_1, _ => (·, []) <$> s.storeLocal 1
  | .stloc_2, _ => (·, []) <$> s.storeLocal 2
  | .stloc_3, _ => (·, []) <$> s.storeLocal 3
  | .stlocS, _ | .stloc, _ => (·, []) <$> withNumber i s.storeLocal
  | .newarr, .token token => if token = byteToken then (·, []) <$> s.allocate else .error .invalid
  | .ldelemU1, _ => (·, []) <$> s.loadElement
  | .stelemI1, _ => (·, []) <$> s.storeElement
  | .addOvf, _ => (·, []) <$> s.addChecked
  | .convOvfU1, _ => (·, []) <$> s.toByteChecked
  | .call, .token token => callConsole token s
  | _, _ => .error .invalid

/-- The machine as a semantics of straight-line code. Its side effects are the characters
written. -/
def runtime : Semantics Reference World UInt16 where
  opaqueValue
    | ⟨.ldnull, _⟩, _ => .ok (.reference .null)
    | _, _ => .error .invalid
  other := runtimeStep

/-- A place in the body of a method: the code that is left, the state and what was written. -/
structure Config where
  rest : List Line
  state : MachineState
  output : List UInt16

/-- What one step comes to. -/
inductive Progression
  | next (c : Config)
  | returned
  | trapped (t : Trap)
  | stuck

/-- The code after a label. -/
def codeAfter? (label : LabelId) : List Line → Option (List Line)
  | [] => none
  | .label id _ :: rest => if id = label then some rest else codeAfter? label rest
  | _ :: rest => codeAfter? label rest

/-- The value makes a conditional branch jump. -/
def isTrue : Value Reference → Bool
  | .int32 v => v ≠ 0
  | .int64 v => v ≠ 0
  | .native v => v ≠ 0
  | .reference r => r ≠ .null

namespace Config

def jump (c : Config) (body : List Line) (label : LabelId) : Progression :=
  match codeAfter? label body with
  | some rest => .next { c with rest }
  | none => .stuck

/-- Executes an instruction; the code after it is `rest`. -/
def execute (c : Config) (body rest : List Line) (i : Instruction) : Progression :=
  match i.opcode, i.operand, c.state.stack with
  | .br, .target label, _ => c.jump body label
  | .brtrue, .target label, v :: stack =>
    let popped := { c with state.stack := stack }
    if isTrue v then popped.jump body label else .next { popped with rest }
  | .ret, _, [] => .returned
  | .br, _, _ | .brtrue, _, _ | .ret, _, _ => .stuck
  | _, _, _ =>
    match runtime.execute i c.state with
    | .ok (state, written) => .next ⟨rest, state, c.output ++ written⟩
    | .error (.trap t) => .trapped t
    | .error .invalid => .stuck

/-- One step of the machine. Labels and directives do nothing. -/
def step (body : List Line) (c : Config) : Progression :=
  match c.rest with
  | [] => .stuck
  | .label .. :: rest => .next { c with rest }
  | .directive _ :: rest => .next { c with rest }
  | .instruction i :: rest => c.execute body rest i

end Config

/-- How a method ends: it returns, or a trap stops it. -/
inductive Completion
  | returned (state : MachineState) (output : List UInt16)
  | trapped (t : Trap) (output : List UInt16)

/-- The machine comes to the end of the method in a number of steps. -/
inductive Config.Completes (body : List Line) : Nat → Config → Completion → Prop
  | next {n c d r} (step : c.step body = .next d) (tail : Completes body n d r) :
      Completes body (n + 1) c r
  | returned {c} (step : c.step body = .returned) :
      Completes body 1 c (.returned c.state c.output)
  | trapped {c t} (step : c.step body = .trapped t) :
      Completes body 1 c (.trapped t c.output)

/-- The line is the last one of a method. -/
def closesMethod : Line → Bool
  | .directive text => "\t.maxstack ".toList.isPrefixOf text.toList
  | _ => false

/-- The zero value of the local that a line declares. -/
def declaredLocal? : Line → Option (Value Reference)
  | .directive text =>
    if "\t.locals init\t(int32 ".toList.isPrefixOf text.toList then some (.int32 0)
    else if "\t.locals init\t(unsigned int8[] ".toList.isPrefixOf text.toList then
      some (.reference .null)
    else none
  | _ => none

/-- The body of the entry point. -/
def entryBody (listing : Listing) : List Line :=
  ((listing.lines.toList.dropWhile (· != .directive "\t.entrypoint")).drop 1).takeWhile
    (!closesMethod ·)

/-- The machine before a body: nothing is allocated, and all locals are zero. -/
def Config.start (body : List Line) (input : Stream' Int32) : Config :=
  ⟨body, ⟨[], [], body.filterMap declaredLocal?, ⟨[], input⟩⟩, []⟩

end CilAssembly.Brainfuck

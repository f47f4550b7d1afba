import CilAssembly.Instruction
import CilAssembly.Proofs.Evaluation.Value

/-!
Execution of straight-line code. Loads, integer arithmetic, plain conversions, `dup` and `pop` have
a fixed meaning; every other opcode is an arbitrary partial step of the machine that may have side
effects.
-/
namespace CilAssembly

/-- The number that an operand spells. -/
def Operand.number? : Operand → Option Int
  | .int value => some value
  | .uint value => some value
  | .hex64 value => some value.toNat
  | _ => none

namespace Evaluation

/-- What instructions work on: the evaluation stack with its top first, the arguments, the locals
and the rest of the world. -/
structure State (ρ ω : Type) where
  stack : List (Value ρ)
  args : List (Value ρ)
  locals : List (Value ρ)
  world : ω

namespace State
variable {ρ ω : Type}

def push (s : State ρ ω) (v : Value ρ) : State ρ ω :=
  { s with stack := v :: s.stack }

/-- Replaces the top of the stack. -/
def unary (s : State ρ ω) (f : Value ρ → Except Fault (Value ρ)) : Except Fault (State ρ ω) :=
  match s.stack with
  | x :: rest => do return { s with stack := (← f x) :: rest }
  | [] => .error .invalid

/-- Replaces the two topmost values; the second operand is on top. -/
def binary (s : State ρ ω) (f : Value ρ → Value ρ → Except Fault (Value ρ)) :
    Except Fault (State ρ ω) :=
  match s.stack with
  | y :: x :: rest => do return { s with stack := (← f x y) :: rest }
  | _ => .error .invalid

def height (s : State ρ ω) : Nat :=
  s.stack.length

end State

/-- The part of the meaning of instructions that is not fixed: the value of a load that is neither a
number nor a variable, and the step of an opcode that has no fixed meaning, with its side
effects. -/
structure Semantics (ρ ω ε : Type) where
  opaqueValue : Instruction → State ρ ω → Except Fault (Value ρ)
  other : Instruction → State ρ ω → Except Fault (State ρ ω × List ε)

/-- The variable at an index. -/
def variableAt {ρ : Type} (slots : List (Value ρ)) (index : Int) : Except Fault (Value ρ) :=
  if index < 0 then .error .invalid
  else
    match slots[index.toNat]? with
    | some v => .ok v
    | none => .error .invalid

/-- What an instruction makes of the number that its operand spells. -/
def withNumber {α : Type} (i : Instruction) (f : Int → Except Fault α) : Except Fault α :=
  match i.operand.number? with
  | some n => f n
  | none => .error .invalid

/-- The unary operation of an opcode. Conversions to floating point are left out. -/
def unaryOf? {ρ : Type} : Opcode → Option (Value ρ → Except Fault (Value ρ))
  | .neg => some Value.negate
  | .not => some Value.complement
  | .convI1 => some (Conversion.apply .i1)
  | .convI2 => some (Conversion.apply .i2)
  | .convI4 => some (Conversion.apply .i4)
  | .convI8 => some (Conversion.apply .i8)
  | .convU1 => some (Conversion.apply .u1)
  | .convU2 => some (Conversion.apply .u2)
  | .convU4 => some (Conversion.apply .u4)
  | .convU8 => some (Conversion.apply .u8)
  | .convI => some (Conversion.apply .i)
  | .convU => some (Conversion.apply .u)
  | .convR4 | .convR8 => some fun _ => .error .invalid
  | _ => none

def binaryOf? : Opcode → Option Arithmetic
  | .add => some .addition
  | .sub => some .subtraction
  | .mul => some .multiplication
  | .div => some .division
  | .or => some .disjunction
  | .xor => some .exclusion
  | _ => none

namespace Semantics
variable {ρ ω ε : Type} (sem : Semantics ρ ω ε)

/-- The value that a load pushes, for the opcodes that load. -/
def loadOf? (i : Instruction) (s : State ρ ω) : Option (Except Fault (Value ρ)) :=
  match i.opcode with
  | .ldarg_0 => some (variableAt s.args 0)
  | .ldarg_1 => some (variableAt s.args 1)
  | .ldarg_2 => some (variableAt s.args 2)
  | .ldarg_3 => some (variableAt s.args 3)
  | .ldargS | .ldarg => some (withNumber i (variableAt s.args))
  | .ldloc_0 => some (variableAt s.locals 0)
  | .ldloc_1 => some (variableAt s.locals 1)
  | .ldloc_2 => some (variableAt s.locals 2)
  | .ldloc_3 => some (variableAt s.locals 3)
  | .ldlocS | .ldloc => some (withNumber i (variableAt s.locals))
  | .ldcI4M1 => some (.ok (.int32 (-1)))
  | .ldcI4_0 => some (.ok (.int32 0))
  | .ldcI4_1 => some (.ok (.int32 1))
  | .ldcI4_2 => some (.ok (.int32 2))
  | .ldcI4_3 => some (.ok (.int32 3))
  | .ldcI4_4 => some (.ok (.int32 4))
  | .ldcI4_5 => some (.ok (.int32 5))
  | .ldcI4_6 => some (.ok (.int32 6))
  | .ldcI4_7 => some (.ok (.int32 7))
  | .ldcI4_8 => some (.ok (.int32 8))
  | .ldcI4S | .ldcI4 => some (withNumber i fun n => .ok (.int32 (.ofInt n)))
  | .ldcI8 => some (withNumber i fun n => .ok (.int64 (.ofInt n)))
  | .ldargaS | .ldarga | .ldlocaS | .ldloca | .ldnull | .ldstr | .ldcR4 | .ldcR8 =>
    some (sem.opaqueValue i s)
  | _ => none

/-- Executes one instruction. Returns its side effects too. -/
def execute (i : Instruction) (s : State ρ ω) : Except Fault (State ρ ω × List ε) :=
  match sem.loadOf? i s, unaryOf? i.opcode, binaryOf? i.opcode with
  | some load, _, _ => do return (s.push (← load), [])
  | none, some f, _ => do return (← s.unary f, [])
  | none, none, some op => do return (← s.binary op.apply, [])
  | none, none, none =>
    match i.opcode, s.stack with
    | .dup, x :: rest => .ok ({ s with stack := x :: x :: rest }, [])
    | .pop, _ :: rest => .ok ({ s with stack := rest }, [])
    | .dup, [] | .pop, [] => .error .invalid
    | _, _ => sem.other i s

end Semantics

/-- What straight-line code leaves behind: the state, the side effects in order, and the greatest
height of the stack on the way. -/
structure Outcome (ρ ω ε : Type) where
  state : State ρ ω
  effects : List ε
  peak : Nat

/-- Executes instructions one after another. -/
def Semantics.run {ρ ω ε : Type} (sem : Semantics ρ ω ε) :
    List Instruction → State ρ ω → Except Fault (Outcome ρ ω ε)
  | [], s => .ok ⟨s, [], s.height⟩
  | i :: rest, s => do
    let (next, effects) ← sem.execute i s
    let last ← sem.run rest next
    return ⟨last.state, effects ++ last.effects, max s.height last.peak⟩

end Evaluation

end CilAssembly

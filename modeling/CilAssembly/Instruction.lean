import CilAssembly.Binary
import CilAssembly.Label
import CilAssembly.Opcode
import CilAssembly.StringLiteral

/-! Instructions with their operands, and the line each one is written on. -/
namespace CilAssembly

/-- The operand of an instruction. A token is a reference to a type, a field or a method that is
already in its assembly spelling. -/
inductive Operand
  | nothing
  | int (value : Int)
  | uint (value : Nat)
  | hex64 (value : UInt64)
  | float32 (value : Binary32)
  | float64 (value : Binary64)
  | text (value : String)
  | target (label : LabelId)
  | switch (labels : List LabelId)
  | token (spelling : String)
  deriving DecidableEq, Repr, Inhabited

namespace Operand

/-- The operands denote the same value. Floating-point constants compare as numbers, all others by
identity. -/
def same : Operand → Operand → Bool
  | .float32 x, .float32 y => x.numEq y
  | .float64 x, .float64 y => x.numEq y
  | x, y => x == y

/-- The labels that an operand mentions. -/
def labels : Operand → List LabelId
  | .target label => [label]
  | .switch labels => labels
  | _ => []

/-- What stands after the mnemonic. -/
def render : Operand → String
  | .nothing => ""
  | .int value => "\t" ++ toString value
  | .uint value => "\t" ++ toString value
  | .hex64 value => "\t0x" ++ Text.hexLower 16 value.toNat
  | .float32 value => "\tfloat32(0x" ++ Text.hexUpper 8 value.bits.toNat ++ ")"
  | .float64 value => "\tfloat64(0x" ++ Text.hexUpper 16 value.bits.toNat ++ ")"
  | .text value => "\t" ++ StringLiteral.render value
  | .target label => "\t" ++ label.render
  | .switch labels =>
    let entries := labels.map fun label => "\t\t" ++ label.render
    let table := if entries.isEmpty then "" else ",\n".intercalate entries ++ "\n"
    " (\n" ++ table ++ "\t)"
  | .token spelling => "\t" ++ spelling

end Operand

structure Instruction where
  opcode : Opcode
  operand : Operand := .nothing
  deriving DecidableEq, Repr, Inhabited

namespace Instruction

/-- The instructions denote the same operation. -/
def same (x y : Instruction) : Bool :=
  x.opcode == y.opcode && x.operand.same y.operand

/-- The lines of an instruction, with the final line end. -/
def render (i : Instruction) : String :=
  "\t" ++ i.opcode.mnemonic ++ i.operand.render ++ "\n"

end Instruction

end CilAssembly

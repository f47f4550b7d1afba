import CilAssembly.Opcode

/-!
The values of the evaluation stack and the arithmetic on them. Integers are two's-complement numbers
of 32, of 64 or of native width; every other value is an opaque reference. Floating-point numbers
are left out.
-/
namespace CilAssembly.Evaluation

/-- What the runtime raises instead of going on. -/
inductive Trap
  | indexOutOfRange | nullReference | overflow | divisionByZero
  deriving DecidableEq, Repr, Inhabited

/-- Why an instruction does not go through: it traps, or it cannot be executed at all, because its
operands are missing or of the wrong kind. -/
inductive Fault
  | trap (t : Trap)
  | invalid
  deriving DecidableEq, Repr, Inhabited

inductive Value (ρ : Type)
  | int32 (v : Int32)
  | int64 (v : Int64)
  | native (v : ISize)
  | reference (r : ρ)
  deriving DecidableEq

/-- One operation on two integers of the same kind, for each kind. -/
structure Arithmetic where
  onInt32 : Int32 → Int32 → Except Fault Int32
  onInt64 : Int64 → Int64 → Except Fault Int64
  onNative : ISize → ISize → Except Fault ISize

namespace Arithmetic

def addition : Arithmetic :=
  ⟨fun x y => .ok (x + y), fun x y => .ok (x + y), fun x y => .ok (x + y)⟩

def subtraction : Arithmetic :=
  ⟨fun x y => .ok (x - y), fun x y => .ok (x - y), fun x y => .ok (x - y)⟩

def multiplication : Arithmetic :=
  ⟨fun x y => .ok (x * y), fun x y => .ok (x * y), fun x y => .ok (x * y)⟩

def disjunction : Arithmetic :=
  ⟨fun x y => .ok (x ||| y), fun x y => .ok (x ||| y), fun x y => .ok (x ||| y)⟩

def exclusion : Arithmetic :=
  ⟨fun x y => .ok (x ^^^ y), fun x y => .ok (x ^^^ y), fun x y => .ok (x ^^^ y)⟩

/-- Signed division, towards zero. The quotient of the least number by minus one is out of range. -/
def division : Arithmetic where
  onInt32 x y :=
    if y = 0 then .error (.trap .divisionByZero)
    else if x = .minValue ∧ y = -1 then .error (.trap .overflow)
    else .ok (x / y)
  onInt64 x y :=
    if y = 0 then .error (.trap .divisionByZero)
    else if x = .minValue ∧ y = -1 then .error (.trap .overflow)
    else .ok (x / y)
  onNative x y :=
    if y = 0 then .error (.trap .divisionByZero)
    else if x = .minValue ∧ y = -1 then .error (.trap .overflow)
    else .ok (x / y)

/-- The operation on two values. Both are of one kind, or one is native and the other is widened. -/
def apply {ρ : Type} (op : Arithmetic) : Value ρ → Value ρ → Except Fault (Value ρ)
  | .int32 x, .int32 y => .int32 <$> op.onInt32 x y
  | .int64 x, .int64 y => .int64 <$> op.onInt64 x y
  | .native x, .native y => .native <$> op.onNative x y
  | .native x, .int32 y => .native <$> op.onNative x y.toISize
  | .int32 x, .native y => .native <$> op.onNative x.toISize y
  | _, _ => .error .invalid

end Arithmetic

namespace Value
variable {ρ : Type}

def negate : Value ρ → Except Fault (Value ρ)
  | .int32 v => .ok (.int32 (-v))
  | .int64 v => .ok (.int64 (-v))
  | .native v => .ok (.native (-v))
  | .reference _ => .error .invalid

def complement : Value ρ → Except Fault (Value ρ)
  | .int32 v => .ok (.int32 (~~~v))
  | .int64 v => .ok (.int64 (~~~v))
  | .native v => .ok (.native (~~~v))
  | .reference _ => .error .invalid

/-- An integer widened to 64 bits with its sign. -/
def signed : Value ρ → Except Fault Int64
  | .int32 v => .ok v.toInt64
  | .int64 v => .ok v
  | .native v => .ok v.toInt64
  | .reference _ => .error .invalid

/-- An integer widened to 64 bits with zeros. -/
def unsigned : Value ρ → Except Fault UInt64
  | .int32 v => .ok v.toUInt32.toUInt64
  | .int64 v => .ok v.toUInt64
  | .native v => .ok v.toUSize.toUInt64
  | .reference _ => .error .invalid

end Value

/-- The plain conversions. Numbers of less than 32 bits stand on the stack widened to 32 bits. -/
inductive Conversion
  | i1 | i2 | i4 | i8 | u1 | u2 | u4 | u8 | i | u
  deriving DecidableEq, Repr

namespace Conversion
variable {ρ : Type}

def apply : Conversion → Value ρ → Except Fault (Value ρ)
  | .i1, x => do return .int32 (← x.signed).toInt8.toInt32
  | .i2, x => do return .int32 (← x.signed).toInt16.toInt32
  | .i4, x => do return .int32 (← x.signed).toInt32
  | .i8, x => do return .int64 (← x.signed)
  | .u1, x => do return .int32 (← x.unsigned).toUInt8.toUInt32.toInt32
  | .u2, x => do return .int32 (← x.unsigned).toUInt16.toUInt32.toInt32
  | .u4, x => do return .int32 (← x.unsigned).toUInt32.toInt32
  | .u8, x => do return .int64 (← x.unsigned).toInt64
  | .i, x => do return .native (← x.signed).toISize
  | .u, x => do return .native (← x.unsigned).toUSize.toISize

end Conversion

end CilAssembly.Evaluation

/-!
IEEE floating-point constants, held by their bit patterns so that payloads and signed zeros survive.
-/
namespace CilAssembly

/-- A single precision constant. -/
structure Binary32 where
  bits : UInt32
  deriving DecidableEq, Repr, Inhabited

/-- A double precision constant. -/
structure Binary64 where
  bits : UInt64
  deriving DecidableEq, Repr, Inhabited

namespace Binary32

/-- The bits below the sign. -/
def magnitude (x : Binary32) : Nat :=
  x.bits.toNat % 0x80000000

def isNaN (x : Binary32) : Bool :=
  0x7f800000 < x.magnitude

/-- Equality of the numbers: a NaN differs from everything and the two zeros agree. -/
def numEq (x y : Binary32) : Bool :=
  !x.isNaN && !y.isNaN && (x.bits == y.bits || x.magnitude == 0 && y.magnitude == 0)

/-- The constant with the given sign and magnitude bits. -/
def ofParts (negative : Bool) (magnitude : Nat) : Binary32 :=
  ⟨UInt32.ofNat ((if negative then 0x80000000 else 0) + magnitude)⟩

end Binary32

namespace Binary64

/-- The bits below the sign. -/
def magnitude (x : Binary64) : Nat :=
  x.bits.toNat % 0x8000000000000000

def isNegative (x : Binary64) : Bool :=
  0x8000000000000000 ≤ x.bits.toNat

def isNaN (x : Binary64) : Bool :=
  0x7ff0000000000000 < x.magnitude

/-- Equality of the numbers: a NaN differs from everything and the two zeros agree. -/
def numEq (x y : Binary64) : Bool :=
  !x.isNaN && !y.isNaN && (x.bits == y.bits || x.magnitude == 0 && y.magnitude == 0)

/-- The single precision constant of the same value. There is none for a NaN and for values that
single precision has to round. -/
def narrow? (x : Binary64) : Option Binary32 :=
  let exponent := x.magnitude >>> 52
  let fraction := x.magnitude % (1 <<< 52)
  if x.magnitude = 0 then some (.ofParts x.isNegative 0)
  else if exponent = 2047 then
    if fraction = 0 then some (.ofParts x.isNegative 0x7f800000) else none
  else if 897 ≤ exponent ∧ exponent ≤ 1150 then
    -- in the normal range: the last 29 bits of the fraction have to be zero
    if fraction % (1 <<< 29) = 0 then
      some (.ofParts x.isNegative ((exponent - 896) <<< 23 + fraction >>> 29))
    else none
  else if 874 ≤ exponent ∧ exponent < 897 then
    -- in the subnormal range: the value has to be a multiple of the smallest magnitude
    let scale := 1 <<< (926 - exponent)
    if (1 <<< 52 + fraction) % scale = 0 then
      some (.ofParts x.isNegative ((1 <<< 52 + fraction) / scale))
    else none
  else none

end Binary64

end CilAssembly

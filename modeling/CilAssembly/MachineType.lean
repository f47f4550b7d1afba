import CilAssembly.Opcode

/-!
Machine types: the representations of values on the evaluation stack and in storage. The machine type
of a value alone selects the member of each opcode family that accesses it.
-/
namespace CilAssembly

inductive MachineType
  | void | boolean | int8 | uint8 | int16 | uint16 | char | int32 | uint32 | int64 | uint64
  | nativeInt | nativeUInt | float32 | float64 | nativeFloat | decimal | string | objectRef
  | unmanagedPtr | managedPtr | transientPtr | managedValue
  deriving DecidableEq, Repr, Inhabited

namespace MachineType

def all : List MachineType :=
  [.void, .boolean, .int8, .uint8, .int16, .uint16, .char, .int32, .uint32, .int64, .uint64,
   .nativeInt, .nativeUInt, .float32, .float64, .nativeFloat, .decimal, .string, .objectRef,
   .unmanagedPtr, .managedPtr, .transientPtr, .managedValue]

/-- The tag of a machine type in structural dumps. -/
def tag : MachineType → String
  | .void => "Void"
  | .boolean => "Boolean"
  | .int8 => "Int8"
  | .uint8 => "UInt8"
  | .int16 => "Int16"
  | .uint16 => "UInt16"
  | .char => "Char"
  | .int32 => "Int32"
  | .uint32 => "UInt32"
  | .int64 => "Int64"
  | .uint64 => "UInt64"
  | .nativeInt => "NativeInt"
  | .nativeUInt => "NativeUInt"
  | .float32 => "Float32"
  | .float64 => "Float64"
  | .nativeFloat => "NativeFloat"
  | .decimal => "Decimal"
  | .string => "String"
  | .objectRef => "ObjectRef"
  | .unmanagedPtr => "UnmanagedPtr"
  | .managedPtr => "ManagedPtr"
  | .transientPtr => "TransientPtr"
  | .managedValue => "ManagedValue"

def ofTag? (s : String) : Option MachineType :=
  all.find? (·.tag == s)

/-- The values are unsigned integers. -/
def isUnsigned : MachineType → Bool
  | .uint8 | .uint16 | .char | .uint32 | .uint64 | .nativeUInt => true
  | _ => false

/-- The values are structures stored inline, accessed through their address. -/
def isStructure : MachineType → Bool
  | .decimal | .managedValue => true
  | _ => false

/-- The `ldelem` opcode. Structures and `void` have none. -/
def arrayLoad? : MachineType → Option Opcode
  | .boolean | .int8 => some .ldelemI1
  | .uint8 => some .ldelemU1
  | .int16 => some .ldelemI2
  | .uint16 | .char => some .ldelemU2
  | .int32 => some .ldelemI4
  | .uint32 => some .ldelemU4
  | .int64 | .uint64 => some .ldelemI8
  | .nativeInt | .nativeUInt | .unmanagedPtr | .managedPtr | .transientPtr => some .ldelemI
  | .float32 => some .ldelemR4
  | .float64 | .nativeFloat => some .ldelemR8
  | .string | .objectRef => some .ldelemRef
  | .void | .decimal | .managedValue => none

/-- The `stelem` opcode. Structures and `void` have none. -/
def arrayStore? : MachineType → Option Opcode
  | .boolean | .int8 | .uint8 => some .stelemI1
  | .int16 | .uint16 | .char => some .stelemI2
  | .int32 | .uint32 => some .stelemI4
  | .int64 | .uint64 => some .stelemI8
  | .nativeInt | .nativeUInt | .unmanagedPtr | .managedPtr | .transientPtr => some .stelemI
  | .float32 => some .stelemR4
  | .float64 | .nativeFloat => some .stelemR8
  | .string | .objectRef => some .stelemRef
  | .void | .decimal | .managedValue => none

/-- The `ldind` opcode. Structures and `void` have none. -/
def indirectLoad? : MachineType → Option Opcode
  | .boolean | .int8 => some .ldindI1
  | .uint8 => some .ldindU1
  | .int16 => some .ldindI2
  | .uint16 | .char => some .ldindU2
  | .int32 => some .ldindI4
  | .uint32 => some .ldindU4
  | .int64 | .uint64 => some .ldindI8
  | .nativeInt | .nativeUInt | .unmanagedPtr | .managedPtr | .transientPtr => some .ldindI
  | .float32 => some .ldindR4
  | .float64 | .nativeFloat => some .ldindR8
  | .string | .objectRef => some .ldindRef
  | .void | .decimal | .managedValue => none

/-- The `stind` opcode. Structures and `void` have none. -/
def indirectStore? : MachineType → Option Opcode
  | .boolean | .int8 | .uint8 => some .stindI1
  | .int16 | .uint16 | .char => some .stindI2
  | .int32 | .uint32 => some .stindI4
  | .int64 | .uint64 => some .stindI8
  | .nativeInt | .nativeUInt | .unmanagedPtr | .managedPtr | .transientPtr => some .stindI
  | .float32 => some .stindR4
  | .float64 | .nativeFloat => some .stindR8
  | .string | .objectRef => some .stindRef
  | .void | .decimal | .managedValue => none

end MachineType

end CilAssembly

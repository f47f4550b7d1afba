import CilAssembly.ClassName
import CilAssembly.MachineType

/-! The types of the intermediate language, their assembly spelling and their machine types. -/
namespace CilAssembly

/-- A type that the generator can spell. `invalid` is the type of whatever failed an earlier check
and behaves like `void`; an array has a rank, one for vectors. -/
inductive CilType
  | void | boolean | char | int8 | uint8 | int16 | uint16 | int32 | uint32 | int64 | uint64
  | nativeInt | nativeUInt | float32 | float64 | nativeFloat | string | object | typedRef
  | classType (name : ClassName)
  | valueType (name : ClassName)
  | enum (name : ClassName) (underlying : CilType)
  | array (element : CilType) (rank : Nat)
  | byRef (target : CilType)
  | pointer (target : CilType)
  | invalid
  deriving DecidableEq, Repr, Inhabited

namespace CilType

def vector (element : CilType) : CilType :=
  .array element 1

/-- The types written as one keyword. -/
def keywords : List CilType :=
  [.void, .boolean, .char, .int8, .uint8, .int16, .uint16, .int32, .uint32, .int64, .uint64,
   .nativeInt, .nativeUInt, .float32, .float64, .nativeFloat, .string, .object, .typedRef, .invalid]

def isPrimitive : CilType → Bool
  | .classType _ | .valueType _ | .enum .. | .array .. | .byRef _ | .pointer _ | .invalid => false
  | _ => true

/-- The simple name of the system class behind a primitive type. -/
def primitiveName? : CilType → Option String
  | .boolean => some "Boolean"
  | .char => some "Char"
  | .int8 => some "SByte"
  | .uint8 => some "Byte"
  | .int16 => some "Int16"
  | .uint16 => some "UInt16"
  | .int32 => some "Int32"
  | .uint32 => some "UInt32"
  | .int64 => some "Int64"
  | .uint64 => some "UInt64"
  | .nativeInt => some "IntPtr"
  | .nativeUInt => some "UIntPtr"
  | .float32 => some "Single"
  | .float64 | .nativeFloat => some "Double"
  | .string => some "String"
  | .object => some "Object"
  | .typedRef => some "TypedReference"
  | _ => none

/-- The class form of a primitive type, which array element tokens use. -/
def primitiveClass? (t : CilType) : Option ClassName :=
  t.primitiveName?.map ClassName.system

/-- The element type of an array. -/
def element? : CilType → Option CilType
  | .array element _ => some element
  | _ => none

/-- The rank of an array, zero for every other type. -/
def rank : CilType → Nat
  | .array _ rank => rank
  | _ => 0

/-- The innermost array of a jagged array; any other type stands for itself. -/
def innermostArray : CilType → CilType
  | .array (.array element inner) _ => innermostArray (.array element inner)
  | t => t

/-- The machine type of the values of a type. An enumeration behaves like its underlying type. -/
def machineType : CilType → MachineType
  | .void | .invalid => .void
  | .boolean => .boolean
  | .char => .char
  | .int8 => .int8
  | .uint8 => .uint8
  | .int16 => .int16
  | .uint16 => .uint16
  | .int32 => .int32
  | .uint32 => .uint32
  | .int64 => .int64
  | .uint64 => .uint64
  | .nativeInt => .nativeInt
  | .nativeUInt => .nativeUInt
  | .float32 => .float32
  | .float64 => .float64
  | .nativeFloat => .nativeFloat
  | .typedRef => .managedValue
  | .string => .string
  | .object => .objectRef
  | .enum _ underlying => underlying.machineType
  | .valueType name => if name.isSystem "Decimal" then .decimal else .managedValue
  | .classType name => if name.isSystem "String" then .string else .objectRef
  | .array .. => .objectRef
  | .pointer _ => .unmanagedPtr
  | .byRef _ => .managedPtr

/-- The assembly spelling of a type. -/
def render : CilType → String
  | .void | .invalid => "void"
  | .boolean => "bool"
  | .char => "char"
  | .int8 => "int8"
  | .uint8 => "unsigned int8"
  | .int16 => "int16"
  | .uint16 => "unsigned int16"
  | .int32 => "int32"
  | .uint32 => "unsigned int32"
  | .int64 => "int64"
  | .uint64 => "unsigned int64"
  | .nativeInt => "native int"
  | .nativeUInt => "native unsigned int"
  | .float32 => "float32"
  | .float64 => "float64"
  | .nativeFloat => "native float"
  | .string => "string"
  | .object => "object"
  | .typedRef => "typedref"
  | .classType name => "class " ++ name.render
  | .valueType name | .enum name _ => "valuetype " ++ name.render
  | .array element rank =>
    element.render ++ "[" ++ String.ofList (List.replicate (rank - 1) ',') ++ "]"
  | .byRef target => target.render ++ "&"
  | .pointer target => target.render ++ "*"

/-- The text of a type token. Classes, value types and enumerations go by their name alone. -/
def token : CilType → String
  | .classType name | .valueType name | .enum name _ => name.render
  | t => t.render

/-- A parameter list without its parentheses. -/
def renderList (types : List CilType) : String :=
  ", ".intercalate (types.map render)

/-- The structural dump of a type. -/
def dump : CilType → String
  | .void => "Void"
  | .boolean => "Boolean"
  | .char => "Char"
  | .int8 => "Int8"
  | .uint8 => "UInt8"
  | .int16 => "Int16"
  | .uint16 => "UInt16"
  | .int32 => "Int32"
  | .uint32 => "UInt32"
  | .int64 => "Int64"
  | .uint64 => "UInt64"
  | .nativeInt => "NativeInt"
  | .nativeUInt => "NativeUInt"
  | .float32 => "Float32"
  | .float64 => "Float64"
  | .nativeFloat => "NativeFloat"
  | .string => "String"
  | .object => "Object"
  | .typedRef => "TypedRef"
  | .classType name => Dump.apply "Class" [name.dump]
  | .valueType name => Dump.apply "ValueType" [name.dump]
  | .enum name underlying => Dump.apply "Enum" [name.dump, underlying.dump]
  | .array element rank => Dump.apply "Array" [element.dump, toString rank]
  | .byRef target => Dump.apply "ByRef" [target.dump]
  | .pointer target => Dump.apply "Pointer" [target.dump]
  | .invalid => "Invalid"

end CilType

/-- The type that stands for a machine type. Pointers and opaque structures have none of their own
and give `invalid`, as `void` does. -/
def MachineType.canonicalType : MachineType → CilType
  | .boolean => .boolean
  | .int8 => .int8
  | .uint8 => .uint8
  | .int16 => .int16
  | .uint16 => .uint16
  | .char => .char
  | .int32 => .int32
  | .uint32 => .uint32
  | .int64 => .int64
  | .uint64 => .uint64
  | .nativeInt => .nativeInt
  | .nativeUInt => .nativeUInt
  | .float32 => .float32
  | .float64 => .float64
  | .nativeFloat => .nativeFloat
  | .string => .string
  | .decimal => .valueType (.system "Decimal")
  | .objectRef => .object
  | .void | .unmanagedPtr | .managedPtr | .transientPtr | .managedValue => .invalid

end CilAssembly

import CilAssembly.Context.Emission

/-! Access to variable slots, array elements and values behind pointers. -/
namespace CilAssembly

/-- The opcodes of one kind of access to a slot: those with the slot number built in, for slots zero
to three, the one with a one-byte number and the one with a two-byte number. -/
structure SlotAccess where
  implicit : Option (Opcode × Opcode × Opcode × Opcode)
  short : Opcode
  long : Opcode
  deriving DecidableEq, Repr, Inhabited

namespace SlotAccess

def loadLocal : SlotAccess :=
  ⟨some (.ldloc_0, .ldloc_1, .ldloc_2, .ldloc_3), .ldlocS, .ldloc⟩

def storeLocal : SlotAccess :=
  ⟨some (.stloc_0, .stloc_1, .stloc_2, .stloc_3), .stlocS, .stloc⟩

def localAddress : SlotAccess :=
  ⟨none, .ldlocaS, .ldloca⟩

def loadArg : SlotAccess :=
  ⟨some (.ldarg_0, .ldarg_1, .ldarg_2, .ldarg_3), .ldargS, .ldarg⟩

def storeArg : SlotAccess :=
  ⟨none, .stargS, .starg⟩

def argAddress : SlotAccess :=
  ⟨none, .ldargaS, .ldarga⟩

/-- The shortest instruction for an access to a slot. -/
def instruction (access : SlotAccess) (index : Nat) : Instruction :=
  match access.implicit, index with
  | some (opcode, _, _, _), 0 => { opcode }
  | some (_, opcode, _, _), 1 => { opcode }
  | some (_, _, opcode, _), 2 => { opcode }
  | some (_, _, _, opcode), 3 => { opcode }
  | _, index =>
    if index ≤ 255 then ⟨access.short, .uint index⟩ else ⟨access.long, .uint (index % 0x10000)⟩

end SlotAccess

/-- An array store whose array and index are on the stack. The value is pushed next, then the store
is committed. -/
structure PendingStore where
  element : CilType
  deriving DecidableEq, Repr, Inhabited

namespace Gen

def accessSlot (access : SlotAccess) (slot : Slot) : Gen Unit :=
  enqueue (access.instruction slot.index)

/-- Loads an array element; a structure through its address. -/
def loadElement (element : CilType) : Gen Unit := do
  match element.machineType.arrayLoad? with
  | some opcode => simple opcode
  | none =>
    if element.machineType.isStructure then
      typeToken .ldelema element
      typeToken .ldobj element
    else violate (.cannotLoadElements element)

/-- Starts storing an array element. The address of a structure is taken now. -/
def prepareStore (element : CilType) : Gen PendingStore := do
  if element.machineType.arrayStore?.isNone then
    if element.machineType.isStructure then typeToken .ldelema element
    else violate (.cannotStoreElements element)
  return ⟨element⟩

/-- Stores the pushed value. -/
def commitStore (store : PendingStore) : Gen Unit :=
  match store.element.machineType.arrayStore? with
  | some opcode => simple opcode
  | none => typeToken .stobj store.element

/-- Loads a value through a pointer. -/
def loadIndirect (type : CilType) : Gen Unit :=
  match type.machineType.indirectLoad? with
  | some opcode => simple opcode
  | none =>
    if type.machineType.isStructure then typeToken .ldobj type
    else violate (.cannotLoadIndirectly type)

/-- Stores a value through a pointer. -/
def storeIndirect (type : CilType) : Gen Unit :=
  match type.machineType.indirectStore? with
  | some opcode => simple opcode
  | none =>
    if type.machineType.isStructure then typeToken .stobj type
    else violate (.cannotStoreIndirectly type)

end Gen

end CilAssembly

/-!
Tables of what is known about the variable slots of a control-flow path. A path that forks copies its
table; where paths join, a status bit survives if both tables have it.
-/
namespace CilAssembly

/-- What is known about one slot, as a set of bits. -/
abbrev Status := UInt8

namespace Status

/-- The variable is declared. -/
def declared : Status := 1

/-- The value of the variable has been read. -/
def used : Status := 2

/-- The variable has been assigned. -/
def modified : Status := 4

end Status

/-- The statuses of the slots from zero on. Tables grow by whole blocks; a slot past the end has no
status bit. -/
structure UsageTable where
  slots : Array Status
  deriving DecidableEq, Repr

namespace UsageTable

/-- The number of slots in a block. -/
def blockSize : Nat := 32

/-- One block without any status. -/
def empty : UsageTable :=
  ⟨Array.replicate blockSize 0⟩

instance : Inhabited UsageTable := ⟨empty⟩

/-- The number of slots that a table covers. -/
def capacity (table : UsageTable) : Nat :=
  table.slots.size

/-- The table of a new path: a copy of the table it forks from, if any. -/
def create (previous : Option UsageTable) : UsageTable :=
  previous.getD empty

def get (table : UsageTable) (slot : Nat) : Status :=
  table.slots.getD slot 0

/-- Adds just enough blocks to cover a slot. -/
def cover (table : UsageTable) (slot : Nat) : UsageTable :=
  ⟨table.slots ++ Array.replicate ((slot / blockSize + 1) * blockSize - table.capacity) 0⟩

/-- Adds status bits to a slot. -/
def set (table : UsageTable) (slot : Nat) (status : Status) : UsageTable :=
  ⟨(table.cover slot).slots.modify slot (· ||| status)⟩

/-- Takes every status bit from a slot. The table keeps its size. -/
def clear (table : UsageTable) (slot : Nat) : UsageTable :=
  ⟨table.slots.modify slot fun _ => 0⟩

/-- The table after two paths join. It covers what both tables cover. -/
def meet (left right : UsageTable) : UsageTable :=
  ⟨Array.zipWith (· &&& ·) left.slots right.slots⟩

/-- The table after the paths that do arrive join; without any, a new table. -/
def merge : Option UsageTable → Option UsageTable → UsageTable
  | some left, some right => left.meet right
  | some table, none | none, some table => table
  | none, none => empty

/-- The slots with a status, in increasing order. -/
def entries (table : UsageTable) : List (Nat × Status) :=
  table.slots.toList.zipIdx.filterMap fun (status, slot) =>
    if status == 0 then none else some (slot, status)

end UsageTable

end CilAssembly

/-! Branch targets. -/
namespace CilAssembly

/-- The number of a label; the first label of a unit is number one. -/
structure LabelId where
  number : Nat
  deriving DecidableEq, Repr, Inhabited

namespace LabelId

def render (id : LabelId) : String :=
  "?L" ++ toString id.number

end LabelId

/-- A branch target. Jumps to a leave label may have to leave a protected region. -/
structure Label where
  id : LabelId
  leave : Bool
  deriving DecidableEq, Repr, Inhabited

end CilAssembly

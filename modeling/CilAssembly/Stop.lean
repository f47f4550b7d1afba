import CilAssembly.CilType
import CilAssembly.Label

/-!
Why generation stops. A violation is a caller that broke a rule of the interface and ends the unit; a
failure is a limit of the target format or of the output device.
-/
namespace CilAssembly

/-- What a check at the end of a stretch of code is about. -/
inductive Stretch
  | method (name : String)
  | unit
  deriving DecidableEq, Repr, Inhabited

namespace Stretch

def render : Stretch → String
  | .method name => "method '" ++ name ++ "'"
  | .unit => "the compilation unit"

end Stretch

inductive Violation
  /-- An index names no entry of its table. -/
  | indexOutOfBounds (size index : Nat)
  /-- A counter leaves its range. -/
  | additionOverflow
  | stackUnderflow
  | notABranch (opcode : Opcode)
  | labelPlacedTwice (label : LabelId)
  | nestedSwitch
  | targetOutsideSwitch
  /-- A switch target that is marked first but follows others, or the other way round. -/
  | targetOutOfOrder (label : LabelId) (tableIsEmpty markedFirst : Bool)
  | switchNotOpen
  | switchStillOpen (stretch : Stretch)
  | labelsNeverPlaced (stretch : Stretch) (labels : List LabelId)
  | nestedMethods
  | noMethodToEnd
  | slotOutsideMethod
  | localOutsideMethod
  | unitEndsInsideMethod
  | notAnArray
  | cannotLoadElements (type : CilType)
  | cannotStoreElements (type : CilType)
  | cannotLoadIndirectly (type : CilType)
  | cannotStoreIndirectly (type : CilType)
  /-- Enclosing classes or scopes form a circle. -/
  | endlessNesting
  deriving DecidableEq, Repr, Inhabited

namespace Violation

def message : Violation → String
  | .indexOutOfBounds size index =>
    "index out of bounds: the len is " ++ toString size ++ " but the index is " ++ toString index
  | .additionOverflow => "attempt to add with overflow"
  | .stackUnderflow => "evaluation stack underflow"
  | .notABranch opcode => opcode.mnemonic ++ " is not a branch"
  | .labelPlacedTwice label => "label " ++ label.render ++ " placed twice"
  | .nestedSwitch => "nested switch tables"
  | .targetOutsideSwitch => "switch reference outside of a switch table"
  | .targetOutOfOrder label tableIsEmpty markedFirst =>
    "assertion `left == right` failed: switch reference " ++ label.render ++
      " out of order\n  left: " ++ Dump.bool tableIsEmpty ++ "\n right: " ++ Dump.bool markedFirst
  | .switchNotOpen => "switch table closed without being opened"
  | .switchStillOpen stretch => "switch table still open at the end of " ++ stretch.render
  | .labelsNeverPlaced stretch labels =>
    "labels never placed at the end of " ++ stretch.render ++ ": " ++
      ", ".intercalate (labels.map LabelId.render)
  | .nestedMethods => "nested method bodies"
  | .noMethodToEnd => "no method to end"
  | .slotOutsideMethod => "slot access outside of a method"
  | .localOutsideMethod => "local allocated outside of a method"
  | .unitEndsInsideMethod => "compilation unit finished inside a method"
  | .notAnArray => "element access on a non-array type"
  | .cannotLoadElements type => "cannot load array elements of type " ++ type.render
  | .cannotStoreElements type => "cannot store array elements of type " ++ type.render
  | .cannotLoadIndirectly type => "cannot load values of type " ++ type.render ++ " indirectly"
  | .cannotStoreIndirectly type => "cannot store values of type " ++ type.render ++ " indirectly"
  | .endlessNesting => "enclosing declarations form a circle"

end Violation

/-- The largest number of locals, and of arguments, that instructions can address. -/
def maxSlots : Nat := 0xFFFF

inductive Failure
  | tooManyLocals (method : String)
  | tooManyArguments (method : String)
  | labelsExhausted
  | cannotWrite (reason : String)
  deriving DecidableEq, Repr, Inhabited

namespace Failure

def message : Failure → String
  | .tooManyLocals method =>
    "too many local variables in method '" ++ method ++ "' (at most " ++ toString maxSlots ++
      " are allowed)"
  | .tooManyArguments method =>
    "too many arguments for method '" ++ method ++ "' (at most " ++ toString maxSlots ++
      " are allowed)"
  | .labelsExhausted => "out of label identifiers"
  | .cannotWrite reason => "cannot write the assembly output: " ++ reason

end Failure

inductive Stop
  | violation (v : Violation)
  | failure (f : Failure)
  deriving DecidableEq, Repr, Inhabited

/-- The entry of a table at an index. -/
def fetch {α : Type} (table : Array α) (index : Nat) : Except Violation α :=
  match table[index]? with
  | some entry => .ok entry
  | none => .error (.indexOutOfBounds table.size index)

end CilAssembly

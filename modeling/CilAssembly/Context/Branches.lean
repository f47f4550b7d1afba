import CilAssembly.Context

/-!
Labels, jumps and switch tables. A label is created unplaced, is the target of any number of jumps
and is placed once. An unconditional jump to a leave label stays open until the end of its method,
when it becomes `leave` if the label was placed as a leave target and `br` otherwise.
-/
namespace CilAssembly.Gen

def newLabelOf (leave : Bool) : Gen Label := do
  orFail (← get).labels.checkRoom
  modifyGet fun c => (⟨c.labels.next, leave⟩, { c with labels := c.labels.add })

def newLabel : Gen Label :=
  newLabelOf false

def newLeaveLabel : Gen Label :=
  newLabelOf true

/-- Branches to a label, placed or not. -/
def jump (opcode : Opcode) (label : Label) : Gen Unit := do
  if !opcode.isBranch then violate (.notABranch opcode)
  let settled := if label.leave && opcode.isUnconditionalBranch then .branchOrLeave else opcode
  barrier ⟨settled, .target label.id⟩

def placeAs (leave : Bool) (label : Label) : Gen Unit := do
  flush
  orViolate ((← get).labels.checkPlace label.id)
  modify fun c =>
    { c with
      labels := c.labels.place label.id leave
      listing := c.listing.push (.label label.id leave) }

/-- Places a label. -/
def place (label : Label) : Gen Unit :=
  placeAs false label

/-- Places a label outside the protected regions of the jumps to it. -/
def placeLeave (label : Label) : Gen Unit :=
  placeAs true label

/-- Opens a switch table. -/
def beginSwitch : Gen Unit := do
  if (← get).labels.switch.isSome then violate .nestedSwitch
  flush
  modify fun c => { c with labels := { c.labels with switch := some #[] } }

/-- Adds a target to the open switch table; the first one is marked so. -/
def switchTarget (label : Label) (first : Bool) : Gen Unit := do
  match (← get).labels.switch with
  | none => violate .targetOutsideSwitch
  | some targets =>
    if targets.isEmpty != first then violate (.targetOutOfOrder label.id targets.isEmpty first)
    modify fun c =>
      { c with labels := { c.labels with switch := c.labels.switch.map (·.push label.id) } }

/-- Closes the switch table and emits its instruction. -/
def endSwitch : Gen Unit := do
  match (← get).labels.switch with
  | none => violate .switchNotOpen
  | some targets =>
    modify fun c => { c with labels := { c.labels with switch := none } }
    barrier ⟨.switch, .switch targets.toList⟩

end CilAssembly.Gen

import CilAssembly.Stop

/-! The labels of a compilation unit, and the switch table that is being collected. -/
namespace CilAssembly

/-- What has happened to a label. -/
inductive Mark
  | unplaced
  | placed (leave : Bool)
  deriving DecidableEq, Repr, Inhabited

namespace Mark

def isPlaced : Mark → Bool
  | .unplaced => false
  | .placed _ => true

end Mark

/-- The marks of the labels from number one on, and the targets of the open switch table. -/
structure Labels where
  marks : Array Mark := #[]
  switch : Option (Array LabelId) := none
  deriving DecidableEq, Repr, Inhabited

namespace Labels

/-- The largest number of labels in a unit: label numbers and the next free one fit in 32 bits. -/
def limit : Nat := 0xFFFFFFFE

def created (labels : Labels) : Nat :=
  labels.marks.size

def placed (labels : Labels) : Nat :=
  labels.marks.countP Mark.isPlaced

def mark? (labels : Labels) (id : LabelId) : Option Mark :=
  if id.number = 0 then none else labels.marks[id.number - 1]?

/-- The label stands outside the protected regions of the jumps to it. -/
def isLeaveTarget (labels : Labels) (id : LabelId) : Bool :=
  labels.mark? id == some (.placed true)

/-- The labels not placed yet, in increasing order. -/
def unplaced (labels : Labels) : List LabelId :=
  labels.marks.toList.zipIdx.filterMap fun (mark, index) =>
    if mark.isPlaced then none else some ⟨index + 1⟩

/-- The number of the next label. -/
def next (labels : Labels) : LabelId :=
  ⟨labels.created + 1⟩

/-- Whether the next label can be handed out. -/
def checkRoom (labels : Labels) : Except Failure Unit :=
  if labels.created < limit then .ok () else .error .labelsExhausted

/-- Hands out the next label. -/
def add (labels : Labels) : Labels :=
  { labels with marks := labels.marks.push .unplaced }

/-- Whether a label can be placed. -/
def checkPlace (labels : Labels) (id : LabelId) : Except Violation Unit :=
  match labels.mark? id with
  | some .unplaced => .ok ()
  | some (.placed _) => .error (.labelPlacedTwice id)
  | none => .error (.indexOutOfBounds labels.created (id.number - 1))

/-- Marks a label as placed, as a leave target or not. -/
def place (labels : Labels) (id : LabelId) (leave : Bool) : Labels :=
  { labels with marks := labels.marks.setIfInBounds (id.number - 1) (.placed leave) }

/-- Every label is placed and no switch table is open. -/
def checkComplete (labels : Labels) (stretch : Stretch) : Except Violation Unit :=
  if labels.switch.isSome then .error (.switchStillOpen stretch)
  else
    match labels.unplaced with
    | [] => .ok ()
    | ids => .error (.labelsNeverPlaced stretch ids)

end Labels

end CilAssembly

import CilAssembly.Instruction

/-!
The assembly listing. Lines are only ever appended; the single later change is that pending
`br.or.leave` jumps become `br` or `leave`.
-/
namespace CilAssembly

/-- A line of the listing. A label line records whether the label was placed outside the protected
regions of the jumps to it. -/
inductive Line
  | instruction (i : Instruction)
  | label (id : LabelId) (leave : Bool)
  | directive (text : String)
  deriving DecidableEq, Repr, Inhabited

namespace Line

def render : Line → String
  | .instruction i => i.render
  | .label id _ => id.render ++ ":\n"
  | .directive text => text ++ "\n"

def instruction? : Line → Option Instruction
  | .instruction i => some i
  | _ => none

/-- The labels that a line branches to. -/
def targets : Line → List LabelId
  | .instruction i => i.operand.labels
  | _ => []

/-- The line is a jump whose form is still open. -/
def isPending : Line → Bool
  | .instruction ⟨.branchOrLeave, .target _⟩ => true
  | _ => false

/-- Settles an open jump: `leave` if its target is a leave target, `br` otherwise. -/
def resolve (isLeaveTarget : LabelId → Bool) : Line → Line
  | .instruction ⟨.branchOrLeave, .target id⟩ =>
    .instruction ⟨if isLeaveTarget id then .leave else .br, .target id⟩
  | line => line

end Line

structure Listing where
  lines : Array Line := #[]
  deriving DecidableEq, Repr, Inhabited

namespace Listing

def size (listing : Listing) : Nat :=
  listing.lines.size

def push (listing : Listing) (line : Line) : Listing :=
  ⟨listing.lines.push line⟩

def pushInstruction (listing : Listing) (i : Instruction) : Listing :=
  listing.push (.instruction i)

/-- Appends instructions in order. -/
def pushInstructions (listing : Listing) (is : List Instruction) : Listing :=
  is.foldl pushInstruction listing

def instructions (listing : Listing) : List Instruction :=
  listing.lines.toList.filterMap Line.instruction?

/-- The assembly text. -/
def render (listing : Listing) : String :=
  listing.lines.foldl (fun text line => text ++ line.render) ""

/-- Every label line as the label and the index of the line, in line order. -/
def labelLines (listing : Listing) : List (LabelId × Nat) :=
  listing.lines.toList.zipIdx.filterMap fun (line, index) =>
    match line with
    | .label id _ => some (id, index)
    | _ => none

/-- Every placed label with the index of its line. Of two lines for one label the last counts. -/
def labelPositions (listing : Listing) : List (LabelId × Nat) :=
  listing.labelLines.foldr
    (fun entry later => if later.any (·.1 == entry.1) then later else entry :: later) []

/-- Every branch as the index of its line and its target; a `switch` gives one entry a target. -/
def branchTargets (listing : Listing) : List (Nat × LabelId) :=
  listing.lines.toList.zipIdx.flatMap fun (line, index) => line.targets.map fun label => (index, label)

/-- Settles the open jumps from a line on. -/
def resolveFrom (listing : Listing) (start : Nat) (isLeaveTarget : LabelId → Bool) : Listing :=
  ⟨listing.lines.mapIdx fun index line =>
    if start ≤ index then line.resolve isLeaveTarget else line⟩

/-- The number of open jumps from a line on. -/
def pendingFrom (listing : Listing) (start : Nat) : Nat :=
  (listing.lines.toList.drop start).countP Line.isPending

end Listing

end CilAssembly

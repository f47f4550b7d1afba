import CilAssembly.Instruction

/-!
The peephole window. Instructions wait in a short window before they are committed; while they wait,
two neighbours at its newest end that undo each other are dropped.
-/
namespace CilAssembly.Peephole

/-- Executing the first opcode and then the second leaves everything as it was. -/
def cancels : Opcode → Opcode → Bool
  | .dup, .pop => true
  | load, .pop => load.isPureLoad
  | .neg, .neg => true
  | .not, .not => true
  | .ldcI4_0, .add | .ldcI4_0, .sub | .ldcI4_0, .or | .ldcI4_0, .xor => true
  | .ldcI4_1, .mul | .ldcI4_1, .div => true
  | _, _ => false

/-- The second instruction repeats a conversion that the first has just made. -/
def repeats (first second : Instruction) : Bool :=
  first.same second && first.opcode.isConversion

/-- The number of instructions that may wait. -/
def capacity : Nat := 4

/-- The instructions that wait, newest first, with the number of removals so far. A disabled queue
commits every instruction at once. -/
structure Queue where
  window : List Instruction := []
  enabled : Bool
  removals : Nat := 0
  deriving DecidableEq, Repr, Inhabited

/-- Applies the rules at the newest end of a window until none applies there, and counts the
removals. -/
def settle : List Instruction → List Instruction × Nat
  | newest :: older :: rest =>
    if cancels older.opcode newest.opcode then
      let (window, count) := settle rest
      (window, count + 1)
    else if repeats older newest then
      let (window, count) := settle (older :: rest)
      (window, count + 1)
    else (newest :: older :: rest, 0)
  | window => (window, 0)

namespace Queue

/-- Adds an instruction. Returns the instructions that leave the window, oldest first. -/
def push (queue : Queue) (i : Instruction) : Queue × List Instruction :=
  if queue.enabled then
    let (window, count) := settle (i :: queue.window)
    ({ queue with window := window.take capacity, removals := queue.removals + count },
      (window.drop capacity).reverse)
  else (queue, [i])

/-- Empties the window. Returns its instructions, oldest first. -/
def flush (queue : Queue) : Queue × List Instruction :=
  ({ queue with window := [] }, queue.window.reverse)

/-- Turns the rules on or off. Turning it off empties the window. -/
def setEnabled (queue : Queue) (enabled : Bool) : Queue × List Instruction :=
  if enabled then ({ queue with enabled }, [])
  else
    let (queue, committed) := queue.flush
    ({ queue with enabled }, committed)

end Queue

end CilAssembly.Peephole

import CilAssembly.Peephole
import Mathlib.Tactic.Common

/-!
Runs of the peephole queue: any number of pushes, flushes and switches of the rules, with the
instructions that leave the window on the way.
-/
namespace CilAssembly.Peephole

/-- A pair of opcodes that cancel is one of six kinds. -/
lemma cancels_cases {x y : Opcode} (h : cancels x y = true) :
    (x = .dup ∧ y = .pop) ∨ (x.isPureLoad = true ∧ y = .pop) ∨ (x = .neg ∧ y = .neg) ∨
      (x = .not ∧ y = .not) ∨ (x = .ldcI4_0 ∧ (y = .add ∨ y = .sub ∨ y = .or ∨ y = .xor)) ∨
      (x = .ldcI4_1 ∧ (y = .mul ∨ y = .div)) := by
  unfold cancels at h
  split at h <;> simp_all

inductive Operation
  | push (i : Instruction)
  | flush
  | setEnabled (enabled : Bool)
  deriving DecidableEq, Repr

/-- The instructions that operations put in, in order. -/
def pushed : List Operation → List Instruction :=
  List.filterMap fun
    | .push i => some i
    | _ => none

@[simp] lemma pushed_nil : pushed [] = [] := rfl
@[simp] lemma pushed_push (i : Instruction) (ops : List Operation) :
    pushed (.push i :: ops) = i :: pushed ops := rfl
@[simp] lemma pushed_flush (ops : List Operation) : pushed (.flush :: ops) = pushed ops := rfl
@[simp] lemma pushed_setEnabled (enabled : Bool) (ops : List Operation) :
    pushed (.setEnabled enabled :: ops) = pushed ops := rfl

namespace Queue

/-- Performs an operation. Returns the instructions that it commits. -/
def apply (queue : Queue) : Operation → Queue × List Instruction
  | .push i => queue.push i
  | .flush => queue.flush
  | .setEnabled enabled => queue.setEnabled enabled

def applyAll (queue : Queue) : List Operation → Queue × List Instruction
  | [] => (queue, [])
  | op :: ops =>
    let (next, now) := queue.apply op
    let (last, later) := next.applyAll ops
    (last, now ++ later)

/-- Everything that a run of operations and a final flush commit. -/
def committed (queue : Queue) (ops : List Operation) : List Instruction :=
  (queue.applyAll ops).2 ++ (queue.applyAll ops).1.flush.2

/-- The instructions that wait, oldest first. -/
def waiting (queue : Queue) : List Instruction :=
  queue.window.reverse

/-- Nothing waits in a queue whose rules are off. -/
def Quiet (queue : Queue) : Prop :=
  queue.enabled = false → queue.window = []

lemma quiet_create (enabled : Bool) : Quiet { enabled } :=
  fun _ => rfl

lemma Quiet.apply {queue : Queue} (h : queue.Quiet) (op : Operation) :
    (queue.apply op).1.Quiet := by
  intro hoff
  cases op with
  | push i =>
    by_cases hon : queue.enabled
    · simp [Queue.apply, push, hon] at hoff
    · simpa [Queue.apply, push, hon] using h (by simpa using hon)
  | flush => rfl
  | setEnabled enabled =>
    cases enabled with
    | false => rfl
    | true => simp [Queue.apply, setEnabled] at hoff

end Queue

end CilAssembly.Peephole

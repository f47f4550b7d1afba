import CilAssembly.Brainfuck.Program
import CilAssembly.Proofs.Evaluation.Value
import Mathlib.Data.Stream.Defs
import Mathlib.Tactic.Common

/-!
The meaning of programs. A program works on a tape of byte cells with a 32-bit pointer, reads
numbers from an input stream and writes characters. It runs to its end, traps, or runs forever.
-/
namespace CilAssembly.Brainfuck
open Evaluation (Trap)

/-- Wrapping at a multiple of 256 does not show in the low byte. -/
lemma ofInt_bmod {m : Nat} (hm : 256 ∣ m) (x : Int) : UInt8.ofInt (x.bmod m) = UInt8.ofInt x := by
  have h : x.bmod m % 256 = x % 256 := by
    dsimp only [Int.bmod]
    have hmod := Int.emod_emod_of_dvd x (Int.ofNat_dvd.mpr hm)
    split <;> omega
  exact congrArg (fun y : Int => UInt8.ofNat y.toNat) h

lemma ofInt_toNat (c : UInt8) : UInt8.ofInt c.toNat = c := by
  have hc : ((c.toNat : Int) % 2 ^ 8).toNat = c.toNat := by
    have := c.toNat_lt
    omega
  rw [UInt8.ofInt, hc, UInt8.ofNat_toNat]

/-- What a program works on. The input is the sequence of answers that reading gets, the output is
everything written so far. -/
structure Store where
  cells : Array UInt8
  pointer : Int32
  input : Stream' Int32
  output : List UInt16

namespace Store

/-- The store of a program that starts: 30000 cells, all zero. -/
def blank (input : Stream' Int32) : Store :=
  ⟨Array.replicate 30000 0, 0, input, []⟩

/-- The number of the current cell, where the pointer is on the tape. -/
def position (s : Store) : Except Trap Nat :=
  if 0 ≤ s.pointer.toInt ∧ s.pointer.toInt < s.cells.size then .ok s.pointer.toInt.toNat
  else .error .indexOutOfRange

def cell (s : Store) : Except Trap UInt8 := do
  return s.cells.getD (← s.position) 0

def write (s : Store) (value : UInt8) : Except Trap Store := do
  return { s with cells := s.cells.setIfInBounds (← s.position) value }

lemma write_eq_ok {s t : Store} {v : UInt8} :
    s.write v = .ok t ↔
      ∃ n, s.position = .ok n ∧ { s with cells := s.cells.setIfInBounds n v } = t := by
  unfold write
  cases s.position <;> simp [bind, Except.bind, pure, Except.pure]

lemma write_eq_error {s : Store} {v : UInt8} {t : Trap} :
    s.write v = .error t ↔ s.position = .error t := by
  unfold write
  cases s.position <;> simp [bind, Except.bind, pure, Except.pure]

/-- Performs a command other than a loop. Cells hold numbers modulo 256; checked arithmetic traps
instead where a sum is no byte. Amounts and offsets of zero do nothing. -/
def perform (checked : Bool) (s : Store) : Action → Except Trap Store
  | .add amount =>
    if amount = 0 then .ok s
    else do
      let sum : Int := (← s.cell).toNat + amount.toInt
      if checked ∧ (sum < 0 ∨ 255 < sum) then .error .overflow else s.write (.ofInt sum)
  | .shift offset => .ok { s with pointer := s.pointer + offset }
  | .output => do return { s with output := s.output ++ [(← s.cell).toUInt16] }
  | .input => do return { ← s.write (.ofInt s.input.head.toInt) with input := s.input.tail }
  | .clear => s.write 0

end Store

/-- How a run ends: in a final store, or with a trap after some output. -/
inductive Ending
  | halted (s : Store)
  | trapped (t : Trap) (output : List UInt16)

/-- A program that starts on a store runs to an ending. A program without any ending runs
forever. -/
inductive Program.Runs (checked : Bool) : Program → Store → Ending → Prop
  | done {s} : Runs checked .done s (.halted s)
  | act {span a rest s t e} (step : s.perform checked a = .ok t) (tail : Runs checked rest t e) :
      Runs checked (.act span a rest) s e
  | actTrap {span a rest s t} (step : s.perform checked a = .error t) :
      Runs checked (.act span a rest) s (.trapped t s.output)
  | loopTrap {span body rest s t} (test : s.cell = .error t) :
      Runs checked (.loop span body rest) s (.trapped t s.output)
  | loopSkip {span body rest s e} (test : s.cell = .ok 0) (tail : Runs checked rest s e) :
      Runs checked (.loop span body rest) s e
  | loopStop {span body rest s c t output} (test : s.cell = .ok c) (entered : c ≠ 0)
      (inner : Runs checked body s (.trapped t output)) :
      Runs checked (.loop span body rest) s (.trapped t output)
  | loopAgain {span body rest s c t e} (test : s.cell = .ok c) (entered : c ≠ 0)
      (inner : Runs checked body s (.halted t)) (again : Runs checked (.loop span body rest) t e) :
      Runs checked (.loop span body rest) s e

/-- A run has one ending. -/
theorem Program.Runs.unique {checked : Bool} {p : Program} {s : Store} {e e' : Ending}
    (h : p.Runs checked s e) (h' : p.Runs checked s e') : e = e' := by
  induction h generalizing e' with
  | done => cases h'; rfl
  | act step _ ih =>
    cases h' with
    | act step' tail' =>
      cases step.symm.trans step'
      exact ih tail'
    | actTrap step' => cases step.symm.trans step'
  | actTrap step =>
    cases h' with
    | act step' tail' => cases step.symm.trans step'
    | actTrap step' => cases step.symm.trans step'; rfl
  | loopTrap test =>
    cases h' with
    | loopTrap test' => cases test.symm.trans test'; rfl
    | loopSkip test' => cases test.symm.trans test'
    | loopStop test' => cases test.symm.trans test'
    | loopAgain test' => cases test.symm.trans test'
  | loopSkip test _ ih =>
    cases h' with
    | loopTrap test' => cases test.symm.trans test'
    | loopSkip _ tail' => exact ih tail'
    | loopStop test' entered => cases test.symm.trans test'; contradiction
    | loopAgain test' entered => cases test.symm.trans test'; contradiction
  | loopStop test entered _ ih =>
    cases h' with
    | loopTrap test' => cases test.symm.trans test'
    | loopSkip test' => cases test.symm.trans test'; contradiction
    | loopStop _ _ inner' => exact ih inner'
    | loopAgain _ _ inner' => cases ih inner'
  | loopAgain test entered _ _ ih ihAgain =>
    cases h' with
    | loopTrap test' => cases test.symm.trans test'
    | loopSkip test' => cases test.symm.trans test'; contradiction
    | loopStop _ _ inner' => cases ih inner'
    | loopAgain _ _ inner' again' =>
      cases ih inner'
      exact ihAgain again'

end CilAssembly.Brainfuck

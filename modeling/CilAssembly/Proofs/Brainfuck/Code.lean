import CilAssembly.Brainfuck.Program
import CilAssembly.Context.Emission
import CilAssembly.Proofs.Brainfuck.Execution
import CilAssembly.Proofs.Brainfuck.Machine
import CilAssembly.Proofs.Evaluation.Forms

/-!
The code of single commands, and what it does: on a machine that holds the tape and the pointer in
its two locals, the code of a command performs the command.
-/
namespace CilAssembly.Brainfuck
open Evaluation

/-- Pushes the tape and the pointer. -/
def operandCode : List Instruction :=
  [{ opcode := .ldloc_0 }, { opcode := .ldloc_1 }]

/-- Pushes the current cell. -/
def cellCode : List Instruction :=
  operandCode ++ [{ opcode := .ldelemU1 }]

namespace Action

/-- The code of a command. Steps that cancel out have none. -/
def code (checked : Bool) : Action → List Instruction
  | .add amount =>
    if amount = 0 then []
    else
      operandCode ++ cellCode ++
        [Gen.int32Load amount, { opcode := if checked then .addOvf else .add },
         { opcode := if checked then .convOvfU1 else .convU1 }, { opcode := .stelemI1 }]
  | .shift offset =>
    if offset = 0 then []
    else
      [{ opcode := .ldloc_1 }, Gen.int32Load offset, { opcode := .add }, { opcode := .stloc_1 }]
  | .output => cellCode ++ [⟨.call, .token writeToken⟩]
  | .input =>
    operandCode ++ [⟨.call, .token readToken⟩, { opcode := .convU1 }, { opcode := .stelemI1 }]
  | .clear => operandCode ++ [Gen.int32Load 0, { opcode := .stelemI1 }]

end Action

/-- The machine that holds a store: the tape is its only vector, and the two locals are the tape and
the pointer. -/
def holding (s : Store) (stack : List (Value Reference)) : MachineState :=
  ⟨stack, [], [.reference (.vector 0), .int32 s.pointer], ⟨[s.cells], s.input⟩⟩

lemma eq_ofInt {v : Int32} {n : Int} (h : v.toInt = n) : v = .ofInt n := by
  rw [← h, Int32.ofInt_toInt]

lemma toInt_eq_bmod (v : Int32) : v.toInt = (v.toUInt32.toNat : Int).bmod Int32.size :=
  BitVec.toInt_eq_toNat_bmod v.toBitVec

lemma toInt_of_byte (c : UInt8) : c.toUInt32.toInt32.toInt = c.toNat := by
  have hc := c.toNat_lt
  have hsize : Int32.size = 0x100000000 := rfl
  rw [toInt_eq_bmod, UInt32.toUInt32_toInt32, UInt8.toNat_toUInt32]
  exact Int.bmod_eq_of_le (by omega) (by omega)

lemma ofInt_of_byte (c : UInt8) : UInt8.ofInt c.toUInt32.toInt32.toInt = c := by
  rw [toInt_of_byte, ofInt_toNat]

lemma low_byte (v : Int32) : v.toUInt32.toUInt8 = UInt8.ofInt v.toInt := by
  rw [toInt_eq_bmod, ofInt_bmod (by decide)]
  apply UInt8.toNat_inj.mp
  simp only [UInt32.toNat_toUInt8, UInt8.ofInt, UInt8.toNat_ofNat']
  omega

section Instructions
variable (s : Store) (stack : List (Value Reference))

lemma execute_tape : runtime.execute { opcode := .ldloc_0 } (holding s stack) =
    .ok (holding s (.reference (.vector 0) :: stack), []) := rfl

lemma execute_pointer : runtime.execute { opcode := .ldloc_1 } (holding s stack) =
    .ok (holding s (.int32 s.pointer :: stack), []) := rfl

lemma execute_constant (v : Int32) : runtime.execute (Gen.int32Load v) (holding s stack) =
    .ok (holding s (.int32 v :: stack), []) :=
  execute_int32Load runtime v _

/-- The bounds check of the machine is that of the tape. -/
lemma checkIndex_pointer : MachineState.checkIndex s.cells s.pointer =
    s.position.mapError Fault.trap := by
  unfold MachineState.checkIndex Store.position
  by_cases h : 0 ≤ s.pointer.toInt ∧ s.pointer.toInt < s.cells.size
  · rw [if_pos h, if_neg (by omega)]
    rfl
  · rw [if_neg h, if_pos (by omega)]
    rfl

lemma execute_load_cell :
    runtime.execute { opcode := .ldelemU1 }
        (holding s (.int32 s.pointer :: .reference (.vector 0) :: stack)) =
      match s.cell with
      | .ok c => .ok (holding s (.int32 c.toUInt32.toInt32 :: stack), [])
      | .error t => .error (.trap t) := by
  change (·, []) <$> (do
    let position ← MachineState.checkIndex s.cells s.pointer
    return holding s (.int32 (s.cells.getD position 0).toUInt32.toInt32 :: stack)) = _
  rw [checkIndex_pointer, Store.cell]
  cases s.position <;> rfl

lemma execute_store_cell (v : Int32) :
    runtime.execute { opcode := .stelemI1 }
        (holding s (.int32 v :: .int32 s.pointer :: .reference (.vector 0) :: stack)) =
      match s.write (.ofInt v.toInt) with
      | .ok t => .ok (holding t stack, [])
      | .error t => .error (.trap t) := by
  change (·, []) <$> (do
    let position ← MachineState.checkIndex s.cells s.pointer
    return holding { s with cells := s.cells.setIfInBounds position v.toUInt32.toUInt8 } stack) = _
  rw [checkIndex_pointer, Store.write, low_byte]
  cases s.position <;> rfl

lemma execute_add (x y : Int32) :
    runtime.execute { opcode := .add } (holding s (.int32 y :: .int32 x :: stack)) =
      .ok (holding s (.int32 (x + y) :: stack), []) := rfl

lemma execute_conv (v : Int32) :
    runtime.execute { opcode := .convU1 } (holding s (.int32 v :: stack)) =
      .ok (holding s (.int32 (UInt8.ofInt v.toInt).toUInt32.toInt32 :: stack), []) := by
  rw [← low_byte, ← UInt32.toUInt8_toUInt64]
  rfl

lemma execute_store_pointer (v : Int32) :
    runtime.execute { opcode := .stloc_1 } (holding s (.int32 v :: stack)) =
      .ok (holding { s with pointer := v } stack, []) := rfl

lemma execute_read :
    runtime.execute ⟨.call, .token readToken⟩ (holding s stack) =
      .ok (holding { s with input := s.input.tail } (.int32 s.input.head :: stack), []) := rfl

lemma execute_print (v : Int32) :
    runtime.execute ⟨.call, .token writeToken⟩ (holding s (.int32 v :: stack)) =
      .ok (holding s stack, [v.toUInt32.toUInt16]) := rfl

lemma execute_add_checked (x y : Int32) :
    runtime.execute { opcode := .addOvf } (holding s (.int32 y :: .int32 x :: stack)) =
      if x.toInt + y.toInt < -0x80000000 ∨ 0x80000000 ≤ x.toInt + y.toInt then
        .error (.trap .overflow)
      else .ok (holding s (.int32 (.ofInt (x.toInt + y.toInt)) :: stack), []) := by
  change (·, []) <$> (if _ then _ else _) = _
  split <;> rfl

lemma execute_conv_checked (v : Int32) :
    runtime.execute { opcode := .convOvfU1 } (holding s (.int32 v :: stack)) =
      if v.toInt < 0 ∨ 255 < v.toInt then .error (.trap .overflow)
      else .ok (holding s (.int32 v :: stack), []) := by
  change (·, []) <$> (if _ then _ else _) = _
  split <;> rfl

end Instructions

/-- Code that goes through on a store, with the store and the characters it leaves behind. -/
def Performs (is : List Instruction) (u v : MachineState) (written : List UInt16) : Prop :=
  ∃ peak, runtime.run is u = .ok ⟨v, written, peak⟩

/-- Code that traps before it has written anything. -/
def Fails (is : List Instruction) (u : MachineState) (t : Trap) : Prop :=
  ∃ before i after v, is = before ++ i :: after ∧ Performs before u v [] ∧
    runtime.execute i v = .error (.trap t)

namespace Performs

lemma nil (u : MachineState) : Performs [] u u [] :=
  ⟨_, rfl⟩

lemma cons {i : Instruction} {is : List Instruction} {u v x : MachineState} {w w' : List UInt16}
    (hi : runtime.execute i u = .ok (v, w)) (his : Performs is v x w') :
    Performs (i :: is) u x (w ++ w') := by
  obtain ⟨peak, his⟩ := his
  exact ⟨_, run_cons_eq_ok.mpr ⟨v, w, _, hi, his, rfl⟩⟩

lemma append {is js : List Instruction} {u v x : MachineState} {w w' : List UInt16}
    (his : Performs is u v w) (hjs : Performs js v x w') : Performs (is ++ js) u x (w ++ w') := by
  obtain ⟨p, his⟩ := his
  obtain ⟨q, hjs⟩ := hjs
  exact ⟨_, run_append_eq_ok.mpr ⟨_, _, his, hjs, rfl⟩⟩

end Performs

namespace Fails

lemma head {i : Instruction} {is : List Instruction} {u : MachineState} {t : Trap}
    (h : runtime.execute i u = .error (.trap t)) : Fails (i :: is) u t :=
  ⟨[], i, is, u, rfl, .nil u, h⟩

lemma after {is js : List Instruction} {u v : MachineState} {t : Trap} (his : Performs is u v [])
    (hjs : Fails js v t) : Fails (is ++ js) u t := by
  obtain ⟨before, i, rest, x, rfl, hbefore, hi⟩ := hjs
  exact ⟨is ++ before, i, rest, x, by simp, his.append hbefore, hi⟩

lemma append {is : List Instruction} {u : MachineState} {t : Trap} (his : Fails is u t)
    (js : List Instruction) : Fails (is ++ js) u t := by
  obtain ⟨before, i, rest, x, rfl, hbefore, hi⟩ := his
  exact ⟨before, i, rest ++ js, x, by simp, hbefore, hi⟩

end Fails

section Sequences
variable {s : Store} (stack : List (Value Reference))

lemma performs_operands (s : Store) :
    Performs operandCode (holding s stack)
      (holding s (.int32 s.pointer :: .reference (.vector 0) :: stack)) [] :=
  .cons (execute_tape s stack) (.cons (execute_pointer s _) (.nil _))

lemma performs_cell {c : UInt8} (h : s.cell = .ok c) :
    Performs cellCode (holding s stack) (holding s (.int32 c.toUInt32.toInt32 :: stack)) [] := by
  have hload := execute_load_cell s stack
  rw [h] at hload
  exact (performs_operands stack s).append (.cons hload (.nil _))

lemma fails_cell {t : Trap} (h : s.cell = .error t) : Fails cellCode (holding s stack) t := by
  have hload := execute_load_cell s stack
  rw [h] at hload
  exact .after (performs_operands stack s) (.head hload)

lemma performs_store {v : Int32} {t : Store} (h : s.write (.ofInt v.toInt) = .ok t) :
    Performs [{ opcode := .stelemI1 }]
      (holding s (.int32 v :: .int32 s.pointer :: .reference (.vector 0) :: stack))
      (holding t stack) [] := by
  have hstore := execute_store_cell s stack v
  rw [h] at hstore
  exact .cons hstore (.nil _)

lemma fails_store {v : Int32} {t : Trap} (h : s.write (.ofInt v.toInt) = .error t) :
    Fails [{ opcode := .stelemI1 }]
      (holding s (.int32 v :: .int32 s.pointer :: .reference (.vector 0) :: stack)) t := by
  have hstore := execute_store_cell s stack v
  rw [h] at hstore
  exact .head hstore

/-- The code that adds an amount to a number and makes the sum a byte. -/
def sumCode (checked : Bool) (amount : Int32) : List Instruction :=
  [Gen.int32Load amount, { opcode := if checked then .addOvf else .add },
   { opcode := if checked then .convOvfU1 else .convU1 }]

/-- Unless checked arithmetic forbids the sum, its low byte is left. -/
lemma performs_sum (s : Store) {checked : Bool} {c : UInt8} {amount : Int32}
    (h : ¬(checked = true ∧ (c.toNat + amount.toInt < 0 ∨ 255 < c.toNat + amount.toInt))) :
    ∃ v, Performs (sumCode checked amount) (holding s (.int32 c.toUInt32.toInt32 :: stack))
      (holding s (.int32 v :: stack)) [] ∧
      UInt8.ofInt v.toInt = .ofInt (c.toNat + amount.toInt) := by
  cases checked with
  | false =>
    refine ⟨_, .cons (execute_constant s _ amount) (.cons (execute_add s stack _ _)
      (.cons (execute_conv s stack _) (.nil _))), ?_⟩
    rw [ofInt_of_byte, Int32.toInt_add, ofInt_bmod (by decide), toInt_of_byte]
  | true =>
    have hsum : 0 ≤ c.toNat + amount.toInt ∧ c.toNat + amount.toInt ≤ 255 := by
      simp only [true_and] at h
      omega
    have hadd := execute_add_checked s stack c.toUInt32.toInt32 amount
    rw [toInt_of_byte, if_neg (by omega)] at hadd
    have hconv := execute_conv_checked s stack (.ofInt (c.toNat + amount.toInt))
    have hexact : (Int32.ofInt (c.toNat + amount.toInt)).toInt = c.toNat + amount.toInt :=
      Int32.toInt_ofInt_of_le (by omega) (by omega)
    rw [hexact, if_neg (by omega)] at hconv
    refine ⟨_, .cons (execute_constant s _ amount) (.cons hadd (.cons hconv (.nil _))), ?_⟩
    rw [hexact]

/-- Where checked arithmetic forbids the sum, its code traps, at the addition or at the
conversion. -/
lemma fails_sum (s : Store) {c : UInt8} {amount : Int32}
    (h : c.toNat + amount.toInt < 0 ∨ 255 < c.toNat + amount.toInt) :
    Fails (sumCode true amount) (holding s (.int32 c.toUInt32.toInt32 :: stack)) .overflow := by
  have hadd := execute_add_checked s stack c.toUInt32.toInt32 amount
  rw [toInt_of_byte] at hadd
  by_cases hrange : c.toNat + amount.toInt < -0x80000000 ∨ 0x80000000 ≤ c.toNat + amount.toInt
  · rw [if_pos hrange] at hadd
    exact .after (.cons (execute_constant s _ amount) (.nil _)) (.head hadd)
  · rw [if_neg hrange] at hadd
    have hconv := execute_conv_checked s stack (.ofInt (c.toNat + amount.toInt))
    rw [Int32.toInt_ofInt_of_le (by omega) (by omega), if_pos h] at hconv
    exact .after (.cons (execute_constant s _ amount) (.cons hadd (.nil _))) (.head hconv)

end Sequences

/-- Writing to the tape leaves the output alone. -/
lemma output_write {s t : Store} {v : UInt8} (h : s.write v = .ok t) : t.output = s.output := by
  obtain ⟨n, -, rfl⟩ := Store.write_eq_ok.mp h
  rfl

/-- Writing to the tape does not depend on the input. -/
lemma write_input {s t : Store} {v : UInt8} (h : s.write v = .ok t) (input : Stream' Int32) :
    { s with input }.write v = .ok { t with input } := by
  obtain ⟨n, hn, rfl⟩ := Store.write_eq_ok.mp h
  exact Store.write_eq_ok.mpr ⟨n, hn, rfl⟩

/-- The code of a command that goes through performs the command and writes what it writes. -/
theorem performs_action {checked : Bool} {a : Action} {s t : Store}
    (h : s.perform checked a = .ok t) :
    ∃ written, Performs (a.code checked) (holding s []) (holding t []) written ∧
      t.output = s.output ++ written := by
  cases a with
  | add amount =>
    by_cases hzero : amount = 0
    · simp only [Store.perform, hzero, if_true, Except.ok.injEq] at h
      subst t
      exact ⟨[], by simpa [Action.code, hzero] using Performs.nil _, by simp⟩
    · simp only [Store.perform, hzero, if_false] at h
      cases hcell : s.cell with
      | error e => rw [hcell] at h; cases h
      | ok c =>
        simp only [hcell, bind, Except.bind] at h
        split at h
        · cases h
        · rename_i hallowed
          obtain ⟨v, hsum, hv⟩ := performs_sum (.int32 s.pointer :: .reference (.vector 0) :: []) s
            hallowed
          rw [← hv] at h
          have hcode := (((performs_operands [] s).append (performs_cell _ hcell)).append
            hsum).append (performs_store [] h)
          exact ⟨[], by simpa [Action.code, hzero, sumCode] using hcode, by simp [output_write h]⟩
  | shift offset =>
    cases h
    refine ⟨[], ?_, by simp⟩
    by_cases hzero : offset = 0
    · simpa [Action.code, hzero] using Performs.nil _
    · have hcode := Performs.cons (execute_pointer s []) (.cons (execute_constant s _ offset)
        (.cons (execute_add s [] _ _) (.cons (execute_store_pointer s [] _) (.nil _))))
      simpa [Action.code, hzero] using hcode
  | output =>
    simp only [Store.perform] at h
    cases hcell : s.cell with
    | error e => rw [hcell] at h; cases h
    | ok c =>
      rw [hcell] at h
      cases h
      exact ⟨_, (performs_cell [] hcell).append (.cons (execute_print s [] _) (.nil _)), by simp⟩
  | input =>
    simp only [Store.perform] at h
    cases hwrite : s.write (.ofInt s.input.head.toInt) with
    | error e => rw [hwrite] at h; cases h
    | ok u =>
      rw [hwrite] at h
      cases h
      rw [← ofInt_of_byte (.ofInt _)] at hwrite
      have hcode := ((performs_operands [] s).append (.cons (execute_read s _)
        (.cons (execute_conv _ _ _) (.nil _)))).append
        (performs_store [] (write_input hwrite s.input.tail))
      exact ⟨[], hcode, by simp [output_write hwrite]⟩
  | clear =>
    exact ⟨[], ((performs_operands [] s).append (.cons (execute_constant s _ 0) (.nil _))).append
      (performs_store [] h), by simp [output_write h]⟩

/-- The code of a command that traps traps before it has written anything. -/
theorem fails_action {checked : Bool} {a : Action} {s : Store} {t : Trap}
    (h : s.perform checked a = .error t) : Fails (a.code checked) (holding s []) t := by
  cases a with
  | add amount =>
    by_cases hzero : amount = 0
    · rw [Store.perform, if_pos hzero] at h
      cases h
    · rw [Store.perform, if_neg hzero] at h
      have hcode : (Action.add amount).code checked =
          operandCode ++ (cellCode ++ (sumCode checked amount ++ [{ opcode := .stelemI1 }])) := by
        simp [Action.code, hzero, sumCode]
      rw [hcode]
      refine .after (performs_operands [] s) ?_
      cases hcell : s.cell with
      | error e =>
        rw [hcell] at h
        cases h
        exact (fails_cell _ hcell).append _
      | ok c =>
        refine .after (performs_cell _ hcell) ?_
        simp only [hcell, bind, Except.bind] at h
        split at h
        · rename_i hforbidden
          obtain ⟨rfl, hrange⟩ := hforbidden
          cases h
          exact (fails_sum _ s hrange).append _
        · rename_i hallowed
          obtain ⟨v, hsum, hv⟩ := performs_sum (.int32 s.pointer :: .reference (.vector 0) :: []) s
            hallowed
          rw [← hv] at h
          exact .after hsum (fails_store [] h)
  | shift offset => cases h
  | output =>
    rw [Store.perform] at h
    cases hcell : s.cell with
    | error e =>
      rw [hcell] at h
      cases h
      exact (fails_cell [] hcell).append _
    | ok c =>
      rw [hcell] at h
      cases h
  | input =>
    rw [Store.perform] at h
    cases hwrite : s.write (.ofInt s.input.head.toInt) with
    | error e =>
      rw [hwrite] at h
      cases h
      have hread := (performs_operands [] s).append (.cons (execute_read s _)
        (.cons (execute_conv _ _ _) (.nil _)))
      rw [← ofInt_of_byte (.ofInt _), Store.write_eq_error] at hwrite
      have hfail := Fails.after hread (fails_store [] (Store.write_eq_error.mpr hwrite))
      exact hfail
    | ok u =>
      rw [hwrite] at h
      cases h
  | clear =>
    have hzero := (performs_operands [] s).append (.cons (execute_constant s _ 0) (.nil _))
    have hfail := Fails.after hzero (fails_store [] h)
    exact hfail

end CilAssembly.Brainfuck

import CilAssembly.Proofs.Peephole.Rules
import CilAssembly.Proofs.Peephole.Window

/-!
The peephole queue keeps the meaning of code: what a queue commits over any run of operations does
what the instructions put in would have done, and needs no more stack.
-/
namespace CilAssembly.Peephole
open Evaluation
variable {ρ ω ε : Type} {sem : Semantics ρ ω ε}

lemma execute_zero {a : Instruction} (ha : a.opcode = .ldcI4_0) (s : State ρ ω) :
    sem.execute a s = .ok (s.push (.int32 0), []) := by
  simp only [Semantics.execute, Semantics.loadOf?, ha]
  rfl

lemma execute_one {a : Instruction} (ha : a.opcode = .ldcI4_1) (s : State ρ ω) :
    sem.execute a s = .ok (s.push (.int32 1), []) := by
  simp only [Semantics.execute, Semantics.loadOf?, ha]
  rfl

/-- A 32-bit constant that is a right unit of an operation on 32-bit and on native integers is one
on all values; 64-bit integers do not mix with it. -/
lemma eq_of_right_unit {op : Arithmetic} {c : Int32} (h32 : ∀ x, op.onInt32 x c = .ok x)
    (hn : ∀ x, op.onNative x c.toISize = .ok x) {x z : Value ρ}
    (h : op.apply x (.int32 c) = .ok z) : z = x := by
  cases x with
  | int32 v => simpa [Arithmetic.apply, h32, Functor.map, Except.map, eq_comm] using h
  | native v => simpa [Arithmetic.apply, hn, Functor.map, Except.map, eq_comm] using h
  | int64 v => simp [Arithmetic.apply] at h
  | reference r => simp [Arithmetic.apply] at h

/-- The opcodes that the rules take zero for a right unit of. -/
lemma zero_right_unit {y : Opcode} (h : y = .add ∨ y = .sub ∨ y = .or ∨ y = .xor) :
    ∃ op, binaryOf? y = some op ∧
      ∀ {x z : Value ρ}, op.apply x (.int32 0) = .ok z → z = x := by
  obtain rfl | rfl | rfl | rfl := h
  · exact ⟨.addition, rfl, eq_of_right_unit (by simp [Arithmetic.addition])
      (by simp [Arithmetic.addition])⟩
  · exact ⟨.subtraction, rfl, eq_of_right_unit (by simp [Arithmetic.subtraction])
      (by simp [Arithmetic.subtraction])⟩
  · exact ⟨.disjunction, rfl, eq_of_right_unit (by simp [Arithmetic.disjunction])
      (by simp [Arithmetic.disjunction])⟩
  · exact ⟨.exclusion, rfl, eq_of_right_unit (by simp [Arithmetic.exclusion])
      (by simp [Arithmetic.exclusion])⟩

lemma native_one_ne : (1 : ISize) ≠ 0 ∧ (1 : ISize) ≠ -1 := by
  constructor <;> simp [← ISize.toInt_inj]

/-- The opcodes that the rules take one for a right unit of. -/
lemma one_right_unit {y : Opcode} (h : y = .mul ∨ y = .div) :
    ∃ op, binaryOf? y = some op ∧
      ∀ {x z : Value ρ}, op.apply x (.int32 1) = .ok z → z = x := by
  obtain rfl | rfl := h
  · exact ⟨.multiplication, rfl, eq_of_right_unit (by simp [Arithmetic.multiplication])
      (by simp [Arithmetic.multiplication])⟩
  · refine ⟨.division, rfl, eq_of_right_unit (by simp [Arithmetic.division]) ?_⟩
    simp [Arithmetic.division, native_one_ne]

/-- Opcodes that cancel leave every state as it was, whatever their operands. -/
theorem refines_of_cancels (sem : Semantics ρ ω ε) {a b : Instruction}
    (h : cancels a.opcode b.opcode = true) :
    Refines sem [a, b] [] := by
  obtain ⟨ha, hb⟩ | ⟨ha, hb⟩ | ⟨ha, hb⟩ | ⟨ha, hb⟩ | ⟨ha, hb⟩ | ⟨ha, hb⟩ := cancels_cases h
  · exact dup_pop ha hb
  · exact load_pop ha hb
  · exact unary_unary (by rw [ha]; rfl) (by rw [hb]; rfl) negate_negate
  · exact unary_unary (by rw [ha]; rfl) (by rw [hb]; rfl) complement_complement
  · obtain ⟨op, hop, hunit⟩ := zero_right_unit hb
    exact constant_binary (execute_zero ha) hop hunit
  · obtain ⟨op, hop, hunit⟩ := one_right_unit hb
    exact constant_binary (execute_one ha) hop hunit

/-- Every conversion has a meaning, and making it twice is making it once. -/
lemma exists_unaryOf?_of_isConversion {x : Opcode} (h : x.isConversion = true) :
    ∃ g : Value ρ → Except Fault (Value ρ), unaryOf? x = some g ∧
      ∀ {x y}, g x = .ok y → g y = .ok y := by
  cases x <;> simp only [Opcode.isConversion, Bool.false_eq_true] at h
  case convR4 => exact ⟨_, rfl, fun h => nomatch h⟩
  case convR8 => exact ⟨_, rfl, fun h => nomatch h⟩
  all_goals exact ⟨_, rfl, conversion_repeated _⟩

theorem refines_of_repeats (sem : Semantics ρ ω ε) {a b : Instruction}
    (h : repeats a b = true) : Refines sem [a, b] [a] := by
  simp only [repeats, Instruction.same, Bool.and_eq_true, beq_iff_eq] at h
  obtain ⟨g, hg, hidem⟩ := exists_unaryOf?_of_isConversion (ρ := ρ) h.2
  exact unary_repeated hg (h.1.1 ▸ hg) hidem

lemma refines_of_removes (sem : Semantics ρ ω ε) {is js : List Instruction} (h : Removes is js) :
    Refines sem is js := by
  cases h with
  | pair before after h =>
    have hdrop := ((refines_of_cancels sem h).append_right after).append_left before
    simpa only [List.cons_append, List.nil_append] using hdrop
  | repeated before after h =>
    have hdrop := ((refines_of_repeats sem h).append_right after).append_left before
    simpa only [List.cons_append, List.nil_append] using hdrop

/-- Rules applied one after another keep the meaning of code. -/
theorem refines_of_removals (sem : Semantics ρ ω ε) {n : Nat} {is js : List Instruction}
    (h : Removals n is js) : Refines sem is js := by
  induction h with
  | none => exact .refl _
  | next first _ ih => exact (refines_of_removes sem first).trans ih

/-- A run of operations keeps the meaning of what waits and what is put in. -/
lemma refines_applyAll (sem : Semantics ρ ω ε) {queue : Queue} (h : queue.Quiet)
    (ops : List Operation) :
    Refines sem (queue.waiting ++ pushed ops)
      ((queue.applyAll ops).2 ++ (queue.applyAll ops).1.waiting) := by
  obtain ⟨n, -, hremovals⟩ := Queue.removals_applyAll h ops
  exact refines_of_removals sem hremovals

/-- Over any run of operations and a final flush, what a queue commits ends in the state that the
instructions put in end in, with the same side effects in the same order, and its stack never grows
higher. -/
theorem committed_preserves_outcome (sem : Semantics ρ ω ε) (enabled : Bool) (ops : List Operation)
    (s : State ρ ω) (r : Outcome ρ ω ε) (h : sem.run (pushed ops) s = .ok r) :
    ∃ r', sem.run (Queue.committed { enabled } ops) s = .ok r' ∧ r'.state = r.state ∧
      r'.effects = r.effects ∧ r'.peak ≤ r.peak := by
  have hrun := refines_applyAll sem (Queue.quiet_create enabled) ops
  obtain ⟨peak, hpeak, hcommitted⟩ := hrun s r h
  exact ⟨_, hcommitted, rfl, rfl, hpeak⟩

/-- A machine on which calls are logged and return seven, and nothing else is possible. -/
def loggingCalls : Semantics Unit Unit Operand where
  opaqueValue _ _ := .error .invalid
  other
    | ⟨.call, token⟩, s => .ok (s.push (.int32 7), [token])
    | _, _ => .error .invalid

/-- Pairs that cancel, a repeated conversion, a call and switches of the rules, in one run. -/
def mixedOperations : List Operation :=
  [.push { opcode := .ldloc_0 }, .push { opcode := .dup }, .push { opcode := .pop },
   .push { opcode := .neg }, .push { opcode := .neg }, .push { opcode := .convU1 },
   .push { opcode := .convU1 }, .flush, .push ⟨.call, .token "int32 F()"⟩, .setEnabled false,
   .push { opcode := .pop }, .setEnabled true, .push { opcode := .ldcI4_0 },
   .push { opcode := .sub }]

theorem mixedOperations_preserve_outcome :
    loggingCalls.run (pushed mixedOperations) ⟨[], [], [.int32 300], ()⟩ =
        .ok ⟨⟨[.int32 44], [], [.int32 300], ()⟩, [.token "int32 F()"], 2⟩ ∧
      ∃ r', loggingCalls.run (Queue.committed { enabled := true } mixedOperations)
          ⟨[], [], [.int32 300], ()⟩ = .ok r' ∧
        r'.state = ⟨[.int32 44], [], [.int32 300], ()⟩ ∧ r'.effects = [.token "int32 F()"] ∧
        r'.peak ≤ 2 :=
  ⟨rfl, committed_preserves_outcome loggingCalls true mixedOperations _
    ⟨⟨[.int32 44], [], [.int32 300], ()⟩, [.token "int32 F()"], 2⟩ rfl⟩

/-- Four of the eleven instructions are left. -/
example : (Queue.committed { enabled := true } mixedOperations).map (·.opcode) =
    [.ldloc_0, .convU1, .call, .pop] := by decide

end CilAssembly.Peephole

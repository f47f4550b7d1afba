import CilAssembly.Context.Storage
import CilAssembly.Proofs.Evaluation.Refinement
import CilAssembly.Proofs.Generation.Steps

/-!
The forms of constants and of variable accesses. A form is judged by what it does when it is
executed, by the slot that its opcode and operand name, and by the bytes that it takes. Generation
picks one that means what was asked, and no form with that meaning takes fewer bytes.
-/
namespace CilAssembly
open Evaluation

namespace Opcode

/-- The bytes of the operand, for the opcodes that load a number or access a variable. -/
def operandBytes : Opcode → Nat
  | .ldcI4S | .ldargS | .ldargaS | .stargS | .ldlocS | .ldlocaS | .stlocS => 1
  | .ldarg | .ldarga | .starg | .ldloc | .ldloca | .stloc => 2
  | .ldcI4 => 4
  | .ldcI8 => 8
  | _ => 0

/-- The number that an opcode has built in. -/
def int32? : Opcode → Option Int
  | .ldcI4M1 => some (-1)
  | .ldcI4_0 => some 0
  | .ldcI4_1 => some 1
  | .ldcI4_2 => some 2
  | .ldcI4_3 => some 3
  | .ldcI4_4 => some 4
  | .ldcI4_5 => some 5
  | .ldcI4_6 => some 6
  | .ldcI4_7 => some 7
  | .ldcI4_8 => some 8
  | _ => none

/-- The bytes of an instruction that loads a number or accesses a variable. -/
def encodedSize (op : Opcode) : Nat :=
  (if op.isTwoByte then 2 else 1) + op.operandBytes

end Opcode

section Int32

/-- The loads of 32-bit constants that have an encoding: the operand, where there is one, fits in
the bytes of its form. -/
inductive Instruction.IsInt32Form : Instruction → Prop
  | builtIn {op : Opcode} {n : Int} (hop : op.int32? = some n) : IsInt32Form { opcode := op }
  | short {operand : Operand} {n : Int} (hn : operand.number? = some n) (hlow : -0x80 ≤ n)
    (hhigh : n ≤ 0x7f) : IsInt32Form ⟨.ldcI4S, operand⟩
  | long {operand : Operand} {n : Int} (hn : operand.number? = some n) (hlow : -0x80000000 ≤ n)
    (hhigh : n < 0x80000000) : IsInt32Form ⟨.ldcI4, operand⟩

/-- The bytes that it takes to push a number of 32 bits. -/
def int32Size (n : Int) : Nat :=
  if -1 ≤ n ∧ n ≤ 8 then 1 else if -0x80 ≤ n ∧ n ≤ 0x7f then 2 else 5

lemma Opcode.bounds_of_int32? {op : Opcode} {n : Int} (hop : op.int32? = some n) :
    op.encodedSize = 1 ∧ -1 ≤ n ∧ n ≤ 8 := by
  unfold Opcode.int32? at hop
  split at hop
  case h_11 => simp at hop
  all_goals
    cases hop
    exact ⟨rfl, by decide⟩

lemma int32Size_le_five (n : Int) : int32Size n ≤ 5 := by
  unfold int32Size
  split
  · decide
  · split <;> decide

lemma int32Size_le_two {n : Int} (hlow : -0x80 ≤ n) (hhigh : n ≤ 0x7f) : int32Size n ≤ 2 := by
  unfold int32Size
  split
  · decide
  · rw [if_pos ⟨hlow, hhigh⟩]

variable {ρ ω ε : Type}

lemma execute_of_loadOf? {sem : Semantics ρ ω ε} {i : Instruction} {s : State ρ ω} {v : Value ρ}
    (h : sem.loadOf? i s = some (.ok v)) : sem.execute i s = .ok (s.push v, []) := by
  simp only [Semantics.execute, h]
  rfl

lemma execute_of_number (sem : Semantics ρ ω ε) {op : Opcode} {operand : Operand} {n : Int}
    (hop : op = .ldcI4S ∨ op = .ldcI4) (hn : operand.number? = some n) (s : State ρ ω) :
    sem.execute ⟨op, operand⟩ s = .ok (s.push (.int32 (.ofInt n)), []) := by
  apply execute_of_loadOf?
  rcases hop with rfl | rfl <;> simp [Semantics.loadOf?, withNumber, hn]

lemma execute_builtIn (sem : Semantics ρ ω ε) {op : Opcode} {n : Int} (hop : op.int32? = some n)
    (s : State ρ ω) :
    sem.execute { opcode := op } s = .ok (s.push (.int32 (.ofInt n)), []) := by
  unfold Opcode.int32? at hop
  split at hop
  case h_11 => simp at hop
  all_goals
    cases hop
    rfl

/-- A form pushes one number, and takes no fewer bytes than that number needs. -/
lemma Instruction.IsInt32Form.pushes {i : Instruction} (h : i.IsInt32Form) :
    ∃ n : Int, -0x80000000 ≤ n ∧ n < 0x80000000 ∧ int32Size n ≤ i.opcode.encodedSize ∧
      ∀ (sem : Semantics ρ ω ε) (s : State ρ ω),
        sem.execute i s = .ok (s.push (.int32 (.ofInt n)), []) := by
  cases h with
  | @builtIn op n hop =>
    obtain ⟨hsize, hbounds⟩ := Opcode.bounds_of_int32? hop
    exact ⟨n, by omega, by omega, by rw [hsize, int32Size, if_pos hbounds],
      fun sem => execute_builtIn sem hop⟩
  | @short operand n hn hlow hhigh =>
    exact ⟨n, by omega, by omega, int32Size_le_two hlow hhigh,
      fun sem => execute_of_number sem (.inl rfl) hn⟩
  | @long operand n hn hlow hhigh =>
    exact ⟨n, hlow, hhigh, int32Size_le_five n, fun sem => execute_of_number sem (.inr rfl) hn⟩

/-- The form that generation picks for a constant: a built-in number where there is one, else the
operand of one byte where the constant fits. -/
lemma int32Load_cases (v : Int32) :
    (∃ op : Opcode, op.int32? = some v.toInt ∧ Gen.int32Load v = { opcode := op }) ∨
    (¬(-1 ≤ v.toInt ∧ v.toInt ≤ 8) ∧ (-0x80 ≤ v.toInt ∧ v.toInt ≤ 0x7f) ∧
      Gen.int32Load v = ⟨.ldcI4S, .int v.toInt⟩) ∨
    (¬(-0x80 ≤ v.toInt ∧ v.toInt ≤ 0x7f) ∧ Gen.int32Load v = ⟨.ldcI4, .int v.toInt⟩) := by
  unfold Gen.int32Load
  split
  case h_11 =>
    by_cases h : -0x80 ≤ v.toInt ∧ v.toInt ≤ 0x7f
    · -- The split excludes the built-in numbers one by one.
      simp only [imp_false] at *
      exact .inr (.inl ⟨by omega, h, by rw [if_pos h]⟩)
    · exact .inr (.inr ⟨h, by rw [if_neg h]⟩)
  all_goals
    rename_i h
    exact .inl ⟨_, by rw [h]; rfl, rfl⟩

lemma isInt32Form_int32Load (v : Int32) : (Gen.int32Load v).IsInt32Form := by
  obtain ⟨op, hop, h⟩ | ⟨-, ⟨hlow, hhigh⟩, h⟩ | ⟨-, h⟩ := int32Load_cases v <;> rw [h]
  · exact .builtIn hop
  · exact .short rfl hlow hhigh
  · exact .long rfl v.le_toInt v.toInt_lt

/-- The load of a constant pushes the constant. -/
lemma execute_int32Load (sem : Semantics ρ ω ε) (v : Int32) (s : State ρ ω) :
    sem.execute (Gen.int32Load v) s = .ok (s.push (.int32 v), []) := by
  obtain ⟨op, hop, h⟩ | ⟨-, -, h⟩ | ⟨-, h⟩ := int32Load_cases v <;> rw [h]
  · rw [execute_builtIn sem hop, Int32.ofInt_toInt]
  · rw [execute_of_number sem (.inl rfl) rfl, Int32.ofInt_toInt]
  · rw [execute_of_number sem (.inr rfl) rfl, Int32.ofInt_toInt]

lemma encodedSize_int32Load (v : Int32) :
    (Gen.int32Load v).opcode.encodedSize = int32Size v.toInt := by
  obtain ⟨op, hop, h⟩ | ⟨hwide, hshort, h⟩ | ⟨hlong, h⟩ := int32Load_cases v <;> rw [h]
  · obtain ⟨hsize, hbounds⟩ := Opcode.bounds_of_int32? hop
    rw [hsize, int32Size, if_pos hbounds]
  · rw [int32Size, if_neg hwide, if_pos hshort]
    rfl
  · rw [int32Size, if_neg (by omega), if_neg hlong]
    rfl

/-- No form that pushes a constant takes fewer bytes than the load that generation picks. -/
lemma encodedSize_int32Load_le {sem : Semantics ρ ω ε} {v : Int32} {i : Instruction}
    {s : State ρ ω} (hi : i.IsInt32Form)
    (hpush : sem.execute i s = .ok (s.push (.int32 v), [])) :
    (Gen.int32Load v).opcode.encodedSize ≤ i.opcode.encodedSize := by
  obtain ⟨n, hlow, hhigh, hsize, hrun⟩ := hi.pushes (ρ := ρ) (ω := ω) (ε := ε)
  rw [hrun] at hpush
  have hv : Int32.ofInt n = v := by
    simpa [State.push] using hpush
  rw [encodedSize_int32Load, ← hv, Int32.toInt_ofInt_of_le hlow hhigh]
  exact hsize

end Int32

namespace Gen

/-- What the load of a 64-bit constant queues. -/
def int64Load (value : Int64) : List Instruction :=
  if -0x80000000 ≤ value.toInt ∧ value.toInt < 0x80000000 then
    [int32Load value.toInt32, { opcode := .convI8 }]
  else [⟨.ldcI8, .hex64 value.toUInt64⟩]

lemma loadInt64_apply (value : Int64) (c : Context) :
    loadInt64 value c = .ok () (c.enqueuedAll (int64Load value)) := by
  unfold loadInt64 int64Load
  split <;> rfl

/-- The long form takes nine bytes, and no load of 32 bits takes more than five. -/
lemma int32Load_ne_ldcI8 (value : Int32) : (int32Load value).opcode ≠ .ldcI8 := by
  intro hop
  have hsize := (encodedSize_int32Load value).trans_le (int32Size_le_five _)
  rw [hop] at hsize
  exact absurd hsize (by decide)

/-- The long form is used exactly for the constants that do not fit in 32 bits. -/
lemma exists_ldcI8_mem_int64Load (value : Int64) :
    (∃ i ∈ int64Load value, i.opcode = .ldcI8) ↔
      value.toInt < -0x80000000 ∨ 0x80000000 ≤ value.toInt := by
  unfold int64Load
  split
  case isTrue h => exact iff_of_false (by simp [int32Load_ne_ldcI8]) (by omega)
  case isFalse h => exact iff_of_true ⟨_, List.mem_singleton.mpr rfl, rfl⟩ (by omega)

lemma eq_of_mem_int64Load {value : Int64} {i : Instruction} (hi : i ∈ int64Load value)
    (hop : i.opcode = .ldcI8) : i = ⟨.ldcI8, .hex64 value.toUInt64⟩ := by
  unfold int64Load at hi
  split at hi
  case isTrue =>
    obtain rfl | rfl : i = int32Load value.toInt32 ∨ i = { opcode := .convI8 } := by simpa using hi
    · exact absurd hop (int32Load_ne_ldcI8 _)
    · cases hop
  case isFalse => exact List.mem_singleton.mp hi

end Gen

section Int64
variable {ρ ω ε : Type}

/-- Widening undoes narrowing where the constant fits in 32 bits. -/
lemma toInt64_toInt32 {v : Int64} (hlow : -0x80000000 ≤ v.toInt) (hhigh : v.toInt < 0x80000000) :
    v.toInt32.toInt64 = v := by
  apply Int64.toInt_inj.mp
  rw [Int32.toInt_toInt64, Int64.toInt_toInt32]
  exact Int.bmod_eq_of_le (by omega) (by omega)

lemma ofInt_toUInt64 (v : Int64) : Int64.ofInt v.toUInt64.toNat = v := by
  apply Int64.toInt_inj.mp
  rw [Int64.toInt_ofInt]
  exact (BitVec.toInt_eq_toNat_bmod v.toBitVec).symm

/-- The load of a 64-bit constant pushes the constant. -/
lemma run_int64Load (sem : Semantics ρ ω ε) (v : Int64) (s : State ρ ω) :
    sem.run (Gen.int64Load v) s = .ok ⟨s.push (.int64 v), [], s.height + 1⟩ := by
  unfold Gen.int64Load
  split
  case isTrue h =>
    have hwiden : sem.execute { opcode := .convI8 } (s.push (.int32 v.toInt32)) =
        .ok (s.push (.int64 v.toInt32.toInt64), []) := rfl
    rw [toInt64_toInt32 h.1 h.2] at hwiden
    refine run_cons_eq_ok.mpr ⟨_, _, _, execute_int32Load sem v.toInt32 s,
      run_cons_eq_ok.mpr ⟨_, _, _, hwiden, rfl, rfl⟩, ?_⟩
    simp [State.height, State.push]
  case isFalse =>
    have hload : sem.execute ⟨.ldcI8, .hex64 v.toUInt64⟩ s =
        .ok (s.push (.int64 (.ofInt v.toUInt64.toNat)), []) := rfl
    rw [ofInt_toUInt64] at hload
    refine run_cons_eq_ok.mpr ⟨_, _, _, hload, rfl, ?_⟩
    simp [State.height, State.push]

end Int64

namespace Text

/-- The value of a hexadecimal digit. -/
def hexDigit? (c : Char) : Option Nat :=
  if '0' ≤ c ∧ c ≤ '9' then some (c.toNat - '0'.toNat)
  else if 'a' ≤ c ∧ c ≤ 'f' then some (c.toNat - 'a'.toNat + 10)
  else none

/-- Reads a hexadecimal number, most significant digit first. -/
def readHex? (digits : List Char) : Option Nat :=
  digits.foldlM (fun n c => (hexDigit? c).map (16 * n + ·)) 0

/-- The signed number that 64 bits stand for in two's complement. -/
def twosComplement64 (bits : Nat) : Int :=
  if bits < 0x8000000000000000 then bits else bits - 0x10000000000000000

lemma hexDigit?_digitChar : ∀ digit < 16, hexDigit? (Nat.digitChar digit) = some digit := by
  decide

/-- Reading undoes writing where the number fits in the digits. -/
lemma readHex?_fixedDigits {width n : Nat} (h : n >>> (4 * width) = 0) :
    readHex? (fixedDigits 16 width n) = some n := by
  induction width generalizing n with
  | zero =>
    cases h
    rfl
  | succ width ih =>
    -- The last digit is written last; the others spell the number without it.
    have hdigit : hexDigit? (Nat.digitChar (n % 16)) = some (n % 16) :=
      hexDigit?_digitChar _ (Nat.mod_lt n (by decide))
    have hrest : (n / 16) >>> (4 * width) = 0 := by
      have hdrop : n >>> 4 = n / 16 := Nat.shiftRight_eq_div_pow n 4
      rwa [Nat.mul_succ, Nat.add_comm, Nat.shiftRight_add, hdrop] at h
    have hread := ih hrest
    have hsplit : 16 * (n / 16) + n % 16 = n := Nat.div_add_mod n 16
    unfold readHex? at hread
    simp [fixedDigits, readHex?, List.foldlM_append, hread, hdigit, hsplit]

lemma twosComplement64_toUInt64 (v : Int64) : twosComplement64 v.toUInt64.toNat = v.toInt := by
  have h : v.toInt = _ := BitVec.toInt_eq_toNat_cond v.toBitVec
  have hbits : v.toBitVec.toNat = v.toUInt64.toNat := rfl
  rw [hbits] at h
  rw [h, twosComplement64]
  split <;> split <;> omega

end Text

/-- The operand of the 64-bit load is written in sixteen digits, which spell the constant in two's
complement. -/
lemma render_ldcI8 (v : Int64) :
    ∃ digits : List Char,
      (⟨.ldcI8, .hex64 v.toUInt64⟩ : Instruction).render =
        "\tldc.i8\t0x" ++ String.ofList digits ++ "\n" ∧
      digits.length = 16 ∧
      (Text.readHex? digits).map Text.twosComplement64 = some v.toInt := by
  have hbits : v.toUInt64.toNat >>> (4 * 16) = 0 := by
    rw [Nat.shiftRight_eq_div_pow]
    exact Nat.div_eq_of_lt v.toUInt64.toNat_lt
  refine ⟨Text.fixedDigits 16 16 v.toUInt64.toNat, ?_, Text.fixedDigits_length _ _ _, ?_⟩
  · have hhead : "\tldc.i8\t0x" = "\t" ++ Opcode.ldcI8.mnemonic ++ "\t0x" := rfl
    simp only [hhead, Instruction.render, Operand.render, Text.hexLower, String.append_assoc]
  · rw [Text.readHex?_fixedDigits hbits, Option.map_some, Text.twosComplement64_toUInt64]

/-- What an instruction does with a variable. -/
inductive SlotUse
  | loadLocal
  | storeLocal
  | localAddress
  | loadArg
  | storeArg
  | argAddress
  deriving DecidableEq, Repr

/-- The opcodes that generation uses for it. -/
def SlotUse.access : SlotUse → SlotAccess
  | .loadLocal => .loadLocal
  | .storeLocal => .storeLocal
  | .localAddress => .localAddress
  | .loadArg => .loadArg
  | .storeArg => .storeArg
  | .argAddress => .argAddress

namespace Opcode

/-- The slot that an opcode has built in. -/
def builtInSlot? : Opcode → Option (SlotUse × Nat)
  | .ldloc_0 => some (.loadLocal, 0)
  | .ldloc_1 => some (.loadLocal, 1)
  | .ldloc_2 => some (.loadLocal, 2)
  | .ldloc_3 => some (.loadLocal, 3)
  | .stloc_0 => some (.storeLocal, 0)
  | .stloc_1 => some (.storeLocal, 1)
  | .stloc_2 => some (.storeLocal, 2)
  | .stloc_3 => some (.storeLocal, 3)
  | .ldarg_0 => some (.loadArg, 0)
  | .ldarg_1 => some (.loadArg, 1)
  | .ldarg_2 => some (.loadArg, 2)
  | .ldarg_3 => some (.loadArg, 3)
  | _ => none

/-- What an opcode does with the slot that its operand numbers. -/
def numberedSlot? : Opcode → Option SlotUse
  | .ldlocS | .ldloc => some .loadLocal
  | .stlocS | .stloc => some .storeLocal
  | .ldlocaS | .ldloca => some .localAddress
  | .ldargS | .ldarg => some .loadArg
  | .stargS | .starg => some .storeArg
  | .ldargaS | .ldarga => some .argAddress
  | _ => none

end Opcode

/-- The slot that an instruction accesses, and how. The number of the slot has to fit in the bytes
of the operand. -/
def Instruction.slotUse? (i : Instruction) : Option (SlotUse × Nat) :=
  match i.operand with
  | .nothing => i.opcode.builtInSlot?
  | .uint n =>
    if n >>> (8 * i.opcode.operandBytes) = 0 then i.opcode.numberedSlot?.map (·, n) else none
  | _ => none

lemma fits_byte_iff {n : Nat} : n >>> (8 * 1) = 0 ↔ n ≤ 0xff := by
  rw [Nat.shiftRight_eq_div_pow]
  omega

lemma fits_short_iff {n : Nat} : n >>> (8 * 2) = 0 ↔ n < 0x10000 := by
  rw [Nat.shiftRight_eq_div_pow]
  omega

/-- Generation uses every opcode that has a slot built in. -/
lemma Opcode.of_builtInSlot? {op : Opcode} {use : SlotUse} {n : Nat}
    (hop : op.builtInSlot? = some (use, n)) :
    op.operandBytes = 0 ∧ op.encodedSize = 1 ∧ use.access.instruction n = { opcode := op } := by
  unfold Opcode.builtInSlot? at hop
  split at hop
  case h_13 => simp at hop
  all_goals
    cases hop
    exact ⟨rfl, rfl, rfl⟩

namespace SlotUse
variable (use : SlotUse)

lemma access_short : use.access.short.numberedSlot? = some use ∧
    use.access.short.operandBytes = 1 ∧ use.access.short.encodedSize = 2 := by
  cases use <;> exact ⟨rfl, rfl, rfl⟩

lemma access_long : use.access.long.numberedSlot? = some use ∧
    use.access.long.operandBytes = 2 ∧ use.access.long.encodedSize = 4 := by
  cases use <;> exact ⟨rfl, rfl, rfl⟩

/-- The form that generation picks for an access: a built-in slot where there is one, else the
operand of one byte where the slot fits. -/
lemma instruction_cases {n : Nat} (h : n < 0x10000) :
    (∃ op : Opcode, op.builtInSlot? = some (use, n) ∧ use.access.instruction n = { opcode := op }) ∨
    (n ≤ 0xff ∧ use.access.instruction n = ⟨use.access.short, .uint n⟩) ∨
    (0xff < n ∧ use.access.instruction n = ⟨use.access.long, .uint n⟩) := by
  unfold SlotAccess.instruction
  split
  case h_5 =>
    right
    split
    case isTrue hn => exact .inl ⟨hn, rfl⟩
    case isFalse hn => exact .inr ⟨by omega, by rw [Nat.mod_eq_of_lt h]⟩
  all_goals
    rename_i himplicit
    left
    cases use <;> cases himplicit <;> exact ⟨_, rfl, rfl⟩

lemma slotUse?_instruction {n : Nat} (h : n < 0x10000) :
    (use.access.instruction n).slotUse? = some (use, n) := by
  obtain ⟨op, hop, hi⟩ | ⟨hn, hi⟩ | ⟨-, hi⟩ := use.instruction_cases h <;> rw [hi]
  · exact hop
  · obtain ⟨hslot, hbytes, -⟩ := use.access_short
    simp [Instruction.slotUse?, hslot, hbytes, fits_byte_iff.mpr hn]
  · obtain ⟨hslot, hbytes, -⟩ := use.access_long
    simp [Instruction.slotUse?, hslot, hbytes, fits_short_iff.mpr h]

/-- Only a slot up to 255 gets an operand of one byte. -/
lemma le_of_operandBytes_instruction {n : Nat} (h : n < 0x10000)
    (hbytes : (use.access.instruction n).opcode.operandBytes = 1) : n ≤ 0xff := by
  obtain ⟨op, hop, hi⟩ | ⟨hn, hi⟩ | ⟨-, hi⟩ := use.instruction_cases h <;> rw [hi] at hbytes
  · simp [(Opcode.of_builtInSlot? hop).1] at hbytes
  · exact hn
  · simp [use.access_long.2.1] at hbytes

lemma encodedSize_instruction_le {n : Nat} (h : n < 0x10000) :
    (use.access.instruction n).opcode.encodedSize ≤ if n ≤ 0xff then 2 else 4 := by
  obtain ⟨op, hop, hi⟩ | ⟨hn, hi⟩ | ⟨hn, hi⟩ := use.instruction_cases h <;> rw [hi]
  · rw [(Opcode.of_builtInSlot? hop).2.1]
    split <;> decide
  · rw [if_pos hn, use.access_short.2.2]
  · rw [if_neg (by omega), use.access_long.2.2]

end SlotUse

/-- The forms with a numbered slot are those with an operand of one byte and of two. -/
lemma Opcode.bytes_of_numberedSlot? {op : Opcode} {use : SlotUse}
    (hop : op.numberedSlot? = some use) :
    op.operandBytes = 1 ∧ op.encodedSize = 2 ∨ op.operandBytes = 2 ∧ op.encodedSize = 4 := by
  unfold Opcode.numberedSlot? at hop
  split at hop
  case h_13 => simp at hop
  all_goals decide

/-- Numbers are written in the operand, or built into the opcode. -/
lemma Instruction.slotUse?_eq_some {i : Instruction} {use : SlotUse} {n : Nat}
    (h : i.slotUse? = some (use, n)) :
    (i.operand = .nothing ∧ i.opcode.builtInSlot? = some (use, n)) ∨
    (i.operand = .uint n ∧ i.opcode.numberedSlot? = some use ∧
      n >>> (8 * i.opcode.operandBytes) = 0) := by
  obtain ⟨op, operand⟩ := i
  unfold slotUse? at h
  split at h
  case h_1 hoperand => exact .inl ⟨hoperand, h⟩
  case h_2 m hoperand =>
    split at h
    case isTrue hm =>
      obtain ⟨use', huse, hpair⟩ := Option.map_eq_some_iff.mp h
      cases hpair
      exact .inr ⟨hoperand, huse, hm⟩
    case isFalse => cases h
  case h_3 => cases h

/-- No instruction with the same meaning takes fewer bytes than the one that generation picks. -/
lemma encodedSize_instruction_le_of_slotUse? {i : Instruction} {use : SlotUse} {n : Nat}
    (hi : i.slotUse? = some (use, n)) :
    (use.access.instruction n).opcode.encodedSize ≤ i.opcode.encodedSize := by
  obtain ⟨-, hop⟩ | ⟨-, hop, hn⟩ := Instruction.slotUse?_eq_some hi
  · rw [(Opcode.of_builtInSlot? hop).2.2]
  · -- The operand holds the number, so its form is no shorter than the one for that range.
    obtain ⟨hbytes, hsize⟩ | ⟨hbytes, hsize⟩ := Opcode.bytes_of_numberedSlot? hop
    · rw [hbytes, fits_byte_iff] at hn
      have hle := use.encodedSize_instruction_le (n := n) (by omega)
      rw [if_pos hn] at hle
      rwa [hsize]
    · rw [hbytes, fits_short_iff] at hn
      have hle := use.encodedSize_instruction_le hn
      rw [hsize]
      exact hle.trans (by split <;> decide)

section Loads
variable {ρ ω ε : Type}

/-- The variables that a load reads. -/
def SlotUse.loads? (s : State ρ ω) : SlotUse → Option (List (Value ρ))
  | .loadLocal => some s.locals
  | .loadArg => some s.args
  | _ => none

section
variable {sem : Semantics ρ ω ε} {op : Opcode} {use : SlotUse} {n : Nat} {s : State ρ ω}
  {slots : List (Value ρ)}

lemma loadOf?_of_builtInSlot? (hop : op.builtInSlot? = some (use, n))
    (huse : use.loads? s = some slots) :
    sem.loadOf? { opcode := op } s = some (variableAt slots n) := by
  unfold Opcode.builtInSlot? at hop
  split at hop
  case h_13 => simp at hop
  all_goals
    cases hop
    cases huse <;> rfl

lemma loadOf?_of_numberedSlot? (hop : op.numberedSlot? = some use)
    (huse : use.loads? s = some slots) :
    sem.loadOf? ⟨op, .uint n⟩ s = some (variableAt slots n) := by
  unfold Opcode.numberedSlot? at hop
  split at hop
  case h_13 => simp at hop
  all_goals
    cases hop
    cases huse <;> rfl

end

/-- Executing a load pushes the variable that it names. -/
lemma execute_of_slotUse? (sem : Semantics ρ ω ε) {i : Instruction} {use : SlotUse} {n : Nat}
    {s : State ρ ω} {slots : List (Value ρ)} {v : Value ρ} (hi : i.slotUse? = some (use, n))
    (huse : use.loads? s = some slots) (hv : slots[n]? = some v) :
    sem.execute i s = .ok (s.push v, []) := by
  have hvariable : variableAt slots n = .ok v := by
    simp [variableAt, hv]
  obtain ⟨op, operand⟩ := i
  apply execute_of_loadOf?
  rw [← hvariable]
  obtain ⟨rfl, hop⟩ | ⟨rfl, hop, -⟩ := Instruction.slotUse?_eq_some hi
  · exact loadOf?_of_builtInSlot? hop huse
  · exact loadOf?_of_numberedSlot? hop huse

end Loads

/-- Constants and accesses to variables are queued in a form that means what was asked. A 32-bit
constant is pushed by the shortest form that pushes it; a 64-bit constant is pushed whole, and the
digits of its long form spell it in two's complement; an access names its slot and what is done with
it, in the shortest form that does. -/
theorem queued_forms_denote :
    (∀ v : Int32, ∃ i : Instruction,
      (∀ c : Context, Gen.loadInt32 v c = .ok () (c.enqueuedAll [i])) ∧
      i.IsInt32Form ∧ i.opcode.encodedSize = int32Size v.toInt ∧
      ∀ {ρ ω ε : Type} (sem : Semantics ρ ω ε) (s : State ρ ω),
        sem.execute i s = .ok (s.push (.int32 v), []) ∧
        ∀ j : Instruction, j.IsInt32Form → sem.execute j s = .ok (s.push (.int32 v), []) →
          i.opcode.encodedSize ≤ j.opcode.encodedSize) ∧
    (∀ v : Int64, ∃ is : List Instruction,
      (∀ c : Context, Gen.loadInt64 v c = .ok () (c.enqueuedAll is)) ∧
      (∀ {ρ ω ε : Type} (sem : Semantics ρ ω ε) (s : State ρ ω),
        sem.run is s = .ok ⟨s.push (.int64 v), [], s.height + 1⟩) ∧
      ((∃ i ∈ is, i.opcode = .ldcI8) ↔ v.toInt < -0x80000000 ∨ 0x80000000 ≤ v.toInt) ∧
      ∀ i ∈ is, i.opcode = .ldcI8 → ∃ digits : List Char,
        i.render = "\tldc.i8\t0x" ++ String.ofList digits ++ "\n" ∧ digits.length = 16 ∧
        (Text.readHex? digits).map Text.twosComplement64 = some v.toInt) ∧
    (∀ (use : SlotUse) (slot : Slot), slot.index < 0x10000 → ∃ i : Instruction,
      (∀ c : Context, Gen.accessSlot use.access slot c = .ok () (c.enqueuedAll [i])) ∧
      i.slotUse? = some (use, slot.index) ∧
      (i.opcode.operandBytes = 1 → slot.index ≤ 0xff) ∧
      (∀ j : Instruction, j.slotUse? = some (use, slot.index) →
        i.opcode.encodedSize ≤ j.opcode.encodedSize) ∧
      ∀ {ρ ω ε : Type} (sem : Semantics ρ ω ε) (s : State ρ ω) (slots : List (Value ρ))
        (v : Value ρ), use.loads? s = some slots → slots[slot.index]? = some v →
          sem.execute i s = .ok (s.push v, [])) := by
  refine ⟨fun v => ?_, fun v => ?_, fun use slot hslot => ?_⟩
  · exact ⟨Gen.int32Load v, Gen.loadInt32_apply v, isInt32Form_int32Load v,
      encodedSize_int32Load v, fun sem s =>
        ⟨execute_int32Load sem v s, fun j hj hpush => encodedSize_int32Load_le hj hpush⟩⟩
  · refine ⟨Gen.int64Load v, Gen.loadInt64_apply v, fun sem s => run_int64Load sem v s,
      Gen.exists_ldcI8_mem_int64Load v, fun i hi hop => ?_⟩
    rw [Gen.eq_of_mem_int64Load hi hop]
    exact render_ldcI8 v
  · have hmeaning := use.slotUse?_instruction hslot
    exact ⟨use.access.instruction slot.index, fun c => rfl, hmeaning,
      use.le_of_operandBytes_instruction hslot,
      fun j hj => encodedSize_instruction_le_of_slotUse? hj,
      fun sem s slots v huse hv => execute_of_slotUse? sem hmeaning huse hv⟩

end CilAssembly

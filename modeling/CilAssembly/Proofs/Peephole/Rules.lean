import CilAssembly.Peephole
import CilAssembly.Proofs.Evaluation.Refinement

/-!
The rules of the peephole window are identities of the machine: in every state in which a pair of
instructions that a rule removes succeeds, it does nothing, and a repeated conversion does what one
conversion does.
-/
namespace CilAssembly.Evaluation
variable {ρ ω ε : Type} {sem : Semantics ρ ω ε}

/-- The opcodes that count as pure loads are those that load. -/
lemma isSome_loadOf? (sem : Semantics ρ ω ε) (i : Instruction) (s : State ρ ω) :
    (sem.loadOf? i s).isSome = i.opcode.isPureLoad := by
  obtain ⟨opcode, operand⟩ := i
  cases opcode <;> rfl

lemma execute_load {i : Instruction} {s t : State ρ ω} {effects : List ε}
    (hload : i.opcode.isPureLoad = true) (h : sem.execute i s = .ok (t, effects)) :
    ∃ v, t = s.push v ∧ effects = [] := by
  rw [← isSome_loadOf? sem i s, Option.isSome_iff_exists] at hload
  obtain ⟨load, hload⟩ := hload
  simp only [Semantics.execute, hload, bind_ok_iff] at h
  obtain ⟨v, -, hv⟩ := h
  cases hv
  exact ⟨v, rfl, rfl⟩

lemma execute_pop {i : Instruction} {s t : State ρ ω} {effects : List ε}
    (hpop : i.opcode = .pop) (h : sem.execute i s = .ok (t, effects)) :
    ∃ v rest, s.stack = v :: rest ∧ t = { s with stack := rest } ∧ effects = [] := by
  simp only [Semantics.execute, Semantics.loadOf?, unaryOf?, binaryOf?, hpop] at h
  cases hs : s.stack with
  | nil => simp [hs] at h
  | cons v rest =>
    simp only [hs] at h
    cases h
    exact ⟨v, rest, rfl, rfl, rfl⟩

lemma execute_dup {i : Instruction} {s t : State ρ ω} {effects : List ε}
    (hdup : i.opcode = .dup) (h : sem.execute i s = .ok (t, effects)) :
    ∃ v rest, s.stack = v :: rest ∧ t = s.push v ∧ effects = [] := by
  simp only [Semantics.execute, Semantics.loadOf?, unaryOf?, binaryOf?, hdup] at h
  cases hs : s.stack with
  | nil => simp [hs] at h
  | cons v rest =>
    simp only [hs] at h
    cases h
    exact ⟨v, rest, rfl, by simp [State.push, hs], rfl⟩

lemma isPureLoad_of_unaryOf? {op : Opcode} {f : Value ρ → Except Fault (Value ρ)}
    (hf : unaryOf? op = some f) : op.isPureLoad = false := by
  revert hf
  cases op <;> simp [unaryOf?, Opcode.isPureLoad, Opcode.isInt32Constant]

lemma isPureLoad_of_binaryOf? {op : Opcode} {a : Arithmetic} (ha : binaryOf? op = some a) :
    op.isPureLoad = false := by
  revert ha
  cases op <;> simp [binaryOf?, Opcode.isPureLoad, Opcode.isInt32Constant]

lemma unaryOf?_of_binaryOf? {op : Opcode} {a : Arithmetic} (ha : binaryOf? op = some a) :
    unaryOf? (ρ := ρ) op = none := by
  revert ha
  cases op <;> simp [binaryOf?, unaryOf?]

lemma loadOf?_eq_none (sem : Semantics ρ ω ε) {i : Instruction} (h : i.opcode.isPureLoad = false)
    (s : State ρ ω) :
    sem.loadOf? i s = none := by
  rw [← Option.isNone_iff_eq_none, ← Option.not_isSome, isSome_loadOf?, h]
  rfl

lemma execute_unary {i : Instruction} {f : Value ρ → Except Fault (Value ρ)} {s t : State ρ ω}
    {effects : List ε} (hf : unaryOf? i.opcode = some f) :
    sem.execute i s = .ok (t, effects) ↔
      ∃ x y rest, s.stack = x :: rest ∧ f x = .ok y ∧ t = { s with stack := y :: rest } ∧
        effects = [] := by
  have hload := loadOf?_eq_none sem (isPureLoad_of_unaryOf? hf) s
  simp only [Semantics.execute, hload, hf, State.unary]
  cases hs : s.stack with
  | nil => simp [bind, Except.bind]
  | cons x rest =>
    simp only [bind_ok_iff]
    constructor
    · rintro ⟨u, ⟨y, hy, hu⟩, ht⟩
      cases hu
      cases ht
      exact ⟨x, y, rest, rfl, hy, rfl, rfl⟩
    · rintro ⟨x', y, rest', hcons, hy, rfl, rfl⟩
      cases hcons
      exact ⟨_, ⟨y, hy, rfl⟩, rfl⟩

lemma execute_binary {i : Instruction} {op : Arithmetic} {s t : State ρ ω} {effects : List ε}
    (hop : binaryOf? i.opcode = some op) (h : sem.execute i s = .ok (t, effects)) :
    ∃ x y z rest, s.stack = y :: x :: rest ∧ op.apply x y = .ok z ∧
      t = { s with stack := z :: rest } ∧ effects = [] := by
  have hload := loadOf?_eq_none sem (isPureLoad_of_binaryOf? hop) s
  have hunary := unaryOf?_of_binaryOf? (ρ := ρ) hop
  simp only [Semantics.execute, hload, hunary, hop, State.binary] at h
  match hs : s.stack with
  | [] => simp [hs, bind, Except.bind] at h
  | [_] => simp [hs, bind, Except.bind] at h
  | y :: x :: rest =>
    simp only [hs, bind_ok_iff] at h
    obtain ⟨u, ⟨z, hz, hu⟩, ht⟩ := h
    cases hu
    cases ht
    exact ⟨x, y, z, rest, rfl, hz, rfl, rfl⟩

/-- Two instructions that leave every state as it was, wherever they succeed, can be dropped. -/
lemma refines_nil {a b : Instruction}
    (h : ∀ {s t u : State ρ ω} {e f : List ε}, sem.execute a s = .ok (t, e) →
      sem.execute b t = .ok (u, f) → u = s ∧ e = [] ∧ f = []) : Refines sem [a, b] [] := by
  intro s r hr
  have hpeak := height_le_peak hr
  obtain ⟨t, e, r₁, hs, hrun, rfl⟩ := run_cons_eq_ok.mp hr
  obtain ⟨u, f, r₂, ht, hnil, rfl⟩ := run_cons_eq_ok.mp hrun
  cases hnil
  obtain ⟨rfl, rfl, rfl⟩ := h hs ht
  exact ⟨_, hpeak, rfl⟩

theorem load_pop {a b : Instruction} (ha : a.opcode.isPureLoad = true) (hb : b.opcode = .pop) :
    Refines sem [a, b] [] := by
  apply refines_nil
  intro s t u e f hs ht
  obtain ⟨v, rfl, rfl⟩ := execute_load ha hs
  obtain ⟨w, rest, hrest, rfl, rfl⟩ := execute_pop hb ht
  cases hrest
  exact ⟨rfl, rfl, rfl⟩

theorem dup_pop {a b : Instruction} (ha : a.opcode = .dup) (hb : b.opcode = .pop) :
    Refines sem [a, b] [] := by
  apply refines_nil
  intro s t u e f hs ht
  obtain ⟨v, rest, -, rfl, rfl⟩ := execute_dup ha hs
  obtain ⟨w, rest', hrest, rfl, rfl⟩ := execute_pop hb ht
  cases hrest
  exact ⟨rfl, rfl, rfl⟩

/-- A unary operation that is its own inverse can be dropped in pairs. -/
theorem unary_unary {a b : Instruction} {g : Value ρ → Except Fault (Value ρ)}
    (ha : unaryOf? a.opcode = some g) (hb : unaryOf? b.opcode = some g)
    (hg : ∀ {x y z}, g x = .ok y → g y = .ok z → z = x) : Refines sem [a, b] [] := by
  apply refines_nil
  intro s t u e f hs ht
  obtain ⟨x, y, rest, hx, hxy, rfl, rfl⟩ := (execute_unary ha).mp hs
  obtain ⟨y', z, rest', hy, hyz, rfl, rfl⟩ := (execute_unary hb).mp ht
  cases hy
  rw [hg hxy hyz, ← hx]
  exact ⟨rfl, rfl, rfl⟩

/-- A constant that an operation leaves its first operand unchanged with can be dropped together
with the operation. -/
theorem constant_binary {a b : Instruction} {c : Value ρ} {op : Arithmetic}
    (ha : ∀ s : State ρ ω, sem.execute a s = .ok (s.push c, []))
    (hb : binaryOf? b.opcode = some op) (hop : ∀ {x z}, op.apply x c = .ok z → z = x) :
    Refines sem [a, b] [] := by
  apply refines_nil
  intro s t u e f hs ht
  cases (ha s).symm.trans hs
  obtain ⟨x, y, z, rest, hstack, hz, rfl, rfl⟩ := execute_binary hb ht
  obtain ⟨rfl, hrest⟩ := List.cons.inj hstack
  rw [hop hz, ← hrest]
  exact ⟨rfl, rfl, rfl⟩

/-- A unary operation that changes nothing the second time can be made once. -/
theorem unary_repeated {a b : Instruction} {g : Value ρ → Except Fault (Value ρ)}
    (ha : unaryOf? a.opcode = some g) (hb : unaryOf? b.opcode = some g)
    (hg : ∀ {x y}, g x = .ok y → g y = .ok y) : Refines sem [a, b] [a] := by
  intro s r hr
  obtain ⟨t, e, r₁, hs, hrun, rfl⟩ := run_cons_eq_ok.mp hr
  obtain ⟨u, f, r₂, ht, hnil, rfl⟩ := run_cons_eq_ok.mp hrun
  cases hnil
  obtain ⟨x, y, rest, hx, hxy, rfl, rfl⟩ := (execute_unary ha).mp hs
  obtain ⟨y', z, rest', hy, hyz, rfl, rfl⟩ := (execute_unary hb).mp ht
  cases hy
  obtain rfl : y = z := Except.ok.inj ((hg hxy).symm.trans hyz)
  refine ⟨_, ?_, run_cons_eq_ok.mpr ⟨_, _, _, hs, rfl, rfl⟩⟩
  exact max_le_max le_rfl (le_max_left _ _)

lemma negate_negate {x y z : Value ρ} (h : x.negate = .ok y) (h' : y.negate = .ok z) : z = x := by
  cases x <;> cases h <;> cases h' <;> simp

lemma complement_complement {x y z : Value ρ} (h : x.complement = .ok y)
    (h' : y.complement = .ok z) : z = x := by
  cases x <;> cases h <;> cases h' <;> simp

/-- Plain conversions change nothing the second time. -/
lemma conversion_repeated (c : Conversion) {x y : Value ρ} (h : c.apply x = .ok y) :
    c.apply y = .ok y := by
  cases c <;> obtain ⟨w, -, hw⟩ := bind_ok_iff.mp h <;> cases hw <;>
    refine bind_ok_iff.mpr ⟨_, rfl, congrArg Except.ok ?_⟩
  case i1 => generalize w.toInt8 = b; simp
  case i2 => generalize w.toInt16 = b; simp
  case i4 => simp
  case i8 => rfl
  case u1 => generalize w.toUInt8 = b; simp
  case u2 => generalize w.toUInt16 = b; simp
  case u4 => generalize w.toUInt32 = b; simp
  case u8 => simp
  case i => generalize w.toISize = b; simp
  case u => generalize w.toUSize = b; simp

end CilAssembly.Evaluation

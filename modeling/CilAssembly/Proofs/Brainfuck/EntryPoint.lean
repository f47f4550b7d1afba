import CilAssembly.Proofs.Brainfuck.Simulation

/-!
The body of the entry point of a program, from the declarations of its two locals to its return. It
ends exactly as the program ends.
-/
namespace CilAssembly.Brainfuck
open Evaluation

/-- Allocates the tape. -/
def tapeCode : List Instruction :=
  [Gen.int32Load 30000, ⟨.newarr, .token byteToken⟩, { opcode := .stloc_0 }]

/-- The body of the entry point of a program. -/
def mainBody (checked : Bool) (p : Program) : List Line :=
  .directive "\t.locals init\t(unsigned int8[] 'tape')" ::
    .directive "\t.locals init\t(int32 'ptr')" ::
    (tapeCode.map .instruction ++ (p.code checked 0 ++ [.instruction { opcode := .ret }]))

lemma int32Load_opcode (v : Int32) : (Gen.int32Load v).opcode ≠ .branchOrLeave := by
  unfold Gen.int32Load
  split
  case h_11 => split <;> simp
  all_goals simp

lemma action_opcode (checked : Bool) (a : Action) :
    ∀ i ∈ a.code checked, i.opcode ≠ .branchOrLeave := by
  cases a with
  | add amount =>
    by_cases h : amount = 0
    · simp [Action.code, h]
    · cases checked <;> simp [Action.code, h, operandCode, cellCode, int32Load_opcode]
  | shift offset =>
    by_cases h : offset = 0
    · simp [Action.code, h]
    · simp [Action.code, h, int32Load_opcode]
  | output => simp [Action.code, operandCode, cellCode]
  | input => simp [Action.code, operandCode]
  | clear => simp [Action.code, operandCode, int32Load_opcode]

/-- The code of a program has no directives and no open jumps. -/
lemma code_line {checked : Bool} {p : Program} {n : Nat} {line : Line}
    (h : line ∈ p.code checked n) :
    (∃ i, line = .instruction i ∧ i.opcode ≠ .branchOrLeave) ∨ ∃ id, line = .label id false := by
  induction p generalizing n with
  | done => cases h
  | act span action rest ih =>
    rw [Program.code, List.mem_append, List.mem_map] at h
    obtain ⟨i, hi, rfl⟩ | h := h
    · exact .inl ⟨i, rfl, action_opcode checked action i hi⟩
    · exact ih h
  | loop span body rest ihBody ihRest =>
    simp only [Program.code, List.mem_cons, List.mem_append, List.mem_map] at h
    obtain rfl | rfl | h | rfl | ⟨i, hi, rfl⟩ | rfl | h := h
    · exact .inl ⟨_, rfl, by simp⟩
    · exact .inr ⟨_, rfl⟩
    · exact ihBody h
    · exact .inr ⟨_, rfl⟩
    · exact .inl ⟨i, rfl, action_opcode checked .output i (by simp [Action.code, hi])⟩
    · exact .inl ⟨_, rfl, by simp⟩
    · exact ihRest h

/-- The state holds the tape, the pointer and the remaining input of a store: the first local refers
to the tape, the second one is the pointer. -/
def MachineState.Holds (u : MachineState) (s : Store) : Prop :=
  ∃ address, u.locals = [.reference (.vector address), .int32 s.pointer] ∧
    u.world.vectors[address]? = some s.cells ∧ u.world.input = s.input

/-- The method ends as the program does. -/
def Completion.Shows : Completion → Ending → Prop
  | .returned u output, .halted s => u.Holds s ∧ output = s.output
  | .trapped t output, .trapped t' output' => t = t' ∧ output = output'
  | _, _ => False

/-- A body that starts on an input ends as a run of a program does. -/
def BodyRuns (body : List Line) (input : Stream' Int32) (e : Ending) : Prop :=
  ∃ n r, (Config.start body input).Completes body n r ∧ r.Shows e

lemma start_mainBody (checked : Bool) (p : Program) (input : Stream' Int32) :
    Config.start (mainBody checked p) input =
      ⟨mainBody checked p,
        ⟨[], [], [.reference .null, .int32 0], ⟨[], input⟩⟩, []⟩ := by
  have hcode : (p.code checked 0).filterMap declaredLocal? = [] := by
    rw [List.filterMap_eq_nil_iff]
    intro line hline
    obtain ⟨i, rfl, -⟩ | ⟨id, rfl⟩ := code_line hline <;> rfl
  have htape : declaredLocal? (.directive "\t.locals init\t(unsigned int8[] 'tape')") =
    some (.reference .null) := by decide
  have hpointer : declaredLocal? (.directive "\t.locals init\t(int32 'ptr')") =
    some (.int32 0) := by decide
  simp only [Config.start, mainBody, List.filterMap_cons, List.filterMap_append, htape, hpointer,
    hcode]
  rfl

lemma execute_allocate (input : Stream' Int32) :
    runtime.execute ⟨.newarr, .token byteToken⟩
        ⟨[.int32 30000], [], [.reference .null, .int32 0], ⟨[], input⟩⟩ =
      .ok (⟨[.reference (.vector 0)], [], [.reference .null, .int32 0],
        ⟨[Array.replicate 30000 0], input⟩⟩, []) := rfl

lemma execute_keep_tape (input : Stream' Int32) :
    runtime.execute { opcode := .stloc_0 }
        ⟨[.reference (.vector 0)], [], [.reference .null, .int32 0],
          ⟨[Array.replicate 30000 0], input⟩⟩ =
      .ok (holding (.blank input) [], []) := rfl

lemma performs_tape (input : Stream' Int32) :
    Performs tapeCode ⟨[], [], [.reference .null, .int32 0], ⟨[], input⟩⟩
      (holding (.blank input) []) [] :=
  .cons (execute_int32Load runtime 30000 _) (.cons (execute_allocate input)
    (.cons (execute_keep_tape input) (.nil _)))

lemma completes_return {body : List Line} {s : Store} {n : Nat} {r : Completion} :
    Config.Completes body n ⟨[.instruction { opcode := .ret }], holding s [], s.output⟩ r ↔
      n = 1 ∧ r = .returned (holding s []) s.output := by
  have hstep : Config.step body ⟨[.instruction { opcode := .ret }], holding s [], s.output⟩ =
    .returned := rfl
  constructor
  · intro h
    cases h with
    | next step tail => cases hstep.symm.trans step
    | returned step => exact ⟨rfl, rfl⟩
    | trapped step => cases hstep.symm.trans step
  · rintro ⟨rfl, rfl⟩
    exact .returned hstep

/-- A state holds one store only. -/
lemma shows_returned {s : Store} {e : Ending} :
    (Completion.returned (holding s []) s.output).Shows e ↔ e = .halted s := by
  constructor
  · intro h
    cases e with
    | trapped t output => cases h
    | halted t =>
      obtain ⟨⟨address, hlocals, hcells, hinput⟩, houtput⟩ := h
      obtain ⟨cells, pointer, input, output⟩ := t
      simp only [holding, List.cons.injEq, Value.reference.injEq, Reference.vector.injEq,
        Value.int32.injEq, and_true] at hlocals
      obtain ⟨rfl, rfl⟩ := hlocals
      cases hcells
      cases hinput
      cases houtput
      rfl
  · rintro rfl
    exact ⟨⟨0, rfl, rfl, rfl⟩, rfl⟩

lemma shows_trapped {t : Trap} {output : List UInt16} {e : Ending} :
    (Completion.trapped t output).Shows e ↔ e = .trapped t output := by
  cases e with
  | halted s => simp [Completion.Shows]
  | trapped t' output' => simp [Completion.Shows, eq_comm]

/-- The labels of the body of an entry point are those of its program. -/
lemma nodup_labelsIn_mainBody (checked : Bool) (p : Program) :
    (labelsIn (mainBody checked p)).Nodup := by
  simpa [mainBody] using nodup_labelsIn_code checked p 0

/-- The body of the entry point runs as the program does. -/
theorem bodyRuns_mainBody (checked : Bool) (p : Program) (input : Stream' Int32) (e : Ending) :
    BodyRuns (mainBody checked p) input e ↔ p.Runs checked (.blank input) e := by
  have hlabels := nodup_labelsIn_mainBody checked p
  have hbody : mainBody checked p = (.directive "\t.locals init\t(unsigned int8[] 'tape')" ::
      .directive "\t.locals init\t(int32 'ptr')" :: tapeCode.map .instruction) ++
      (p.code checked 0 ++ [.instruction { opcode := .ret }]) := rfl
  have hstart {n : Nat} {r : Completion} :
      (Config.start (mainBody checked p) input).Completes (mainBody checked p) n r ↔
        ∃ m, n = m + tapeCode.length + 1 + 1 ∧ Config.Completes (mainBody checked p) m
          ⟨p.code checked 0 ++ [.instruction { opcode := .ret }], holding (.blank input) [], []⟩
          r := by
    rw [start_mainBody, mainBody, completes_of_next rfl]
    simp only [completes_of_next (c := ⟨.directive _ :: _, _, _⟩) rfl,
      completes_performs (performs_tape input), List.append_nil]
    constructor
    · rintro ⟨_, rfl, _, rfl, m, rfl, hm⟩
      exact ⟨m, rfl, hm⟩
    · rintro ⟨m, rfl, hm⟩
      exact ⟨_, rfl, _, rfl, m, rfl, hm⟩
  constructor
  · rintro ⟨n, r, hn, hshows⟩
    obtain ⟨m, -, hm⟩ := hstart.mp hn
    obtain ⟨e', hruns, l, -, hleads⟩ := runs_of_completes hlabels hbody hm
    cases e' with
    | halted t =>
      obtain ⟨-, rfl⟩ := completes_return.mp hleads
      rwa [shows_returned.mp hshows]
    | trapped t output =>
      rw [Ending.Leads] at hleads
      subst r
      rwa [shows_trapped.mp hshows]
  · intro hruns
    cases e with
    | halted t =>
      obtain ⟨l, hl⟩ := completes_of_runs hlabels hruns hbody (completes_return.mpr ⟨rfl, rfl⟩)
      exact ⟨_, _, hstart.mpr ⟨l, rfl, hl⟩, shows_returned.mpr rfl⟩
    | trapped t output =>
      obtain ⟨l, hl⟩ := completes_of_runs (m := 0) hlabels hruns hbody rfl
      exact ⟨_, _, hstart.mpr ⟨l, rfl, hl⟩, shows_trapped.mpr rfl⟩

end CilAssembly.Brainfuck

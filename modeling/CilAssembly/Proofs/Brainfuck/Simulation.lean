import CilAssembly.Proofs.Brainfuck.Code

/-!
The code of whole programs. Loops are tested at their bottom, and the labels of a program are
numbered in the order in which its loops open. The machine comes from the code of a program to an
end exactly as the program itself does.
-/
namespace CilAssembly.Brainfuck
open Evaluation

namespace Program

/-- The number of loops, nested ones included. -/
def loops : Program → Nat
  | .done => 0
  | .act _ _ rest => rest.loops
  | .loop _ body rest => 1 + body.loops + rest.loops

/-- The code of a program before which `n` labels are taken. -/
def code (checked : Bool) : Nat → Program → List Line
  | _, .done => []
  | n, .act _ action rest => (action.code checked).map .instruction ++ rest.code checked n
  | n, .loop _ body rest =>
    .instruction ⟨.br, .target ⟨n + 1⟩⟩ :: .label ⟨n + 2⟩ false ::
      (body.code checked (n + 2) ++ .label ⟨n + 1⟩ false ::
        (cellCode.map .instruction ++ .instruction ⟨.brtrue, .target ⟨n + 2⟩⟩ ::
          rest.code checked (n + 2 + 2 * body.loops)))

end Program

/-- The labels that stand in some code. -/
def labelsIn (lines : List Line) : List LabelId :=
  lines.filterMap fun
    | .label id _ => some id
    | _ => none

@[simp] lemma labelsIn_nil : labelsIn [] = [] := rfl

@[simp] lemma labelsIn_instruction (i : Instruction) (lines : List Line) :
    labelsIn (.instruction i :: lines) = labelsIn lines := rfl

@[simp] lemma labelsIn_label (id : LabelId) (leave : Bool) (lines : List Line) :
    labelsIn (.label id leave :: lines) = id :: labelsIn lines := rfl

@[simp] lemma labelsIn_directive (text : String) (lines : List Line) :
    labelsIn (.directive text :: lines) = labelsIn lines := rfl

@[simp] lemma labelsIn_append (lines more : List Line) :
    labelsIn (lines ++ more) = labelsIn lines ++ labelsIn more :=
  List.filterMap_append ..

@[simp] lemma labelsIn_instructions (is : List Instruction) :
    labelsIn (is.map .instruction) = [] := by
  induction is with
  | nil => rfl
  | cons i is ih => exact ih

/-- A program uses the labels that are numbered from the first free one on. -/
lemma mem_labelsIn_code {checked : Bool} {p : Program} {n : Nat} {id : LabelId}
    (h : id ∈ labelsIn (p.code checked n)) : n < id.number ∧ id.number ≤ n + 2 * p.loops := by
  induction p generalizing n with
  | done => cases h
  | act span action rest ih =>
    simp only [Program.code, labelsIn_append, labelsIn_instructions, List.nil_append] at h
    exact ih h
  | loop span body rest ihBody ihRest =>
    simp only [Program.code, Program.loops, labelsIn_instruction, labelsIn_label, labelsIn_append,
      labelsIn_instructions, List.nil_append, List.mem_cons, List.mem_append] at h ⊢
    obtain rfl | hBody | rfl | hRest := h
    · dsimp only
      omega
    · have := ihBody hBody
      omega
    · dsimp only
      omega
    · have := ihRest hRest
      omega

/-- No label stands twice in the code of a program. -/
lemma nodup_labelsIn_code (checked : Bool) (p : Program) (n : Nat) :
    (labelsIn (p.code checked n)).Nodup := by
  induction p generalizing n with
  | done => exact List.nodup_nil
  | act span action rest ih =>
    simpa [Program.code] using ih n
  | loop span body rest ihBody ihRest =>
    have hBody {id} (h : id ∈ labelsIn (body.code checked (n + 2))) := mem_labelsIn_code h
    have hRest {id} (h : id ∈ labelsIn (rest.code checked (n + 2 + 2 * body.loops))) :=
      mem_labelsIn_code h
    simp only [Program.code, labelsIn_instruction, labelsIn_label, labelsIn_append,
      labelsIn_instructions, List.nil_append, List.nodup_cons, List.nodup_append, List.mem_append,
      List.mem_cons, LabelId.mk.injEq]
    refine ⟨?_, ihBody _, ⟨?_, ihRest _⟩, ?_⟩
    · rintro (h | h | h)
      · have := hBody h
        dsimp only at this
        omega
      · omega
      · have := hRest h
        dsimp only at this
        omega
    · intro h
      have := hRest h
      dsimp only at this
      omega
    · rintro id hid other (rfl | hother) rfl
      · have := hBody hid
        dsimp only at this
        omega
      · have := hBody hid
        have := hRest hother
        omega

/-- A jump goes to the first line of its label. -/
lemma codeAfter?_label {id : LabelId} {before : List Line} (h : id ∉ labelsIn before) (leave : Bool)
    (rest : List Line) : codeAfter? id (before ++ .label id leave :: rest) = some rest := by
  induction before with
  | nil => simp [codeAfter?]
  | cons line before ih =>
    cases line with
    | instruction i => exact ih h
    | directive text => exact ih h
    | label other leave' =>
      simp only [labelsIn_label, List.mem_cons, not_or] at h
      simpa [codeAfter?, Ne.symm h.1] using ih h.2

lemma codeAfter?_eq {id : LabelId} {leave : Bool} {body before rest : List Line}
    (hbody : body = before ++ .label id leave :: rest) (hlabels : (labelsIn body).Nodup) :
    codeAfter? id body = some rest := by
  subst body
  rw [labelsIn_append, labelsIn_label, List.nodup_append] at hlabels
  exact codeAfter?_label (fun h => hlabels.2.2 id h id (List.mem_cons_self ..) rfl) leave rest

/-- Jumps and returns are no instructions of straight-line code. -/
lemma execute_transfer {i : Instruction} (h : i.opcode = .br ∨ i.opcode = .brtrue ∨ i.opcode = .ret)
    (u : MachineState) : runtime.execute i u = .error .invalid := by
  obtain ⟨opcode, operand⟩ := i
  obtain rfl | rfl | rfl := h <;> rfl

/-- What an instruction does, the machine does. -/
lemma step_instruction {i : Instruction} {u : MachineState}
    (h : runtime.execute i u ≠ .error .invalid) (body rest : List Line) (output : List UInt16) :
    Config.step body ⟨.instruction i :: rest, u, output⟩ =
      match runtime.execute i u with
      | .ok (state, written) => .next ⟨rest, state, output ++ written⟩
      | .error (.trap t) => .trapped t
      | .error .invalid => .stuck := by
  have hbr : i.opcode ≠ .br := fun h' => h (execute_transfer (.inl h') u)
  have hbrtrue : i.opcode ≠ .brtrue := fun h' => h (execute_transfer (.inr (.inl h')) u)
  have hret : i.opcode ≠ .ret := fun h' => h (execute_transfer (.inr (.inr h')) u)
  simp only [Config.step, Config.execute]
  split
  case h_7 => rfl
  all_goals contradiction

lemma step_next {i : Instruction} {u v : MachineState} {written : List UInt16}
    (h : runtime.execute i u = .ok (v, written)) (body rest : List Line) (output : List UInt16) :
    Config.step body ⟨.instruction i :: rest, u, output⟩ = .next ⟨rest, v, output ++ written⟩ := by
  rw [step_instruction (by simp [h]), h]

lemma step_trapped {i : Instruction} {u : MachineState} {t : Trap}
    (h : runtime.execute i u = .error (.trap t)) (body rest : List Line) (output : List UInt16) :
    Config.step body ⟨.instruction i :: rest, u, output⟩ = .trapped t := by
  rw [step_instruction (by simp [h]), h]

lemma completes_of_next {body : List Line} {c d : Config} (h : c.step body = .next d) {n : Nat}
    {r : Completion} : c.Completes body n r ↔ ∃ m, n = m + 1 ∧ d.Completes body m r := by
  constructor
  · intro hc
    cases hc with
    | next step tail =>
      cases h.symm.trans step
      exact ⟨_, rfl, tail⟩
    | returned step => cases h.symm.trans step
    | trapped step => cases h.symm.trans step
  · rintro ⟨m, rfl, tail⟩
    exact .next h tail

lemma completes_of_trap {body : List Line} {c : Config} {t : Trap} (h : c.step body = .trapped t)
    {n : Nat} {r : Completion} : c.Completes body n r ↔ n = 1 ∧ r = .trapped t c.output := by
  constructor
  · intro hc
    cases hc with
    | next step tail => cases h.symm.trans step
    | returned step => cases h.symm.trans step
    | trapped step =>
      cases h.symm.trans step
      exact ⟨rfl, rfl⟩
  · rintro ⟨rfl, rfl⟩
    exact .trapped h

/-- Straight-line code brings the machine to the code after it. -/
lemma completes_performs {body rest : List Line} {is : List Instruction} {u v : MachineState}
    {output written : List UInt16} {n : Nat} {r : Completion} (h : Performs is u v written) :
    Config.Completes body n ⟨is.map .instruction ++ rest, u, output⟩ r ↔
      ∃ m, n = m + is.length ∧ Config.Completes body m ⟨rest, v, output ++ written⟩ r := by
  induction is generalizing u output written n with
  | nil =>
    obtain ⟨peak, h⟩ := h
    cases h
    simp
  | cons i is ih =>
    obtain ⟨peak, h⟩ := h
    obtain ⟨w, effects, last, hi, his, hr⟩ := run_cons_eq_ok.mp h
    cases hr
    rw [List.map_cons, List.cons_append, completes_of_next (step_next hi _ _ _)]
    simp only [ih ⟨_, his⟩, List.append_assoc, List.length_cons]
    constructor
    · rintro ⟨_, rfl, m, rfl, htail⟩
      exact ⟨m, by omega, htail⟩
    · rintro ⟨m, rfl, htail⟩
      exact ⟨_, rfl, m, rfl, htail⟩

/-- Straight-line code that traps stops the machine. -/
lemma completes_fails {body rest : List Line} {is : List Instruction} {u : MachineState} {t : Trap}
    {output : List UInt16} (h : Fails is u t) :
    ∃ length, ∀ n r, Config.Completes body n ⟨is.map .instruction ++ rest, u, output⟩ r ↔
      n = length ∧ r = .trapped t output := by
  obtain ⟨before, i, after, v, rfl, hbefore, hi⟩ := h
  refine ⟨1 + before.length, fun n r => ?_⟩
  rw [List.map_append, List.append_assoc, List.map_cons, List.cons_append,
    completes_performs hbefore]
  simp only [List.append_nil, completes_of_trap (step_trapped hi _ _ _)]
  constructor
  · rintro ⟨m, rfl, rfl, rfl⟩
    exact ⟨rfl, rfl⟩
  · rintro ⟨rfl, rfl⟩
    exact ⟨1, rfl, rfl, rfl⟩

/-- The test at the bottom of a loop, and all that follows the loop. -/
def loopTest (checked : Bool) (n : Nat) (inner rest : Program) (after : List Line) : List Line :=
  cellCode.map .instruction ++ .instruction ⟨.brtrue, .target ⟨n + 2⟩⟩ ::
    (rest.code checked (n + 2 + 2 * inner.loops) ++ after)

lemma code_loop (checked : Bool) (n : Nat) (span : Span) (inner rest : Program)
    (after : List Line) :
    (Program.loop span inner rest).code checked n ++ after =
      .instruction ⟨.br, .target ⟨n + 1⟩⟩ :: .label ⟨n + 2⟩ false ::
        (inner.code checked (n + 2) ++
          .label ⟨n + 1⟩ false :: loopTest checked n inner rest after) := by
  simp [Program.code, loopTest]

lemma isTrue_byte (c : UInt8) : isTrue (.int32 c.toUInt32.toInt32) = decide (c ≠ 0) := by
  have hzero : c.toUInt32.toInt32 = 0 ↔ c = 0 := by
    constructor
    · intro h
      rw [← ofInt_of_byte c, h]
      rfl
    · rintro rfl
      rfl
  simp [isTrue, hzero]

section Loop
variable {checked : Bool} {n : Nat} {span : Span} {inner rest : Program}
  {body before after : List Line}
  (hbody : body = before ++ ((Program.loop span inner rest).code checked n ++ after))
include hbody

lemma exists_before_inner : ∃ before, body = before ++ (inner.code checked (n + 2) ++
    .label ⟨n + 1⟩ false :: loopTest checked n inner rest after) := by
  refine ⟨before ++ [.instruction ⟨.br, .target ⟨n + 1⟩⟩, .label ⟨n + 2⟩ false], ?_⟩
  rw [hbody, code_loop]
  simp

lemma exists_before_rest : ∃ before,
    body = before ++ (rest.code checked (n + 2 + 2 * inner.loops) ++ after) := by
  refine ⟨before ++ .instruction ⟨.br, .target ⟨n + 1⟩⟩ :: .label ⟨n + 2⟩ false ::
    (inner.code checked (n + 2) ++ .label ⟨n + 1⟩ false :: (cellCode.map .instruction ++
      [.instruction ⟨.brtrue, .target ⟨n + 2⟩⟩])), ?_⟩
  rw [hbody, code_loop, loopTest]
  simp

variable (hlabels : (labelsIn body).Nodup)
include hlabels

/-- The label of the test leads to the test. -/
lemma codeAfter?_test : codeAfter? ⟨n + 1⟩ body = some (loopTest checked n inner rest after) := by
  have hsplit : body = (before ++ .instruction ⟨.br, .target ⟨n + 1⟩⟩ :: .label ⟨n + 2⟩ false ::
      inner.code checked (n + 2)) ++
      .label ⟨n + 1⟩ false :: loopTest checked n inner rest after := by
    rw [hbody, code_loop]
    simp
  exact codeAfter?_eq hsplit hlabels

/-- The label of the top leads to the body of the loop. -/
lemma codeAfter?_top :
    codeAfter? ⟨n + 2⟩ body = some (inner.code checked (n + 2) ++
      .label ⟨n + 1⟩ false :: loopTest checked n inner rest after) := by
  have hsplit : body = (before ++ [.instruction ⟨.br, .target ⟨n + 1⟩⟩]) ++ .label ⟨n + 2⟩ false ::
      (inner.code checked (n + 2) ++
        .label ⟨n + 1⟩ false :: loopTest checked n inner rest after) := by
    rw [hbody, code_loop]
    simp
  exact codeAfter?_eq hsplit hlabels

/-- A loop begins with its test. -/
lemma completes_loop {u : MachineState} {output : List UInt16} {m : Nat} {r : Completion} :
    Config.Completes body m ⟨(Program.loop span inner rest).code checked n ++ after, u, output⟩ r ↔
      ∃ l, m = l + 1 ∧
        Config.Completes body l ⟨loopTest checked n inner rest after, u, output⟩ r := by
  apply completes_of_next
  rw [code_loop]
  simp [Config.step, Config.execute, Config.jump, codeAfter?_test hbody hlabels]

/-- A test that enters the loop goes on with the body, any other one after the loop. -/
lemma completes_test {s : Store} {output : List UInt16} {m : Nat} {r : Completion} {c : UInt8}
    (hcell : s.cell = .ok c) :
    Config.Completes body m ⟨loopTest checked n inner rest after, holding s [], output⟩ r ↔
      ∃ l, m = l + 1 + cellCode.length ∧ Config.Completes body l
        ⟨if c = 0 then rest.code checked (n + 2 + 2 * inner.loops) ++ after
          else inner.code checked (n + 2) ++
            .label ⟨n + 1⟩ false :: loopTest checked n inner rest after,
          holding s [], output⟩ r := by
  have hstep : Config.step body ⟨.instruction ⟨.brtrue, .target ⟨n + 2⟩⟩ ::
      (rest.code checked (n + 2 + 2 * inner.loops) ++ after),
      holding s [.int32 c.toUInt32.toInt32], output⟩ =
      .next ⟨if c = 0 then rest.code checked (n + 2 + 2 * inner.loops) ++ after
        else inner.code checked (n + 2) ++
          .label ⟨n + 1⟩ false :: loopTest checked n inner rest after,
        holding s [], output⟩ := by
    by_cases hc : c = 0
    · subst c
      rfl
    · simp [Config.step, Config.execute, Config.jump, holding, isTrue_byte, hc,
        codeAfter?_top hbody hlabels]
  rw [loopTest, completes_performs (performs_cell [] hcell)]
  simp only [List.append_nil, completes_of_next hstep]
  constructor
  · rintro ⟨_, rfl, l, rfl, hl⟩
    exact ⟨l, rfl, hl⟩
  · rintro ⟨l, rfl, hl⟩
    exact ⟨_, rfl, l, rfl, hl⟩

end Loop

/-- An ending of a program leads to a completion: a final store by what follows the program, a trap
at once. -/
def Ending.Leads (body after : List Line) (n : Nat) (r : Completion) : Ending → Prop
  | .halted t => Config.Completes body n ⟨after, holding t [], t.output⟩ r
  | .trapped t output => r = .trapped t output

section Simulation
variable {checked : Bool} {body : List Line} (hlabels : (labelsIn body).Nodup)
include hlabels

/-- The machine follows the program. -/
theorem completes_of_runs {p : Program} {s : Store} {e : Ending} (h : p.Runs checked s e)
    {n m : Nat} {before after : List Line} {r : Completion}
    (hbody : body = before ++ (p.code checked n ++ after)) (hr : e.Leads body after m r) :
    ∃ l, Config.Completes body l ⟨p.code checked n ++ after, holding s [], s.output⟩ r := by
  induction h generalizing n m before after r with
  | done => exact ⟨m, hr⟩
  | @act span a rest s t e step tail ih =>
    rw [Program.code, List.append_assoc] at hbody ⊢
    obtain ⟨written, hcode, houtput⟩ := performs_action step
    rw [← List.append_assoc] at hbody
    obtain ⟨l, hl⟩ := ih hbody hr
    exact ⟨_, (completes_performs hcode).mpr ⟨l, rfl, houtput ▸ hl⟩⟩
  | actTrap step =>
    rw [Program.code, List.append_assoc]
    obtain ⟨length, hcompletes⟩ := completes_fails (fails_action step)
    exact ⟨length, (hcompletes _ _).mpr ⟨rfl, hr⟩⟩
  | loopTrap test =>
    obtain ⟨length, hcompletes⟩ := completes_fails (fails_cell [] test)
    exact ⟨_, (completes_loop hbody hlabels).mpr ⟨_, rfl, (hcompletes _ _).mpr ⟨rfl, hr⟩⟩⟩
  | loopSkip test tail ih =>
    obtain ⟨_, hrest⟩ := exists_before_rest hbody
    obtain ⟨l, hl⟩ := ih hrest hr
    have htest := (completes_test hbody hlabels test).mpr ⟨l, rfl, hl⟩
    exact ⟨_, (completes_loop hbody hlabels).mpr ⟨_, rfl, htest⟩⟩
  | loopStop test entered inner ih =>
    obtain ⟨_, hinner⟩ := exists_before_inner hbody
    obtain ⟨l, hl⟩ := ih (m := 0) hinner hr
    have htest := (completes_test hbody hlabels test).mpr ⟨l, rfl, by rwa [if_neg entered]⟩
    exact ⟨_, (completes_loop hbody hlabels).mpr ⟨_, rfl, htest⟩⟩
  | loopAgain test entered inner again ihInner ihAgain =>
    obtain ⟨_, hinner⟩ := exists_before_inner hbody
    obtain ⟨_, hagain⟩ := ihAgain hbody hr
    obtain ⟨l, -, hl⟩ := (completes_loop hbody hlabels).mp hagain
    obtain ⟨l, hl⟩ := ihInner hinner (Config.Completes.next rfl hl)
    have htest := (completes_test hbody hlabels test).mpr ⟨l, rfl, by rwa [if_neg entered]⟩
    exact ⟨_, (completes_loop hbody hlabels).mpr ⟨_, rfl, htest⟩⟩

/-- Where the machine comes to an end, so does the program. -/
theorem runs_of_completes {p : Program} {s : Store} {n m : Nat} {before after : List Line}
    {r : Completion} (hbody : body = before ++ (p.code checked n ++ after))
    (h : Config.Completes body m ⟨p.code checked n ++ after, holding s [], s.output⟩ r) :
    ∃ e, p.Runs checked s e ∧ ∃ l ≤ m, e.Leads body after l r := by
  -- A loop that goes round again has taken steps; a command may have no code at all.
  induction m using Nat.strongRecOn generalizing p s n before after with
  | ind m ihSteps =>
    induction p generalizing s n before with
    | done => exact ⟨.halted s, .done, m, le_rfl, h⟩
    | act span a rest ih =>
      rw [Program.code, List.append_assoc] at hbody h
      cases hstep : s.perform checked a with
      | error t =>
        obtain ⟨length, hcompletes⟩ := completes_fails (fails_action hstep)
        obtain ⟨-, rfl⟩ := (hcompletes _ _).mp h
        exact ⟨_, .actTrap hstep, m, le_rfl, rfl⟩
      | ok t =>
        obtain ⟨written, hcode, houtput⟩ := performs_action hstep
        obtain ⟨l, hm, hl⟩ := (completes_performs hcode).mp h
        rw [← List.append_assoc] at hbody
        rw [← houtput] at hl
        have hrest : ∃ e, rest.Runs checked t e ∧ ∃ k ≤ l, e.Leads body after k r := by
          obtain hlt | rfl := Nat.lt_or_eq_of_le (hm ▸ Nat.le_add_right l _ : l ≤ m)
          · exact ihSteps l hlt hbody hl
          · exact ih hbody hl
        obtain ⟨e, hruns, k, hk, hleads⟩ := hrest
        exact ⟨e, .act hstep hruns, k, by omega, hleads⟩
    | loop span inner rest ihInner ihRest =>
      obtain ⟨l, rfl, hl⟩ := (completes_loop hbody hlabels).mp h
      cases hcell : s.cell with
      | error t =>
        obtain ⟨length, hcompletes⟩ := completes_fails (fails_cell [] hcell)
        obtain ⟨-, rfl⟩ := (hcompletes _ _).mp hl
        exact ⟨_, .loopTrap hcell, _, le_rfl, rfl⟩
      | ok c =>
        obtain ⟨k, rfl, hk⟩ := (completes_test hbody hlabels hcell).mp hl
        by_cases hc : c = 0
        · subst c
          obtain ⟨_, hrest⟩ := exists_before_rest hbody
          obtain ⟨e, hruns, j, hj, hleads⟩ := ihSteps k (by omega) hrest hk
          exact ⟨e, .loopSkip hcell hruns, j, by omega, hleads⟩
        · rw [if_neg hc] at hk
          obtain ⟨_, hinner⟩ := exists_before_inner hbody
          obtain ⟨e, hruns, j, hj, hleads⟩ := ihSteps k (by omega) hinner hk
          cases e with
          | trapped t output => exact ⟨_, .loopStop hcell hc hruns, j, by omega, hleads⟩
          | halted t =>
            have hlabel : Config.Completes body j ⟨.label ⟨n + 1⟩ false ::
              loopTest checked n inner rest after, holding t [], t.output⟩ r := hleads
            obtain ⟨i, rfl, hi⟩ := (completes_of_next rfl).mp hlabel
            have hagain := (completes_loop hbody hlabels).mpr ⟨i, rfl, hi⟩
            obtain ⟨e, hruns', j, hj, hleads⟩ := ihSteps (i + 1) (by omega) hbody hagain
            exact ⟨e, .loopAgain hcell hc hruns hruns', j, by omega, hleads⟩

end Simulation

end CilAssembly.Brainfuck

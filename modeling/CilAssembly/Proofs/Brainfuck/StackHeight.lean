import CilAssembly.Proofs.Brainfuck.Observation

/-!
The height of the evaluation stack. Walking over the body of an entry point line by line, the stack
is empty wherever control flow meets, and the most that it holds is what the method announces. The
height that lowering keeps track of is zero after every command.
-/
namespace CilAssembly.Brainfuck

/-- How many values an instruction takes from the stack and how many it leaves there. -/
def stackEffect? (i : Instruction) : Option (Nat × Nat) :=
  match i.opcode, i.operand with
  | .call, .token token =>
    if token = readToken then some (0, 1)
    else if token = writeToken then some (1, 0)
    else none
  | .br, _ | .ret, _ => some (0, 0)
  | .brtrue, _ | .stloc_0, _ | .stloc_1, _ => some (1, 0)
  | .newarr, _ | .convU1, _ | .convOvfU1, _ => some (1, 1)
  | .add, _ | .addOvf, _ | .ldelemU1, _ => some (2, 1)
  | .stelemI1, _ => some (3, 0)
  | .ldloc_0, _ | .ldloc_1, _ | .ldcI4M1, _ | .ldcI4_0, _ | .ldcI4_1, _ | .ldcI4_2, _
  | .ldcI4_3, _ | .ldcI4_4, _ | .ldcI4_5, _ | .ldcI4_6, _ | .ldcI4_7, _ | .ldcI4_8, _
  | .ldcI4S, _ | .ldcI4, _ => some (0, 1)
  | _, _ => none

/-- The height after an effect, unless the effect takes more than there is. -/
def applyEffect? (height : Nat) : Nat × Nat → Option Nat
  | (taken, left) => if taken ≤ height then some (height - taken + left) else none

/-- The height after a line. Only instructions change it. -/
def heightAfter? (height : Nat) : Line → Option Nat
  | .instruction i => (stackEffect? i).bind (applyEffect? height)
  | _ => some height

/-- A line with the height of the stack before and after it. -/
structure Stage where
  line : Line
  before : Nat
  after : Nat
  deriving DecidableEq, Repr

/-- Walks over lines from a height on. -/
def walk (height : Nat) : List Line → Option (List Stage)
  | [] => some []
  | line :: rest => do
    let next ← heightAfter? height line
    let later ← walk next rest
    return ⟨line, height, next⟩ :: later

/-- The greatest height on a walk. -/
def maxHeight : List Stage → Nat
  | [] => 0
  | stage :: stages => max stage.after (maxHeight stages)

/-- The stack is empty where control flow may branch or meet. -/
structure Stage.IsLevel (stage : Stage) : Prop where
  label : ∀ id leave, stage.line = .label id leave → stage.before = 0
  br : ∀ operand, stage.line = .instruction ⟨.br, operand⟩ → stage.before = 0
  brtrue : ∀ operand, stage.line = .instruction ⟨.brtrue, operand⟩ → stage.after = 0
  ret : ∀ operand, stage.line = .instruction ⟨.ret, operand⟩ → stage.before = 0
  jump : ∀ id ∈ stage.line.targets, stage.after = 0

lemma maxHeight_append (stages more : List Stage) :
    maxHeight (stages ++ more) = max (maxHeight stages) (maxHeight more) := by
  induction stages with
  | nil => exact (Nat.zero_max _).symm
  | cons stage stages ih => simp only [List.cons_append, maxHeight, ih, Nat.max_assoc]

/-- Walking over lines goes from one height to another. On the way the stack is empty where it must
be, and has a greatest height. -/
def Levels (start : Nat) (lines : List Line) (stop height : Nat) : Prop :=
  ∃ stages, (∀ rest, walk start (lines ++ rest) = (walk stop rest).map (stages ++ ·)) ∧
    (∀ stage ∈ stages, stage.IsLevel) ∧ maxHeight stages = height

namespace Levels
variable {lines more : List Line} {start middle stop height height' : Nat}

lemma nil (start : Nat) : Levels start [] start 0 :=
  ⟨[], by simp, by simp, rfl⟩

lemma append (h : Levels start lines middle height) (h' : Levels middle more stop height') :
    Levels start (lines ++ more) stop (max height height') := by
  obtain ⟨stages, hwalk, hlevel, rfl⟩ := h
  obtain ⟨stages', hwalk', hlevel', rfl⟩ := h'
  refine ⟨stages ++ stages', fun rest => ?_, ?_, maxHeight_append ..⟩
  · rw [List.append_assoc, hwalk, hwalk', Option.map_map]
    congr 1
    funext later
    exact (List.append_assoc ..).symm
  · intro stage hstage
    exact (List.mem_append.mp hstage).elim (hlevel stage) (hlevel' stage)

lemma cons {line : Line} (h : heightAfter? start line = some middle)
    (hlevel : Stage.IsLevel ⟨line, start, middle⟩) (htail : Levels middle lines stop height) :
    Levels start (line :: lines) stop (max middle height) := by
  obtain ⟨stages, hwalk, hlevel', rfl⟩ := htail
  refine ⟨⟨line, start, middle⟩ :: stages, fun rest => ?_, ?_, rfl⟩
  · rw [List.cons_append, walk, h, Option.bind_eq_bind, Option.bind_some, hwalk]
    cases walk stop rest <;> rfl
  · intro stage hstage
    obtain rfl | hstage := List.mem_cons.mp hstage
    · exact hlevel
    · exact hlevel' stage hstage

/-- The walk over all lines. -/
lemma exists_walk (h : Levels start lines stop height) :
    ∃ stages, walk start lines = some stages ∧ (∀ stage ∈ stages, stage.IsLevel) ∧
      maxHeight stages = height := by
  obtain ⟨stages, hwalk, hlevel, hheight⟩ := h
  refine ⟨stages, ?_, hlevel, hheight⟩
  simpa [walk] using hwalk []

end Levels

/-- The instruction has the effect, and control flow goes on after it. -/
def Straight (i : Instruction) (effect : Nat × Nat) : Prop :=
  stackEffect? i = some effect ∧ i.opcode ∉ [.br, .brtrue, .ret] ∧ i.operand.labels = []

instance (i : Instruction) (effect : Nat × Nat) : Decidable (Straight i effect) :=
  inferInstanceAs (Decidable (_ ∧ _))

lemma Straight.isLevel {i : Instruction} {effect : Nat × Nat} (h : Straight i effect)
    (before after : Nat) : Stage.IsLevel ⟨.instruction i, before, after⟩ := by
  obtain ⟨-, hopcode, hlabels⟩ := h
  refine ⟨?_, ?_, ?_, ?_, ?_⟩
  · rintro id leave ⟨⟩
  · rintro operand ⟨⟩
    simp at hopcode
  · rintro operand ⟨⟩
    simp at hopcode
  · rintro operand ⟨⟩
    simp at hopcode
  · intro id hid
    rw [Line.targets, hlabels] at hid
    cases hid

/-- The height after effects one by one, with the greatest one on the way. -/
def applyEffects? (height : Nat) : List (Nat × Nat) → Option (Nat × Nat)
  | [] => some (height, 0)
  | effect :: effects => do
    let next ← applyEffect? height effect
    let (stop, greatest) ← applyEffects? next effects
    return (stop, max next greatest)

/-- Instructions without jumps have their effects one by one. -/
lemma levels_straight {is : List Instruction} {effects : List (Nat × Nat)} {start stop height : Nat}
    (h : is.Forall₂ Straight effects) (hrun : applyEffects? start effects = some (stop, height)) :
    Levels start (is.map .instruction) stop height := by
  induction h generalizing start height with
  | nil =>
    cases hrun
    exact .nil _
  | @cons i effect is effects hi _ ih =>
    simp only [applyEffects?, Option.bind_eq_bind, Option.bind_eq_some_iff, Option.pure_def,
      Option.some.injEq, Prod.mk.injEq] at hrun
    obtain ⟨next, hnext, ⟨stop', greatest⟩, htail, rfl, rfl⟩ := hrun
    refine .cons ?_ (hi.isLevel ..) (ih htail)
    rw [heightAfter?, hi.1, Option.bind_some, hnext]

lemma straight_int32Load (v : Int32) : Straight (Gen.int32Load v) (0, 1) := by
  unfold Gen.int32Load
  split
  case h_11 => split <;> exact ⟨rfl, by simp, rfl⟩
  all_goals decide

/-- Pushing the current cell takes two places. -/
lemma levels_cell : Levels 0 (cellCode.map .instruction) 1 2 := by
  have hcell : cellCode.Forall₂ Straight [(0, 1), (0, 1), (2, 1)] := by decide
  exact levels_straight hcell rfl

/-- The code of a command needs the room that lowering keeps for it. -/
lemma levels_action (checked : Bool) (a : Action) :
    Levels 0 ((a.code checked).map .instruction) 0 a.peak := by
  cases a with
  | add amount =>
    by_cases h : amount = 0
    · simpa [Action.code, Action.peak, h] using Levels.nil 0
    · have hcode : ((Action.add amount).code checked).Forall₂ Straight
          [(0, 1), (0, 1), (0, 1), (0, 1), (2, 1), (0, 1), (2, 1), (1, 1), (3, 0)] := by
        have hload := straight_int32Load amount
        cases checked <;> simp +decide [Action.code, h, operandCode, cellCode, hload]
      rw [Action.peak, if_neg h]
      exact levels_straight hcode rfl
  | shift offset =>
    by_cases h : offset = 0
    · simpa [Action.code, Action.peak, h] using Levels.nil 0
    · have hcode : ((Action.shift offset).code checked).Forall₂ Straight
          [(0, 1), (0, 1), (2, 1), (1, 0)] := by
        have hload := straight_int32Load offset
        simp +decide [Action.code, h, hload]
      rw [Action.peak, if_neg h]
      exact levels_straight hcode rfl
  | output =>
    have hcode : (Action.output.code checked).Forall₂ Straight
        [(0, 1), (0, 1), (2, 1), (1, 0)] := by cases checked <;> decide
    exact levels_straight hcode rfl
  | input =>
    have hcode : (Action.input.code checked).Forall₂ Straight
        [(0, 1), (0, 1), (0, 1), (1, 1), (3, 0)] := by cases checked <;> decide
    exact levels_straight hcode rfl
  | clear =>
    have hcode : (Action.clear.code checked).Forall₂ Straight
        [(0, 1), (0, 1), (0, 1), (3, 0)] := by cases checked <;> decide
    exact levels_straight hcode rfl

/-- An empty stack is in order everywhere. -/
lemma isLevel_empty (line : Line) : Stage.IsLevel ⟨line, 0, 0⟩ :=
  ⟨fun _ _ _ => rfl, fun _ _ => rfl, fun _ _ => rfl, fun _ _ => rfl, fun _ _ => rfl⟩

/-- The test of a loop takes its cell from the stack. -/
lemma isLevel_brtrue (id : LabelId) :
    Stage.IsLevel ⟨.instruction ⟨.brtrue, .target id⟩, 1, 0⟩ :=
  ⟨nofun, nofun, fun _ _ => rfl, nofun, fun _ _ => rfl⟩

/-- The code of a program needs the room that lowering keeps for it. -/
theorem levels_code (checked : Bool) (p : Program) (n : Nat) :
    Levels 0 (p.code checked n) 0 p.peak := by
  induction p generalizing n with
  | done => exact .nil 0
  | act span action rest ih => exact (levels_action checked action).append (ih n)
  | loop span body rest ihBody ihRest =>
    have htest := levels_cell.append
      ((ihRest (n + 2 + 2 * body.loops)).cons rfl (isLevel_brtrue ⟨n + 2⟩))
    have hbody := (ihBody (n + 2)).append (htest.cons rfl (isLevel_empty (.label ⟨n + 1⟩ false)))
    have hloop := (hbody.cons rfl (isLevel_empty (.label ⟨n + 2⟩ false))).cons rfl
      (isLevel_empty (.instruction ⟨.br, .target ⟨n + 1⟩⟩))
    have hpeak : max 0 (max 0 (max body.peak (max 0 (max 2 (max 0 rest.peak))))) =
        (Program.loop span body rest).peak := by
      rw [Program.peak]
      omega
    rw [← hpeak]
    exact hloop

/-- The body of the entry point needs the room that it announces. -/
lemma levels_mainBody (checked : Bool) (p : Program) :
    Levels 0 (mainBody checked p) 0 (max 1 p.peak) := by
  have htape : tapeCode.Forall₂ Straight [(0, 1), (1, 1), (1, 0)] := by decide
  have hret := (Levels.nil 0).cons rfl (isLevel_empty (.instruction { opcode := .ret }))
  have hcode := (levels_straight htape rfl).append ((levels_code checked p 0).append hret)
  have hbody := (hcode.cons rfl (isLevel_empty pointerLine)).cons rfl (isLevel_empty tapeLine)
  have hpeak : max 0 (max 0 (max 1 (max p.peak (max 0 0)))) = max 1 p.peak := by omega
  rw [← hpeak]
  exact hbody

/-- The last line of the entry point. -/
def entryEnd? (listing : Listing) : Option Line :=
  ((listing.lines.toList.dropWhile (· != .directive "\t.entrypoint")).drop 1).find? closesMethod

lemma entryEnd?_unitLines (options : Options) (p : Program) :
    entryEnd? ⟨(unitLines options p).toArray⟩ =
      some (.directive ("\t.maxstack " ++ toString (max 1 p.peak) ++ "\n\x7d")) := by
  have hbody : (mainBody options.checked p).find? closesMethod = none :=
    List.find?_eq_none.mpr fun line hline => by simpa using mainBody_open hline
  rw [entryEnd?, drop_unitLines, List.find?_append, hbody, Option.none_or,
    List.find?_cons_of_pos (closesMethod_maxstack _)]

/-- The stack of a compiled program is accounted for. Along the body of the entry point no line takes
more than there is, the stack is empty where control flow branches or meets, every jump leaves it as
high as its label finds it, and it grows to what the last line announces. While the program is
compiled, the height that is kept track of is zero after every command. -/
theorem compile_accounts_stack (options : Options) (file text : String) (p : Program) :
    (if 2 * p.loops ≤ Labels.limit then
      ∃ listing c stages,
        (do let _ ← compile file text p; Gen.finish) (Context.create options) = .ok listing c ∧
        walk 0 (entryBody listing) = some stages ∧
        (∀ stage ∈ stages, stage.IsLevel) ∧
        (∀ jump ∈ stages, ∀ place ∈ stages, ∀ id leave,
          id ∈ jump.line.targets → place.line = .label id leave → jump.after = place.before) ∧
        entryEnd? listing =
          some (.directive ("\t.maxstack " ++ toString (maxHeight stages) ++ "\n\x7d"))
    else
      ∃ c, (do let _ ← compile file text p; Gen.finish) (Context.create options) =
        .error (.failure .labelsExhausted) c) ∧
    compileBy (Lower.observed Gen.demandEmpty · p) file text p (Context.create options) =
      compile file text p (Context.create options) := by
  constructor
  · split
    case isTrue hroom =>
      obtain ⟨stages, hwalk, hlevel, hheight⟩ := (levels_mainBody options.checked p).exists_walk
      refine ⟨_, _, stages, compile_finish options file text p hroom, ?_, hlevel, ?_, ?_⟩
      · rw [entryBody_unitLines, hwalk]
      · intro jump hjump place hplace id leave htarget hlabel
        rw [(hlevel jump hjump).jump id htarget, (hlevel place hplace).label id leave hlabel]
      · rw [entryEnd?_unitLines, hheight]
    case isFalse hroom =>
      obtain ⟨c, hc⟩ := compile_exhausted options file text p (by omega)
      exact ⟨c, by simp only [Gen.bind_apply, hc]⟩
  · rw [← compileBy_program]
    refine compileBy_congr (fun target q d fits hquiet hheight hnodes => ?_) options file text
    refine observed_apply (fun q d h => ?_) p fits hquiet hheight hnodes
    rw [Lower.lift_apply, Gen.demandEmpty_apply h]

end CilAssembly.Brainfuck

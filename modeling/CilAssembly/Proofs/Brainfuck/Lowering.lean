import CilAssembly.Brainfuck.Lowering
import CilAssembly.Proofs.Brainfuck.Simulation
import CilAssembly.Proofs.Generation.Steps

/-!
What lowering emits. A target that fits its unit lets every command through: the code of the command
is appended, the stack is as high as before, and no peephole rule applies.
-/
namespace CilAssembly.Brainfuck
open Peephole (Inert endsRule inert_of_endsRule)

namespace Lower
variable {α β : Type}

@[simp] lemma pure_apply (a : α) (p : Progress) (c : Context) :
    (pure a : Lower α) p c = .ok (a, p) c := rfl

@[simp] lemma bind_apply (x : Lower α) (f : α → Lower β) (p : Progress) (c : Context) :
    (x >>= f) p c = match x p c with
      | .ok (a, q) d => f a q d
      | .error e d => .error e d := by
  change ((x p : Gen (α × Progress)) >>= fun (a, q) => f a q) c = _
  rw [Gen.bind_apply]
  cases x p c <;> rfl

@[simp] lemma lift_apply (x : Gen α) (p : Progress) (c : Context) :
    (liftM x : Lower α) p c = match x c with
      | .ok a d => .ok (a, p) d
      | .error e d => .error e d := by
  change ((x : Gen α) >>= fun a => pure (a, p)) c = _
  rw [Gen.bind_apply]
  cases x c <;> rfl

@[simp] lemma get_apply (p : Progress) (c : Context) :
    (get : Lower Progress) p c = .ok (p, p) c := rfl

@[simp] lemma modify_apply (f : Progress → Progress) (p : Progress) (c : Context) :
    (modify f : Lower Unit) p c = .ok ((), f p) c := rfl

end Lower

namespace Progress

def noted (p : Progress) (what : Tracked) (status : Status) : Progress :=
  { p with usage := p.usage.set what.slot status }

/-- The tape and the pointer were used. -/
def touched (p : Progress) : Progress :=
  (p.noted .tape .used).noted .pointer .used

/-- There was one more output command. -/
def written (p : Progress) : Progress :=
  { p with writes := p.writes + 1 }

@[simp] lemma next_noted (p : Progress) (what : Tracked) (status : Status) :
    (p.noted what status).next = p.next := rfl

@[simp] lemma next_touched (p : Progress) : p.touched.next = p.next := by
  simp only [touched, next_noted]

@[simp] lemma next_written (p : Progress) : p.written.next = p.next := rfl

end Progress

@[simp] lemma Lower.note_apply (what : Tracked) (status : Status) (p : Progress) (c : Context) :
    Lower.note what status p c = .ok ((), p.noted what status) c := rfl

/-- The target fits a unit: its locals are the first two, its methods are those of the console, and
its statements are nodes of its tree. -/
structure Target.Fits (target : Target) (image : Image) : Prop where
  tape : target.tape.index = 0
  pointer : target.pointer.index = 1
  write : image.methodRef target.write none = .ok writeToken
  read : image.methodRef target.read none = .ok readToken
  nodes : ∀ id ∈ target.statements, ∃ node, target.tree.get id = .ok node

lemma endsRule_int32Load (v : Int32) : endsRule (Gen.int32Load v).opcode = false := by
  unfold Gen.int32Load
  split
  case h_11 => split <;> rfl
  all_goals rfl

/-- A constant that is not zero does not cancel with an addition. -/
lemma inert_int32Load_add {v : Int32} (h : v ≠ 0) : Inert (Gen.int32Load v) { opcode := .add } := by
  have hzero : v.toInt ≠ 0 := by
    intro h'
    exact h (eq_ofInt h')
  unfold Gen.int32Load
  split
  case h_2 h' => exact absurd h' hzero
  case h_11 => split <;> exact ⟨rfl, rfl⟩
  all_goals exact ⟨rfl, rfl⟩

namespace Action

/-- What a command leaves noted. -/
def progress : Action → Progress → Progress
  | .add amount, p => if amount = 0 then p else p.touched.touched
  | .shift offset, p => if offset = 0 then p else p.noted .pointer (.used ||| .modified)
  | .output, p => (p.touched.noted .output .modified).written
  | .input, p => p.touched
  | .clear, p => p.touched

/-- The room that a command needs on the stack. -/
def peak : Action → Nat
  | .add amount => if amount = 0 then 0 else 4
  | .shift offset => if offset = 0 then 0 else 2
  | .output => 2
  | .input => 3
  | .clear => 3

end Action

/-- A step of lowering emits lines and leaves the stack in a given state. -/
def Lower.Emits (x : Lower Unit) (p : Progress) (c : Context) (q : Progress) (lines : List Line)
    (stack : StackUse) : Prop :=
  ∃ d, x p c = .ok ((), q) d ∧ c.Appends d lines ∧ d.stack = stack

lemma Lower.Emits.bind {x y : Lower Unit} {p q r : Progress} {c : Context} {lines more : List Line}
    {s t : StackUse} (hx : x.Emits p c q lines s)
    (hy : ∀ d, c.Appends d lines → d.stack = s → y.Emits q d r more t) :
    (do x; y : Lower Unit).Emits p c r (lines ++ more) t := by
  obtain ⟨d, hd, happends, hstack⟩ := hx
  obtain ⟨e, he, happends', hstack'⟩ := hy d happends hstack
  refine ⟨e, ?_, happends.trans happends', hstack'⟩
  rw [Lower.bind_apply, hd]
  exact he

section Pieces
variable {target : Target} {c : Context} (p : Progress)

lemma inert_plain {opcode : Opcode} (h : endsRule opcode = false) (older : Instruction) :
    Inert older { opcode } :=
  inert_of_endsRule h

variable (hquiet : c.queue.Quiet) {height : Int} {peak : Nat} (hstack : c.stack = ⟨height, peak⟩)
include hquiet hstack

lemma emits_adjust (delta : Int) (h : 0 ≤ height + delta) (h' : height + delta < 0x80000000) :
    Lower.Emits (Gen.adjust delta) p c p []
      ⟨height + delta, max peak (height + delta).toNat⟩ := by
  refine ⟨c.adjusted delta, ?_, (Context.Appends.refl hquiet).adjusted delta, ?_⟩
  · rw [Lower.lift_apply, Gen.adjust_apply delta (by rwa [hstack]) (by rwa [hstack])]
  · rw [Context.adjusted, hstack]

lemma emits_queue {i : Instruction} (h : endsRule i.opcode = false) :
    Lower.Emits (Gen.enqueue i) p c p [.instruction i] ⟨height, peak⟩ := by
  refine ⟨c.enqueued i, rfl, ?_, hstack⟩
  exact (Context.Appends.refl hquiet).enqueuedAll_cons h (.singleton i)

/-- A line that no instruction is queued across. -/
lemma emits_line {x : Gen Unit} {line : Line} (h : x c = .ok () (c.flushed.appended [line])) :
    Lower.Emits x p c p [line] ⟨height, peak⟩ := by
  refine ⟨c.flushed.appended [line], ?_, (Context.Appends.refl hquiet).barrier line, hstack⟩
  rw [Lower.lift_apply, h]

lemma emits_modify (f : Progress → Progress) :
    (modify f : Lower Unit).Emits p c (f p) [] ⟨height, peak⟩ :=
  ⟨c, rfl, .refl hquiet, hstack⟩

lemma emits_slot {access : SlotAccess} {slot : Slot}
    (h : endsRule (access.instruction slot.index).opcode = false) :
    Lower.Emits (Gen.accessSlot access slot) p c p [.instruction (access.instruction slot.index)]
      ⟨height, peak⟩ :=
  emits_queue p hquiet hstack h

/-- The operands of an access to the current cell. -/
lemma emits_cellOperands (fits : target.Fits c.image) (h : 0 ≤ height) (h' : height ≤ 8) :
    (Lower.cellOperands target).Emits p c p.touched (operandCode.map .instruction)
      ⟨height + 2, max peak (height + 2).toNat⟩ := by
  have htape : SlotAccess.loadLocal.instruction target.tape.index = { opcode := .ldloc_0 } := by
    rw [fits.tape]
    rfl
  have hpointer :
      SlotAccess.loadLocal.instruction target.pointer.index = { opcode := .ldloc_1 } := by
    rw [fits.pointer]
    rfl
  have hemits := (emits_slot p hquiet hstack (by rw [htape]; rfl)).bind fun d hd hs =>
    (emits_slot p hd.quiet hs (by rw [hpointer]; rfl)).bind fun d hd hs =>
      (emits_adjust p hd.quiet hs 2 (by omega) (by omega)).bind fun d hd hs =>
        (emits_modify p hd.quiet hs (·.noted .tape .used)).bind fun d hd hs =>
          emits_modify _ hd.quiet hs (·.noted .pointer .used)
  rw [htape, hpointer] at hemits
  exact hemits

/-- Pushing the current cell. -/
lemma emits_loadCell (fits : target.Fits c.image) (h : 0 ≤ height) (h' : height ≤ 8) :
    (Lower.loadCell target).Emits p c p.touched (cellCode.map .instruction)
      ⟨height + 1, max peak (height + 2).toNat⟩ := by
  have hload := (emits_cellOperands p hquiet hstack fits h h').bind fun d hd hs =>
    (emits_queue p.touched hd.quiet hs (i := { opcode := .ldelemU1 }) rfl).bind fun e he hs =>
      emits_adjust p.touched he.quiet hs (-1) (by omega) (by omega)
  have hpeak : max (max peak (height + 2).toNat) (height + 2 + -1).toNat =
      max peak (height + 2).toNat := by omega
  rw [hpeak, Int.add_assoc] at hload
  exact hload

/-- Adding to the number on top of the stack. -/
lemma emits_sum {checked : Bool} (hchecked : c.lexical.checked = checked) {amount : Int32}
    (h : amount ≠ 0) (hpositive : 0 ≤ height) (hbound : height ≤ 8) :
    (do
      Gen.loadInt32 amount
      Gen.adjust 1
      Gen.arithmetic .add false
      Gen.adjust (-1)
      Gen.arithmetic .convU1 false : Lower Unit).Emits p c p
      ((sumCode checked amount).map .instruction) ⟨height, max peak (height + 1).toNat⟩ := by
  have hchain : (sumCode checked amount).IsChain Inert := by
    have hadd := inert_int32Load_add h
    have hconv : Inert { opcode := .add } { opcode := .convU1 } := ⟨rfl, rfl⟩
    cases checked <;> simp +decide [sumCode, inert_plain, hadd, hconv]
  have hcode := (Context.Appends.refl hquiet).enqueuedAll_cons (endsRule_int32Load amount) hchain
  have hheight : c.stack.height = height := by rw [hstack]
  have hup := Gen.adjust_enqueuedAll hheight 1 (by omega) (by omega)
  have hdown := Gen.adjust_back hheight 1 hpositive (by omega)
  refine ⟨((c.enqueuedAll (sumCode checked amount)).adjusted 1).adjusted (-1), ?_,
    (hcode.adjusted 1).adjusted (-1), ?_⟩
  · simp [hup, hdown, hchecked, sumCode, Opcode.overflowChecked]
  · rw [Context.stack_adjusted_back 1 (by decide), Context.stack_enqueuedAll, hstack]

variable (hzero : height = 0)
include hzero

lemma emits_shift (fits : target.Fits c.image) {offset : Int32} (h : offset ≠ 0) :
    (Lower.action target (.shift offset)).Emits p c (p.noted .pointer (.used ||| .modified))
      (((Action.shift offset).code c.lexical.checked).map .instruction) ⟨0, max peak 2⟩ := by
  subst height
  have hload : Inert { opcode := .ldloc_1 } (Gen.int32Load offset) :=
    inert_of_endsRule (endsRule_int32Load offset)
  have hchain : [{ opcode := .ldloc_1 }, Gen.int32Load offset, { opcode := .add },
      ({ opcode := .stloc_1 } : Instruction)].IsChain Inert := by
    simp +decide [inert_plain, hload, inert_int32Load_add h]
  have hcode := (Context.Appends.refl hquiet).enqueuedAll_cons rfl hchain
  have haccess (access : SlotAccess) (d : Context) : Gen.accessSlot access target.pointer d =
      .ok () (d.enqueuedAll [access.instruction 1]) := by
    rw [← fits.pointer]
    rfl
  have hheight : c.stack.height = 0 := by rw [hstack]
  have hup := Gen.adjust_enqueuedAll hheight 2 (by decide) (by decide)
  have hdown := Gen.adjust_back hheight 2 le_rfl (by decide)
  refine ⟨((c.enqueuedAll [{ opcode := .ldloc_1 }, Gen.int32Load offset, { opcode := .add },
    { opcode := .stloc_1 }]).adjusted 2).adjusted (-2), ?_, ?_, ?_⟩
  · simp [Lower.action, h, haccess, hup, hdown, SlotAccess.instruction, SlotAccess.loadLocal,
      SlotAccess.storeLocal]
  · simpa [Action.code, h] using (hcode.adjusted 2).adjusted (-2)
  · rw [Context.stack_adjusted_back 2 (by decide), Context.stack_enqueuedAll, hstack]
    rfl

/-- Storing what a step pushes into the current cell. -/
lemma emits_storeCell (fits : target.Fits c.image) {value : Lower Unit} {q : Progress}
    {lines : List Line} {top : Nat}
    (hvalue : ∀ d, c.Appends d (operandCode.map .instruction) → d.stack = ⟨2, max peak 2⟩ →
      value.Emits p.touched d q lines ⟨3, top⟩) :
    (Lower.storeCell target value).Emits p c q
      (operandCode.map .instruction ++ (lines ++ [.instruction { opcode := .stelemI1 }]))
      ⟨0, top⟩ := by
  subst height
  have heq : Lower.storeCell target value = (do
      Lower.cellOperands target
      value
      Gen.enqueue { opcode := .stelemI1 }
      Gen.adjust (-3)) := rfl
  rw [heq]
  have hstore := (emits_cellOperands p hquiet hstack fits le_rfl (by omega)).bind fun d hd hs =>
    (hvalue d hd hs).bind fun e he hs =>
      (emits_queue q he.quiet hs (i := { opcode := .stelemI1 }) rfl).bind fun f hf hs =>
        emits_adjust q hf.quiet hs (-3) (by omega) (by omega)
  simpa using hstore

lemma emits_add (fits : target.Fits c.image) {amount : Int32} (h : amount ≠ 0) :
    (Lower.action target (.add amount)).Emits p c p.touched.touched
      (((Action.add amount).code c.lexical.checked).map .instruction) ⟨0, max peak 4⟩ := by
  have hstore := emits_storeCell p hquiet hstack hzero fits fun d hd hs =>
    (emits_loadCell p.touched hd.quiet hs (hd.image ▸ fits) (by omega) (by omega)).bind
      fun e he hs => emits_sum p.touched.touched he.quiet hs
        (congrArg Lexical.checked (he.lexical.trans hd.lexical)) h (by omega) (by omega)
  have hcode : ((Action.add amount).code c.lexical.checked).map Line.instruction =
      operandCode.map .instruction ++ (cellCode.map .instruction ++
        (sumCode c.lexical.checked amount).map .instruction ++
        [.instruction { opcode := .stelemI1 }]) := by
    simp [Action.code, h, sumCode]
  have hpeak : max (max (max peak 2) (2 + 2 : Int).toNat) (2 + 1 + 1 : Int).toNat = max peak 4 := by
    omega
  rw [Lower.action, if_neg h, hcode, ← hpeak]
  exact hstore

lemma emits_input (fits : target.Fits c.image) :
    (Lower.action target .input).Emits p c p.touched
      ((Action.input.code c.lexical.checked).map .instruction) ⟨0, max peak 3⟩ := by
  have hvalue (d : Context) (hd : c.Appends d (operandCode.map .instruction))
      (hs : d.stack = ⟨2, max peak 2⟩) :
      (do Gen.call target.read none; Gen.adjust 1; Gen.simple .convU1 : Lower Unit).Emits p.touched
        d p.touched [.instruction ⟨.call, .token readToken⟩, .instruction { opcode := .convU1 }]
        ⟨3, max (max peak 2) 3⟩ := by
    have hcall := (Context.Appends.refl hd.quiet).barrier (.instruction ⟨.call, .token readToken⟩)
    have hconv := (hcall.adjusted 1).enqueuedAll (fun _ _ => Context.accepts_flushed)
      (.singleton ({ opcode := .convU1 } : Instruction))
    have hread := Gen.call_apply (c := d) (by rw [hd.image]; exact fits.read)
    have hadjust := Gen.adjust_apply
      (c := d.flushed.appended [.instruction ⟨.call, .token readToken⟩]) 1
      (by simp [hs]) (by simp [hs])
    refine ⟨_, ?_, hconv, by simp [Context.adjusted, hs]⟩
    simp only [Lower.bind_apply, Lower.lift_apply, hread, hadjust, Gen.simple_apply]
  have hstore := emits_storeCell p hquiet hstack hzero fits hvalue
  have hpeak : max (max peak 2) 3 = max peak 3 := by omega
  rw [← hpeak]
  exact hstore

lemma emits_clear (fits : target.Fits c.image) :
    (Lower.action target .clear).Emits p c p.touched
      ((Action.clear.code c.lexical.checked).map .instruction) ⟨0, max peak 3⟩ := by
  have hstore := emits_storeCell p hquiet hstack hzero fits fun d hd hs =>
    (emits_queue p.touched hd.quiet hs (endsRule_int32Load 0)).bind fun e he hs =>
      emits_adjust p.touched he.quiet hs 1 (by omega) (by omega)
  have hpeak : max (max peak 2) (2 + 1 : Int).toNat = max peak 3 := by omega
  rw [← hpeak]
  exact hstore

lemma emits_output (fits : target.Fits c.image) :
    (Lower.action target .output).Emits p c (Action.output.progress p)
      ((Action.output.code c.lexical.checked).map .instruction) ⟨0, max peak 2⟩ := by
  have hwrite := (emits_loadCell p hquiet hstack fits (by omega) (by omega)).bind fun d hd hs =>
    (emits_line p.touched hd.quiet hs (Gen.call_apply (hd.image ▸ fits.write))).bind fun e he hs =>
      (emits_adjust p.touched he.quiet hs (-1) (by omega) (by omega)).bind fun d hd hs =>
        (emits_modify p.touched hd.quiet hs (·.noted .output .modified)).bind fun d hd hs =>
          emits_modify _ hd.quiet hs Progress.written
  have hpeak : max (max peak (height + 2).toNat) (height + 1 + -1).toNat = max peak 2 := by omega
  have hheight : height + 1 + -1 = 0 := by omega
  rw [hpeak, hheight] at hwrite
  exact hwrite

/-- Lowering a command emits its code. -/
theorem emits_action (fits : target.Fits c.image) (a : Action) :
    (Lower.action target a).Emits p c (a.progress p)
      ((a.code c.lexical.checked).map .instruction) ⟨0, max peak a.peak⟩ := by
  have hnothing : (pure () : Lower Unit).Emits p c p [] ⟨0, max peak 0⟩ :=
    ⟨c, rfl, .refl hquiet, by rw [hstack, hzero, Nat.max_zero]⟩
  cases a with
  | add amount =>
    by_cases h : amount = 0
    · simpa [Lower.action, Action.progress, Action.code, Action.peak, h] using hnothing
    · have hadd := emits_add p hquiet hstack hzero fits h
      rwa [Action.progress, Action.peak, if_neg h, if_neg h]
  | shift offset =>
    by_cases h : offset = 0
    · simpa [Lower.action, Action.progress, Action.code, Action.peak, h] using hnothing
    · have hshift := emits_shift p hquiet hstack hzero fits h
      rwa [Action.progress, Action.peak, if_neg h, if_neg h]
  | output => exact emits_output p hquiet hstack hzero fits
  | input => exact emits_input p hquiet hstack hzero fits
  | clear => exact emits_clear p hquiet hstack hzero fits

end Pieces

/-- The place of a statement in the source. -/
def Target.location (target : Target) (n : Nat) : Location :=
  match target.statements[n]?.bind target.tree.get? with
  | some node => node.location
  | none => default

/-- The warning about a loop without commands. -/
def endlessWarning (target : Target) (n : Nat) : Diagnostic :=
  ⟨.warning, target.location n, "this loop never ends once entered"⟩

namespace Program

/-- The number of commands, nested ones included. -/
def commands : Program → Nat
  | .done => 0
  | .act _ _ rest => 1 + rest.commands
  | .loop _ body rest => 1 + body.commands + rest.commands

/-- What a program leaves noted. -/
def progress : Program → Progress → Progress
  | .done, p => p
  | .act _ action rest, p => rest.progress (action.progress { p with next := p.next + 1 })
  | .loop _ body rest, p =>
    let tested := (body.progress { p with next := p.next + 1 }).touched
    rest.progress { tested with usage := p.usage.meet tested.usage }

/-- The room that a program needs on the stack. -/
def peak : Program → Nat
  | .done => 0
  | .act _ action rest => max action.peak rest.peak
  | .loop _ body rest => max (max body.peak 2) rest.peak

/-- The warnings about the loops of a program whose first statement has number `n`. -/
def warnings (target : Target) : Nat → Program → List Diagnostic
  | _, .done => []
  | n, .act _ _ rest => rest.warnings target (n + 1)
  | n, .loop _ body rest =>
    body.warnings target (n + 1) ++
      (if body.isDone then [endlessWarning target n] else []) ++
      rest.warnings target (n + 1 + body.commands)

/-- The loops of a program in the order in which they open, each by whether its body is empty. -/
def emptyMarks : Program → List Bool
  | .done => []
  | .act _ _ rest => rest.emptyMarks
  | .loop _ body rest => body.isDone :: (body.emptyMarks ++ rest.emptyMarks)

/-- The number of loops that are reported before `room` labels run out. -/
def endlessWithin (room : Nat) (p : Program) : Nat :=
  (p.emptyMarks.take (room / 2)).count true

/-- The room that a program needs on the stack before `room` labels run out. -/
def peakWithin (room : Nat) : Program → Nat
  | .done => 0
  | .act _ action rest => max action.peak (rest.peakWithin room)
  | .loop _ body rest =>
    if room < 2 then 0
    else if room < 2 + 2 * body.loops then body.peakWithin (room - 2)
    else max (max body.peak 2) (rest.peakWithin (room - (2 + 2 * body.loops)))

end Program

@[simp] lemma next_action (a : Action) (p : Progress) : (a.progress p).next = p.next := by
  cases a with
  | add amount => by_cases h : amount = 0 <;> simp [Action.progress, h]
  | shift offset => by_cases h : offset = 0 <;> simp [Action.progress, h]
  | output => simp [Action.progress]
  | input => simp [Action.progress]
  | clear => simp [Action.progress]

@[simp] lemma next_progress (prog : Program) (p : Progress) :
    (prog.progress p).next = p.next + prog.commands := by
  induction prog generalizing p with
  | done => rfl
  | act span a rest ih =>
    simp only [Program.progress, ih, next_action, Program.commands]
    omega
  | loop span body rest ihBody ihRest =>
    simp only [Program.progress, ihRest, ihBody, Progress.next_touched, Program.commands]
    omega

lemma nextStatement_apply {target : Target} {p : Progress} {c : Context}
    (h : p.next < target.statements.size) :
    Lower.nextStatement target p c =
      .ok (target.statements[p.next], { p with next := p.next + 1 }) c := by
  have hfetch : fetch target.statements p.next = .ok target.statements[p.next] := by
    simp [fetch, h]
  simp only [Lower.nextStatement, Lower.bind_apply, Lower.get_apply, Lower.lift_apply, hfetch,
    Gen.orViolate_ok, Lower.modify_apply, Lower.pure_apply]

namespace Lower

/-- A command before the rest of its program. -/
def act (target : Target) (command : Action) (rest : Lower Unit) : Lower Unit := do
  let _ ← nextStatement target
  action target command
  rest

/-- A loop around a body, before the rest of its program. -/
def loop (target : Target) (isDone : Bool) (body rest : Lower Unit) : Lower Unit := do
  let node ← nextStatement target
  let test ← Gen.newLabel
  let top ← Gen.newLabel
  Gen.jump .br test
  Gen.place top
  let skipped := (← get).usage
  body
  Gen.place test
  loadCell target
  Gen.jump .brtrue top
  Gen.adjust (-1)
  modify fun p => { p with usage := skipped.meet p.usage }
  if isDone then
    let location := (← Gen.orViolate (target.tree.get node)).location
    Gen.report .warning location "this loop never ends once entered"
  rest

lemma program_act (target : Target) (span : Span) (a : Action) (rest : Program) :
    program target (.act span a rest) = act target a (program target rest) := rfl

lemma program_loop (target : Target) (span : Span) (body rest : Program) :
    program target (.loop span body rest) =
      loop target body.isDone (program target body) (program target rest) := rfl

end Lower

/-- The labels after the head of a loop: the test is open, the top is placed. -/
lemma marks_opened (labels : Labels) :
    (labels.add.add.place labels.add.next false).marks =
      (labels.marks.push .unplaced).push (.placed false) := by
  apply Array.toList_inj.mp
  simp [Labels.add, Labels.place, Labels.next, Labels.created]

/-- The labels after a loop whose body placed `n` labels. -/
lemma marks_closed (marks : Array Mark) (n : Nat) :
    ((marks.push .unplaced).push (.placed false) ++
        Array.replicate n (Mark.placed false)).setIfInBounds marks.size (.placed false) =
      marks ++ Array.replicate (2 + n) (.placed false) := by
  apply Array.toList_inj.mp
  simp [List.replicate_add]

/-- The context at the top of a loop. -/
def openedLoop (c : Context) : Context :=
  (c.flushed.appended [.instruction ⟨.br, .target c.labels.next⟩,
    .label c.labels.add.next false]).labeled (c.labels.add.add.place c.labels.add.next false)

lemma created_openedLoop (c : Context) :
    (openedLoop c).labels.created = c.labels.created + 2 := by
  have hmarks := marks_opened c.labels
  rw [Labels.created, openedLoop, Context.labels_labeled, hmarks]
  simp [Labels.created]

lemma flushed_openedLoop (c : Context) : (openedLoop c).flushed = openedLoop c := by
  rw [openedLoop, Context.flushed_labeled, Context.flushed_appended_flushed]

section
variable (c : Context) (lines : List Line) (peak labels : Nat) (warnings : List Diagnostic)

lemma labels_openedLoop :
    ((openedLoop c).after lines peak labels warnings).labels =
      ⟨(c.labels.marks.push .unplaced).push (.placed false) ++
        Array.replicate labels (.placed false), c.labels.switch⟩ := by
  rw [← marks_opened]
  rfl

/-- While the body of a loop is lowered, its test stays open. -/
lemma mark?_openedLoop :
    ((openedLoop c).after lines peak labels warnings).labels.mark? c.labels.next =
      some .unplaced := by
  have hmark : ((c.labels.marks.push .unplaced).push (.placed false) ++
      Array.replicate labels (Mark.placed false))[c.labels.marks.size]? = some .unplaced := by
    have hsize : c.labels.marks.size < (c.labels.marks.push .unplaced).size := by simp
    rw [Array.getElem?_append_left (hsize.trans_le (by simp)), Array.getElem?_push_lt hsize,
      Array.getElem_push_eq]
  rw [labels_openedLoop]
  exact hmark

/-- Once the test is placed, all labels of a loop are. -/
lemma labeled_openedLoop :
    ((openedLoop c).after lines peak labels warnings).labeled
        (((openedLoop c).after lines peak labels warnings).labels.place c.labels.next false) =
      c.flushed.after ([.instruction ⟨.br, .target c.labels.next⟩,
        .label c.labels.add.next false] ++ lines) peak (2 + labels) warnings := by
  have hlabels :
      ((openedLoop c).after lines peak labels warnings).labels.place c.labels.next false =
        ⟨c.labels.marks ++ Array.replicate (2 + labels) (.placed false), c.labels.switch⟩ := by
    rw [labels_openedLoop, ← marks_closed]
    rfl
  have hlisting : ((openedLoop c).after lines peak labels warnings).listing =
      c.flushed.listing.append ([.instruction ⟨.br, .target c.labels.next⟩,
        .label c.labels.add.next false] ++ lines) :=
    Listing.append_append ..
  rw [hlabels]
  calc
    _ = { (openedLoop c).after lines peak labels warnings with
          listing := ((openedLoop c).after lines peak labels warnings).listing
          labels := ⟨c.labels.marks ++ Array.replicate (2 + labels) (Mark.placed false),
            c.labels.switch⟩ } := rfl
    _ = _ := by rw [hlisting]; rfl

end

/-- The rest of a loop from its top on. -/
lemma loop_apply {target : Target} {c : Context} {p : Progress}
    (hstatement : p.next < target.statements.size) (hroom : c.labels.created + 1 < Labels.limit)
    (isDone : Bool) (body rest : Lower Unit) :
    Lower.loop target isDone body rest p c =
      (do
        body
        Gen.place ⟨c.labels.next, false⟩
        Lower.loadCell target
        Gen.jump .brtrue ⟨c.labels.add.next, false⟩
        Gen.adjust (-1)
        modify fun q => { q with usage := p.usage.meet q.usage }
        if isDone then
          let location := (← Gen.orViolate (target.tree.get target.statements[p.next])).location
          Gen.report .warning location "this loop never ends once entered"
        rest : Lower Unit) { p with next := p.next + 1 } (openedLoop c) := by
  have htest := Gen.newLabel_apply (c := c) (by omega)
  have htop := Gen.newLabel_apply (c := c.labeled c.labels.add) (by
    simpa [Labels.add, Labels.created] using hroom)
  have hjump := Gen.jump_apply (show Opcode.br.isBranch = true from rfl) c.labels.next
    (c.labeled c.labels.add.add)
  have hplace := Gen.place_apply (c := (c.flushed.appended
    [.instruction ⟨.br, .target c.labels.next⟩]).labeled c.labels.add.add)
    ⟨c.labels.add.next, false⟩ c.labels.add.mark?_next
  simp only [Lower.loop, Lower.bind_apply, nextStatement_apply hstatement, Lower.lift_apply,
    htest, htop, hjump, hplace, Lower.get_apply, Context.labels_labeled, Context.labeled_labeled,
    Context.flushed_labeled, Context.appended_labeled, Context.flushed_appended_flushed,
    Context.appended_appended, List.cons_append, List.nil_append, openedLoop]

/-- A loop without commands is reported. -/
lemma warn_apply {target : Target} {c : Context} (fits : target.Fits c.image) {n : Nat}
    (h : n < target.statements.size) (p : Progress) (isDone : Bool) (rest : Lower Unit) :
    (do
      if isDone then
        let location := (← Gen.orViolate (target.tree.get target.statements[n])).location
        Gen.report .warning location "this loop never ends once entered"
      rest : Lower Unit) p c =
        rest p (c.warned (if isDone then [endlessWarning target n] else [])) := by
  cases isDone with
  | false => rfl
  | true =>
    obtain ⟨node, hnode⟩ := fits.nodes target.statements[n] (Array.getElem_mem h)
    have hlocation : target.location n = node.location := by
      have hget : target.tree.get? target.statements[n] = some node := fetch_eq_ok.mp hnode
      simp [Target.location, h, hget]
    simp only [Lower.bind_apply, Lower.lift_apply, hnode, Gen.orViolate_ok, endlessWarning,
      hlocation, if_true]
    rfl

/-- The end of a loop, from the placing of its test on. -/
lemma closeLoop_apply {target : Target} {c : Context} {p : Progress} (fits : target.Fits c.image)
    (hheight : c.stack.height = 0) {test : LabelId}
    (htest : c.labels.mark? test = some .unplaced) (top : LabelId) {n : Nat}
    (hn : n < target.statements.size) (isDone : Bool) (f : Progress → Progress) :
    ∃ d, (∀ rest : Lower Unit, (do
        Gen.place ⟨test, false⟩
        Lower.loadCell target
        Gen.jump .brtrue ⟨top, false⟩
        Gen.adjust (-1)
        modify f
        if isDone then
          let location := (← Gen.orViolate (target.tree.get target.statements[n])).location
          Gen.report .warning location "this loop never ends once entered"
        rest : Lower Unit) p c = rest (f p.touched) d) ∧ d.queue.Quiet ∧
      d.flushed = (c.flushed.labeled (c.labels.place test false)).after
        (.label test false :: (cellCode.map .instruction ++ [.instruction ⟨.brtrue, .target top⟩]))
        2 0 (if isDone then [endlessWarning target n] else []) := by
  obtain ⟨e, he⟩ : ∃ e, e = (c.flushed.appended [.label test false]).labeled
    (c.labels.place test false) := ⟨_, rfl⟩
  have hplace : (Gen.place ⟨test, false⟩ : Lower Unit) p c = .ok ((), p) e := by
    rw [Lower.lift_apply, Gen.place_apply ⟨test, false⟩ htest, he]
  have hfits : target.Fits e.image := he ▸ (show target.Fits c.image from fits)
  have hstack : e.stack = ⟨0, c.stack.peak⟩ := by
    rw [he, ← hheight]
    rfl
  have hflushed : e.flushed = e := by
    rw [he, Context.flushed_labeled, Context.flushed_appended_flushed]
  have hquiet : e.queue.Quiet := hflushed ▸ Context.quiet_flushed
  obtain ⟨d₁, h₁, happends₁, hstack₁⟩ :=
    emits_loadCell p hquiet hstack hfits (by omega) (by omega)
  obtain ⟨d₂, h₂, happends₂, hstack₂⟩ := emits_line p.touched happends₁.quiet hstack₁
    (Gen.jump_apply (show Opcode.brtrue.isBranch = true from rfl) top d₁)
  obtain ⟨d₃, h₃, happends₃, hstack₃⟩ :=
    emits_adjust p.touched happends₂.quiet hstack₂ (-1) (by omega) (by omega)
  have happends := (happends₁.trans happends₂).trans happends₃
  have hpeak : d₃.stack.peak = max e.stack.peak 2 := by
    simp only [hstack₃, hstack]
    omega
  have hafter := happends.after (by rw [hstack₃, hstack]; rfl) hpeak
  rw [hflushed, he, List.append_nil] at hafter
  refine ⟨d₃.warned (if isDone then [endlessWarning target n] else []), ?_, happends.quiet, ?_⟩
  · intro rest
    have hwarn := warn_apply (happends.image ▸ hfits) hn (f p.touched) isDone rest
    refine Eq.trans ?_ hwarn
    simp only [Lower.bind_apply, hplace, h₁, h₂, h₃, Lower.modify_apply]
  · have hwarned : (d₃.warned (if isDone then [endlessWarning target n] else [])).flushed =
        d₃.flushed.warned (if isDone then [endlessWarning target n] else []) := rfl
    have hlabeled : (c.flushed.appended [.label test false]).labeled (c.labels.place test false) =
      (c.flushed.labeled (c.labels.place test false)).appended [.label test false] := rfl
    rw [hwarned, hafter, Context.warned_after, hlabeled, Context.after_appended]
    rfl

/-- What a loop around a body leaves noted. -/
def Progress.afterLoop (p : Progress) (body : Program) : Progress :=
  let tested := (body.progress { p with next := p.next + 1 }).touched
  { tested with usage := p.usage.meet tested.usage }

@[simp] lemma next_afterLoop (p : Progress) (body : Program) :
    (p.afterLoop body).next = p.next + 1 + body.commands := by
  simp only [Progress.afterLoop, Progress.next_touched, next_progress]

/-- The code of a loop alone. -/
def loopCode (checked : Bool) (n : Nat) (body : Program) : List Line :=
  .instruction ⟨.br, .target ⟨n + 1⟩⟩ :: .label ⟨n + 2⟩ false ::
    (body.code checked (n + 2) ++ .label ⟨n + 1⟩ false ::
      (cellCode.map .instruction ++ [.instruction ⟨.brtrue, .target ⟨n + 2⟩⟩]))

section
variable {target : Target} {c : Context} {p : Progress} (fits : target.Fits c.image)
  (hheight : c.stack.height = 0) (hnext : p.next < target.statements.size)
include fits hheight hnext

/-- A command goes before the rest of its program. -/
lemma act_apply (hquiet : c.queue.Quiet) (a : Action) :
    ∃ d, (∀ rest, Lower.act target a rest p c =
        rest (a.progress { p with next := p.next + 1 }) d) ∧ d.queue.Quiet ∧
      d.flushed = c.flushed.after ((a.code c.lexical.checked).map .instruction) a.peak 0 [] := by
  have hstack : c.stack = ⟨c.stack.height, c.stack.peak⟩ := rfl
  obtain ⟨d, hd, happends, hstack'⟩ :=
    emits_action { p with next := p.next + 1 } hquiet hstack hheight fits a
  refine ⟨d, ?_, happends.quiet, ?_⟩
  · intro rest
    simp only [Lower.act, Lower.bind_apply, nextStatement_apply hnext, hd]
  · exact happends.after (by rw [hstack', hheight]) (congrArg StackUse.peak hstack')

/-- A loop goes before the rest of its program, once its body goes through. -/
lemma loop_rest (hroom : c.labels.created + 1 < Labels.limit) {body : Program}
    {lowered : Lower Unit} {d : Context}
    (hbody : lowered { p with next := p.next + 1 } (openedLoop c) =
      .ok ((), body.progress { p with next := p.next + 1 }) d)
    (hflushed : d.flushed = (openedLoop c).after
      (body.code c.lexical.checked (c.labels.created + 2)) body.peak (2 * body.loops)
      (body.warnings target (p.next + 1))) :
    ∃ e, (∀ rest, Lower.loop target body.isDone lowered rest p c = rest (p.afterLoop body) e) ∧
        e.queue.Quiet ∧
      e.flushed = c.flushed.after (loopCode c.lexical.checked c.labels.created body)
        (max body.peak 2) (2 + 2 * body.loops)
        (body.warnings target (p.next + 1) ++
          if body.isDone then [endlessWarning target p.next] else []) := by
  have himage : d.image = c.image := (Context.image_of_flushed hflushed).trans rfl
  have hheight' : d.stack.height = 0 := by
    rw [Context.stack_of_flushed hflushed]
    exact hheight
  have hlabels := Context.labels_of_flushed hflushed
  have htest : d.labels.mark? c.labels.next = some .unplaced := by
    rw [hlabels]
    exact mark?_openedLoop ..
  obtain ⟨e, he, hquiet, hclosed⟩ := closeLoop_apply (himage ▸ fits) hheight' htest
    c.labels.add.next hnext body.isDone fun q => { q with usage := p.usage.meet q.usage }
  have htop : c.labels.add.next = ⟨c.labels.created + 2⟩ := by
    simp [Labels.next, Labels.add, Labels.created]
  refine ⟨e, ?_, hquiet, ?_⟩
  · intro rest
    rw [loop_apply hnext hroom, Lower.bind_apply, hbody]
    exact he rest
  · rw [hclosed, hlabels, hflushed, labeled_openedLoop, Context.after_after, htop]
    simp [loopCode, Labels.next]

end

/-- Lowering a program emits its code, where there are labels enough. -/
theorem program_apply {target : Target} (prog : Program) {c : Context} {p : Progress}
    (fits : target.Fits c.image) (hquiet : c.queue.Quiet) (hheight : c.stack.height = 0)
    (hnodes : p.next + prog.commands ≤ target.statements.size)
    (hroom : c.labels.created + 2 * prog.loops ≤ Labels.limit) :
    ∃ d, Lower.program target prog p c = .ok ((), prog.progress p) d ∧ d.queue.Quiet ∧
      d.flushed = c.flushed.after (prog.code c.lexical.checked c.labels.created) prog.peak
        (2 * prog.loops) (prog.warnings target p.next) := by
  induction prog generalizing c p with
  | done => exact ⟨c, rfl, hquiet, Context.after_nil.symm⟩
  | act span a rest ih =>
    rw [Program.commands] at hnodes
    obtain ⟨d, hd, hquiet₁, hflushed₁⟩ :=
      act_apply (p := p) fits hheight (by omega) hquiet a
    have hcreated := Context.created_of_after hflushed₁
    obtain ⟨e, he, hquiet₂, hflushed₂⟩ := ih (p := a.progress { p with next := p.next + 1 })
      (Context.image_of_after hflushed₁ ▸ fits) hquiet₁
      ((Context.height_of_after hflushed₁).trans hheight) (by rw [next_action]; dsimp only; omega)
      (by rw [hcreated]; exact hroom)
    refine ⟨e, (hd _).trans he, hquiet₂, ?_⟩
    rw [hflushed₂, Context.lexical_of_after hflushed₁, hcreated, hflushed₁, Context.after_after,
      next_action, Nat.zero_add, Nat.add_zero, List.nil_append]
    rfl
  | loop span body rest ihBody ihRest =>
    rw [Program.commands] at hnodes
    rw [Program.loops] at hroom
    obtain ⟨d, hd, -, hflushed₁⟩ := ihBody (c := openedLoop c)
      (p := { p with next := p.next + 1 }) fits Context.quiet_flushed hheight (by dsimp only; omega)
      (by rw [created_openedLoop]; omega)
    rw [flushed_openedLoop, created_openedLoop] at hflushed₁
    obtain ⟨e, he, hquiet₂, hflushed₂⟩ :=
      loop_rest fits hheight (by omega) (by omega) hd hflushed₁
    have hcreated := Context.created_of_after hflushed₂
    obtain ⟨f, hf, hquiet₃, hflushed₃⟩ := ihRest (p := p.afterLoop body)
      (Context.image_of_after hflushed₂ ▸ fits) hquiet₂
      ((Context.height_of_after hflushed₂).trans hheight) (by rw [next_afterLoop]; omega)
      (by rw [hcreated]; omega)
    refine ⟨f, (he _).trans hf, hquiet₃, ?_⟩
    have hloops : 2 * (Program.loop span body rest).loops =
        2 + 2 * body.loops + 2 * rest.loops := by
      rw [Program.loops]
      omega
    rw [hflushed₃, Context.lexical_of_after hflushed₂, hcreated, hflushed₂, Context.after_after,
      next_afterLoop, hloops]
    simp [loopCode, Program.code, Program.peak, Program.warnings, Nat.add_assoc]

/-- A loop takes two labels. -/
lemma loop_exhausted {target : Target} {c : Context} {p : Progress}
    (hnext : p.next < target.statements.size) (hroom : ¬c.labels.created + 1 < Labels.limit) :
    ∃ d, (∀ isDone body rest, Lower.loop target isDone body rest p c =
      .error (.failure .labelsExhausted) d) ∧ c.Stops d 0 [] := by
  by_cases htest : c.labels.created < Labels.limit
  · refine ⟨c.labeled c.labels.add, fun isDone body rest => ?_, rfl, (Nat.max_zero _).symm, rfl⟩
    have htop := Gen.newLabel_exhausted (c := c.labeled c.labels.add) (by
      simpa [Labels.add, Labels.created] using hroom)
    simp only [Lower.loop, Lower.bind_apply, nextStatement_apply hnext, Lower.lift_apply,
      Gen.newLabel_apply htest, htop]
  · refine ⟨c, fun isDone body rest => ?_, rfl, (Nat.max_zero _).symm, rfl⟩
    simp only [Lower.loop, Lower.bind_apply, nextStatement_apply hnext, Lower.lift_apply,
      Gen.newLabel_exhausted htest]

namespace Program

lemma length_emptyMarks (p : Program) : p.emptyMarks.length = p.loops := by
  induction p with
  | done => rfl
  | act span a rest ih => exact ih
  | loop span body rest ihBody ihRest =>
    simp only [emptyMarks, loops, List.length_cons, List.length_append, ihBody, ihRest]
    omega

lemma emptyMarks_loop (span : Span) (body rest : Program) :
    (loop span body rest).emptyMarks = [body.isDone] ++ body.emptyMarks ++ rest.emptyMarks := rfl

lemma length_endless (target : Target) (n : Nat) (isDone : Bool) :
    (if isDone then [endlessWarning target n] else []).length = [isDone].count true := by
  cases isDone <;> rfl

/-- Each loop without commands is reported once. -/
lemma length_warnings (target : Target) (n : Nat) (p : Program) :
    (p.warnings target n).length = p.emptyMarks.count true := by
  induction p generalizing n with
  | done => rfl
  | act span a rest ih => exact ih (n + 1)
  | loop span body rest ihBody ihRest =>
    rw [warnings, emptyMarks_loop, List.count_append, List.count_append, List.length_append,
      List.length_append, length_endless, ihBody, ihRest, Nat.add_comm ([body.isDone].count true)]

section
variable (target : Target) (n : Nat) {room : Nat} {body : Program} (span : Span) (rest : Program)

/-- Without labels for a loop, nothing more is reported. -/
lemma take_warnings_of_lt (hroom : room < 2) :
    ((loop span body rest).warnings target n).take ((loop span body rest).endlessWithin room) =
      [] := by
  have hnone : room / 2 = 0 := by omega
  simp [endlessWithin, hnone]

/-- Where the labels run out inside a loop, only its body is reported on. -/
lemma take_warnings_body (hroom : 2 ≤ room) (hbody : room < 2 + 2 * body.loops) :
    ((loop span body rest).warnings target n).take ((loop span body rest).endlessWithin room) =
      (body.warnings target (n + 1)).take (body.endlessWithin (room - 2)) := by
  have hhalf : room / 2 = (room - 2) / 2 + 1 := by omega
  have hle : (room - 2) / 2 ≤ body.emptyMarks.length := by
    rw [length_emptyMarks]
    omega
  have hdone : body.isDone = false := by
    cases body with
    | done => simp only [loops] at hbody; omega
    | act | loop => rfl
  have hcount : (loop span body rest).endlessWithin room = body.endlessWithin (room - 2) := by
    simp [endlessWithin, emptyMarks, hhalf, hdone, List.take_append_of_le_length hle]
  have hfew : body.endlessWithin (room - 2) ≤ (body.warnings target (n + 1)).length := by
    rw [length_warnings]
    exact (List.take_sublist _ _).count_le true
  rw [hcount, warnings, List.append_assoc, List.take_append_of_le_length hfew]

/-- Where the labels last for a loop, it is reported on before the rest. -/
lemma take_warnings_rest (hroom : 2 + 2 * body.loops ≤ room) :
    ((loop span body rest).warnings target n).take ((loop span body rest).endlessWithin room) =
      body.warnings target (n + 1) ++ (if body.isDone then [endlessWarning target n] else []) ++
        (rest.warnings target (n + 1 + body.commands)).take
          (rest.endlessWithin (room - (2 + 2 * body.loops))) := by
  have hhalf : room / 2 =
      ([body.isDone] ++ body.emptyMarks).length + (room - (2 + 2 * body.loops)) / 2 := by
    rw [List.length_append, List.length_singleton, length_emptyMarks]
    omega
  have hcount : (loop span body rest).endlessWithin room =
      (body.warnings target (n + 1) ++
        if body.isDone then [endlessWarning target n] else []).length +
        rest.endlessWithin (room - (2 + 2 * body.loops)) := by
    rw [endlessWithin, emptyMarks_loop, hhalf, List.take_length_add_append, List.count_append,
      List.count_append, List.length_append, length_warnings, length_endless, endlessWithin,
      Nat.add_comm ([body.isDone].count true)]
  rw [hcount, warnings, List.take_length_add_append]

end

end Program

/-- Lowering a program stops where it runs out of labels. -/
theorem program_exhausted {target : Target} (prog : Program) {c : Context} {p : Progress}
    (fits : target.Fits c.image) (hquiet : c.queue.Quiet) (hheight : c.stack.height = 0)
    (hnodes : p.next + prog.commands ≤ target.statements.size)
    (hcreated : c.labels.created ≤ Labels.limit)
    (hroom : Labels.limit < c.labels.created + 2 * prog.loops) :
    ∃ d, Lower.program target prog p c = .error (.failure .labelsExhausted) d ∧
      c.Stops d (prog.peakWithin (Labels.limit - c.labels.created))
        ((prog.warnings target p.next).take
          (prog.endlessWithin (Labels.limit - c.labels.created))) := by
  induction prog generalizing c p with
  | done =>
    rw [Program.loops] at hroom
    omega
  | act span a rest ih =>
    rw [Program.commands] at hnodes
    obtain ⟨d, hd, hquiet₁, hflushed₁⟩ :=
      act_apply (p := p) fits hheight (by omega) hquiet a
    have hcreated₁ := Context.created_of_after hflushed₁
    obtain ⟨e, he, hstops⟩ := ih (p := a.progress { p with next := p.next + 1 })
      (Context.image_of_after hflushed₁ ▸ fits) hquiet₁
      ((Context.height_of_after hflushed₁).trans hheight) (by rw [next_action]; dsimp only; omega)
      (by rw [hcreated₁]; exact hcreated) (by rw [hcreated₁]; exact hroom)
    rw [hcreated₁, next_action] at hstops
    exact ⟨e, (hd _).trans he, hstops.after hflushed₁⟩
  | loop span body rest ihBody ihRest =>
    rw [Program.commands] at hnodes
    rw [Program.loops] at hroom
    by_cases hhead : c.labels.created + 1 < Labels.limit
    · by_cases hfit : c.labels.created + 2 + 2 * body.loops ≤ Labels.limit
      · obtain ⟨d, hd, -, hflushed₁⟩ := program_apply body (c := openedLoop c)
          (p := { p with next := p.next + 1 }) fits Context.quiet_flushed hheight
          (by dsimp only; omega) (by rw [created_openedLoop]; omega)
        rw [flushed_openedLoop, created_openedLoop] at hflushed₁
        obtain ⟨e, he, hquiet₂, hflushed₂⟩ :=
          loop_rest fits hheight (by omega) hhead hd hflushed₁
        have hcreated₂ := Context.created_of_after hflushed₂
        obtain ⟨f, hf, hstops⟩ := ihRest (p := p.afterLoop body)
          (Context.image_of_after hflushed₂ ▸ fits) hquiet₂
          ((Context.height_of_after hflushed₂).trans hheight) (by rw [next_afterLoop]; omega)
          (by rw [hcreated₂]; omega) (by rw [hcreated₂]; omega)
        rw [hcreated₂, next_afterLoop, ← Nat.sub_sub] at hstops
        refine ⟨f, (he _).trans hf, ?_⟩
        rw [Program.peakWithin, if_neg (by omega), if_neg (by omega),
          Program.take_warnings_rest target p.next span rest (by omega)]
        exact hstops.after hflushed₂
      · obtain ⟨d, hd, hstops⟩ := ihBody (c := openedLoop c)
          (p := { p with next := p.next + 1 }) fits Context.quiet_flushed hheight
          (by dsimp only; omega) (by rw [created_openedLoop]; omega)
          (by rw [created_openedLoop]; omega)
        rw [created_openedLoop, ← Nat.sub_sub] at hstops
        refine ⟨d, ?_, ?_⟩
        · rw [Lower.program_loop, loop_apply (by omega) hhead, Lower.bind_apply, hd]
        · rw [Program.peakWithin, if_neg (by omega), if_pos (by omega),
            Program.take_warnings_body target p.next span rest (by omega) (by omega)]
          exact ⟨hstops.reporter, hstops.peak, hstops.removals⟩
    · have hnext : p.next < target.statements.size := by omega
      obtain ⟨d, hd, hstops⟩ := loop_exhausted hnext hhead
      refine ⟨d, hd .., ?_⟩
      rw [Program.peakWithin, if_pos (by omega),
        Program.take_warnings_of_lt target p.next span rest (by omega)]
      exact hstops

end CilAssembly.Brainfuck

import CilAssembly.Proofs.Brainfuck.EmptyLoops
import CilAssembly.Proofs.Brainfuck.Statements
import CilAssembly.Proofs.Dataflow.Tables
import CilAssembly.Proofs.Source.Lines
import Mathlib.Data.Nat.Bitwise

/-!
The warnings about a program. Each loop without commands is reported on the line of its opening
bracket. What is known about the output after the last command tells whether some output command
stands outside of every loop.
-/
namespace CilAssembly

namespace Reporter

/-- Everything reported so far, whoever took it. -/
def diagnostics (reporter : Reporter) : List Diagnostic :=
  reporter.log.toList.map (·.diagnostic)

lemma diagnostics_foldl_report (reporter : Reporter) (reported : List Diagnostic) :
    (reported.foldl report reporter).diagnostics = reporter.diagnostics ++ reported := by
  induction reported generalizing reporter with
  | nil => simp
  | cons d rest ih =>
    rw [List.foldl_cons, ih]
    simp [diagnostics, report]

end Reporter

lemma Status.and_modified_eq_zero {status : Status} :
    status &&& modified = 0 ↔ status.toNat.testBit 2 = false := by
  rw [← UInt8.toNat_inj, UInt8.toNat_and, show modified.toNat = 2 ^ 2 from rfl, Nat.and_two_pow]
  cases status.toNat.testBit 2 <;> simp

namespace Brainfuck

namespace Progress
variable (p : Progress)

/-- Something was written on every path to this point. -/
def wrote : Bool :=
  (p.usage.get Tracked.output.slot).toNat.testBit 2

lemma wrote_noted {what : Tracked} (h : what ≠ .output) (status : Status) :
    (p.noted what status).wrote = p.wrote := by
  have hslot : Tracked.output.slot ≠ what.slot := by
    cases what with
    | tape | pointer => decide
    | output => exact absurd rfl h
  rw [wrote, noted, UsageTable.get_set, if_neg hslot, wrote]

lemma wrote_noted_output : (p.noted .output .modified).wrote = true := by
  rw [wrote, noted, UsageTable.get_set, if_pos rfl, UInt8.toNat_or, Nat.testBit_or]
  exact Bool.or_true _

@[simp] lemma wrote_touched : p.touched.wrote = p.wrote := by
  rw [touched, wrote_noted _ (by decide), wrote_noted _ (by decide)]

@[simp] lemma writes_noted (what : Tracked) (status : Status) :
    (p.noted what status).writes = p.writes := rfl

@[simp] lemma writes_touched : p.touched.writes = p.writes := by
  simp only [touched, writes_noted]

@[simp] lemma wrote_written : p.written.wrote = p.wrote := rfl

end Progress

namespace Program

/-- The number of output commands, nested ones included. -/
def outputs : Program → Nat
  | .done => 0
  | .act _ action rest => (if action = .output then 1 else 0) + rest.outputs
  | .loop _ body rest => body.outputs + rest.outputs

/-- The number of output commands outside of every loop. -/
def outerOutputs : Program → Nat
  | .done => 0
  | .act _ action rest => (if action = .output then 1 else 0) + rest.outerOutputs
  | .loop _ _ rest => rest.outerOutputs

lemma outerOutputs_le (p : Program) : p.outerOutputs ≤ p.outputs := by
  induction p with
  | done => exact le_rfl
  | act span a rest ih => exact Nat.add_le_add_left ih _
  | loop span body rest _ ih => exact ih.trans (Nat.le_add_left ..)

end Program

/-- A command counts what it writes. -/
lemma writes_action (a : Action) (p : Progress) :
    (a.progress p).writes = p.writes + if a = .output then 1 else 0 := by
  cases a with
  | add amount => by_cases h : amount = 0 <;> simp [Action.progress, h]
  | shift offset => by_cases h : offset = 0 <;> simp [Action.progress, h]
  | output => simp [Action.progress, Progress.written]
  | input | clear => simp [Action.progress]

lemma wrote_action (a : Action) (p : Progress) :
    (a.progress p).wrote = (p.wrote || decide (a = .output)) := by
  cases a with
  | add amount => by_cases h : amount = 0 <;> simp [Action.progress, h]
  | shift offset => by_cases h : offset = 0 <;> simp [Action.progress, h, Progress.wrote_noted]
  | output =>
    rw [Action.progress, Progress.wrote_written, Progress.wrote_noted_output, decide_eq_true rfl,
      Bool.or_true]
  | input | clear => simp [Action.progress]

lemma writes_progress (prog : Program) (p : Progress) :
    (prog.progress p).writes = p.writes + prog.outputs := by
  induction prog generalizing p with
  | done => rfl
  | act span a rest ih => rw [Program.progress, ih, writes_action, Program.outputs, Nat.add_assoc]
  | loop span body rest ihBody ihRest =>
    simp only [Program.progress, ihRest, Progress.writes_touched, ihBody, Program.outputs,
      Nat.add_assoc]

/-- What was sure before a loop is sure after it, and nothing else is: the body may never run. -/
lemma wrote_afterLoop {p : Progress} {body : Program} {sure : Bool}
    (h : (body.progress { p with next := p.next + 1 }).wrote = (p.wrote || sure)) :
    (p.afterLoop body).wrote = p.wrote := by
  have hmeet : (p.afterLoop body).wrote =
      (p.wrote && (body.progress { p with next := p.next + 1 }).touched.wrote) := by
    rw [Progress.wrote, Progress.afterLoop, UsageTable.get_meet, UInt8.toNat_and, Nat.testBit_and]
    rfl
  rw [hmeet, Progress.wrote_touched, h]
  cases p.wrote <;> rfl

lemma wrote_progress (prog : Program) (p : Progress) :
    (prog.progress p).wrote = (p.wrote || decide (0 < prog.outerOutputs)) := by
  induction prog generalizing p with
  | done => exact (Bool.or_false _).symm
  | act span a rest ih =>
    have hstep : ({ p with next := p.next + 1 } : Progress).wrote = p.wrote := rfl
    rw [Program.progress, ih, wrote_action, Program.outerOutputs, hstep, Bool.or_assoc]
    by_cases h : a = .output
    · have hpositive : 0 < 1 + rest.outerOutputs := by omega
      simp [h, hpositive]
    · simp [h]
  | loop span body rest ihBody ihRest =>
    exact (ihRest _).trans (congrArg (· || _) (wrote_afterLoop (ihBody _)))

/-- The warning about output says where the output commands stand. -/
lemma outputWarning?_finalProgress (p : Program) :
    outputWarning? (finalProgress p) =
      if p.outputs = 0 then some "the program never writes any output"
      else if p.outerOutputs = 0 then some "output is only written inside loops that may never run"
      else none := by
  have hstart : (startProgress.noted .tape .modified).wrote = false := by
    rw [Progress.wrote_noted _ (by decide), Progress.wrote, startProgress, UsageTable.get_set,
      if_neg (by decide), UsageTable.get_set, if_neg (by decide), UsageTable.get_empty]
    rfl
  have hwrites : (finalProgress p).writes = p.outputs :=
    (writes_progress p _).trans (Nat.zero_add _)
  have hwrote : (finalProgress p).wrote = decide (0 < p.outerOutputs) := by
    rw [finalProgress, wrote_progress, hstart, Bool.false_or]
  have hsure : (finalProgress p).usage.get Tracked.output.slot &&& Status.modified = 0 ↔
      p.outerOutputs = 0 := by
    rw [Status.and_modified_eq_zero, ← Progress.wrote, hwrote, decide_eq_false_iff_not, Nat.not_lt,
      Nat.le_zero]
  simp only [outputWarning?, hwrites, hsure]

/-- A target places statements, the first of which has number `n`, where they stand. -/
def Target.Locates (target : Target) (locate : Span → Location) (n : Nat)
    (statements : List (Spanned String)) : Prop :=
  ∀ k s, statements[k]? = some s → target.location (n + k) = locate s.span

namespace Target.Locates
variable {target : Target} {locate : Span → Location} {n : Nat} {s : Spanned String}
  {statements more : List (Spanned String)}

lemma head (h : target.Locates locate n (s :: statements)) : target.location n = locate s.span :=
  h 0 s rfl

lemma tail (h : target.Locates locate n (s :: statements)) :
    target.Locates locate (n + 1) statements := by
  intro k s' hs
  rw [Nat.add_assoc, Nat.add_comm 1]
  exact h (k + 1) s' hs

lemma left (h : target.Locates locate n (statements ++ more)) :
    target.Locates locate n statements := by
  intro k s hs
  refine h k s ?_
  rw [List.getElem?_append_left (List.getElem?_eq_some_iff.mp hs).1, hs]

lemma right (h : target.Locates locate n (statements ++ more)) :
    target.Locates locate (n + statements.length) more := by
  intro k s hs
  rw [Nat.add_assoc]
  refine h _ s ?_
  rw [List.getElem?_append_right (Nat.le_add_right ..), Nat.add_sub_cancel_left, hs]

end Target.Locates

/-- The warnings are about the loops without commands, in order. -/
lemma warnings_eq {target : Target} {locate : Span → Location} {n : Nat} {p : Program}
    (h : target.Locates locate n p.statements) :
    p.warnings target n = p.emptyLoops.map fun span =>
      ⟨.warning, locate span, "this loop never ends once entered"⟩ := by
  induction p generalizing n with
  | done => rfl
  | act span a rest ih =>
    rw [Program.statements_act] at h
    exact ih h.tail
  | loop span body rest ihBody ihRest =>
    rw [Program.statements_loop] at h
    have hrest := h.tail.right
    rw [length_statements] at hrest
    rw [Program.warnings, ihRest hrest, Program.emptyLoops, List.map_append, ihBody h.tail.left]
    -- a loop without commands has no warnings inside, and only such a loop has one of its own
    cases body with
    | done => simp [Program.isDone, Program.emptyLoops, endlessWarning, h.head]
    | act | loop => simp [Program.isDone]

lemma locates_ofProgram (file text : String) (p : Program) :
    (mainTarget (Outline.ofProgram file text p)).Locates ((LineIndex.ofText text).locate file) 0
      p.statements := by
  intro k s hs
  have hlt : k < p.commands := length_statements p ▸ (List.getElem?_eq_some_iff.mp hs).1
  have hid : (Outline.ofProgram file text p).statements[k]? = some ⟨k⟩ := by
    rw [← Array.getElem?_toList, statements_ofProgram, List.getElem?_map, List.getElem?_range hlt]
    rfl
  rw [Nat.zero_add, Target.location, mainTarget, hid, Option.bind_some,
    get?_index_ofProgram file text p hs]
  rfl

/-- The warning about a loop without commands whose opening bracket stands after `before`. -/
def endlessAfter (file : String) (before : List Char) : Diagnostic :=
  ⟨.warning, ⟨file, 1 + before.count '\n'⟩, "this loop never ends once entered"⟩

/-- Each loop without commands is reported on the line of its opening bracket. -/
lemma warnings_ofText {text : String} {p : Program} (h : Program.ofText text = .ok p)
    (file : String) :
    p.warnings (mainTarget (Outline.ofProgram file text p)) 0 =
      (emptyBrackets [] text.toList).map (endlessAfter file) := by
  let reported (start : Nat) : Diagnostic :=
    ⟨.warning, ⟨file, (LineIndex.ofText text).lineOf start⟩, "this loop never ends once entered"⟩
  calc
    _ = (p.emptyLoops.map (·.start)).map reported := by
      rw [warnings_eq (locates_ofProgram file text p), List.map_map]
      rfl
    _ = (emptyBrackets [] text.toList).map fun before => reported (byteLength before) := by
      rw [emptyLoops_ofText h, List.map_map]
      rfl
    _ = _ := by
      refine List.map_congr_left fun before hbefore => ?_
      obtain ⟨-, comments, after, hsplit, -⟩ := mem_emptyBrackets.mp hbefore
      simp only [reported, endlessAfter, byteLength, LineIndex.lineOf_byteSize hsplit]

/-- The last warning, if there is one, tells where the output commands stand. -/
lemma outputWarning_iff {p : Program} {file : String} {further : List Diagnostic}
    (h : further = (outputWarning? (finalProgress p)).toList.map (⟨.warning, ⟨file, 1⟩, ·⟩)) :
    (further = [⟨.warning, ⟨file, 1⟩, "the program never writes any output"⟩] ↔ p.outputs = 0) ∧
    (further =
        [⟨.warning, ⟨file, 1⟩, "output is only written inside loops that may never run"⟩] ↔
      0 < p.outputs ∧ p.outerOutputs = 0) ∧
    (further = [] ↔ 0 < p.outerOutputs) := by
  have houter := p.outerOutputs_le
  rw [h, outputWarning?_finalProgress]
  split
  case isTrue hnone =>
    have hinside : p.outerOutputs = 0 := by omega
    simp [hnone, hinside]
  case isFalse hsome =>
    split
    case isTrue hinside => simp [hsome, hinside, Nat.pos_of_ne_zero hsome]
    case isFalse hsure => simp [hsome, hsure, Nat.pos_of_ne_zero hsure]

/-- A compilation reports what its program deserves. There is one warning for each loop without
commands, in the order of the text and on the line of the opening bracket. If no output command
stands outside of every loop, a last warning on the first line tells whether there is one at all. A
program with more loops than there are labels for gets the first of these warnings only. -/
theorem compile_warns_deserved (options : Options) (file : String) {text : String} {p : Program}
    (h : Program.ofText text = .ok p) :
    ∃ brackets : List (List Char),
      (∀ before, before ∈ brackets ↔ OpensEmpty text.toList before) ∧
      brackets.Pairwise (fun before later => byteLength before < byteLength later) ∧
      brackets.map byteLength = p.emptyLoops.map (·.start) ∧
      if 2 * p.loops ≤ Labels.limit then
        ∃ tree c further, compile file text p (.create options) = .ok tree c ∧
          c.reporter.diagnostics = brackets.map (endlessAfter file) ++ further ∧
          (further = [⟨.warning, ⟨file, 1⟩, "the program never writes any output"⟩] ↔
            p.outputs = 0) ∧
          (further =
              [⟨.warning, ⟨file, 1⟩, "output is only written inside loops that may never run"⟩] ↔
            0 < p.outputs ∧ p.outerOutputs = 0) ∧
          (further = [] ↔ 0 < p.outerOutputs)
      else
        ∃ c, compile file text p (.create options) = .error (.failure .labelsExhausted) c ∧
          c.reporter.diagnostics =
            (brackets.map (endlessAfter file)).take (p.endlessWithin Labels.limit) := by
  refine ⟨emptyBrackets [] text.toList, ?_, pairwise_emptyBrackets .., (emptyLoops_ofText h).symm,
    ?_⟩
  · intro before
    simp [mem_emptyBrackets]
  rw [← warnings_ofText h]
  split
  case isTrue hroom =>
    refine ⟨_, _, _, compile_apply options file text p hroom, ?_, outputWarning_iff rfl⟩
    exact Reporter.diagnostics_foldl_report ..
  case isFalse hroom =>
    obtain ⟨c, hc, hreporter⟩ := compile_stops options file text p (by omega)
    refine ⟨c, hc, ?_⟩
    rw [hreporter]
    exact Reporter.diagnostics_foldl_report ..

/-- Two empty loops, one of them inside a loop with the only output command. -/
def barelyWriting : Program :=
  .act ⟨0, 1⟩ .input (.loop ⟨1, 9⟩ (.act ⟨2, 3⟩ .output (.loop ⟨3, 7⟩ .done .done))
    (.loop ⟨10, 13⟩ .done .done))

theorem compile_warns_deserved_nested :
    Program.ofText ",[.[é]\n]\n[ ]" = .ok barelyWriting ∧
      ∃ tree c, compile "loops.bf" ",[.[é]\n]\n[ ]" barelyWriting (.create {}) = .ok tree c ∧
        c.reporter.diagnostics.map (·.message) =
          ["this loop never ends once entered", "this loop never ends once entered",
            "output is only written inside loops that may never run"] ∧
        ⟨.warning, ⟨"loops.bf", 3⟩, "this loop never ends once entered"⟩ ∈
          c.reporter.diagnostics := by
  have hparsed : Program.ofText ",[.[é]\n]\n[ ]" = .ok barelyWriting := by decide +kernel
  obtain ⟨brackets, hmem, -, hstarts, hwarned⟩ := compile_warns_deserved {} "loops.bf" hparsed
  rw [if_pos (by decide)] at hwarned
  obtain ⟨tree, c, further, hcompile, hreported, -, hinside, -⟩ := hwarned
  have hcount : brackets.length = 2 :=
    (brackets.length_map _).symm.trans (congrArg List.length hstarts)
  have hlast : ",[.[é]\n]\n".toList ∈ brackets :=
    (hmem _).mpr ⟨[' '], [], rfl, List.forall_mem_singleton.mpr rfl⟩
  rw [hinside.mpr (by decide)] at hreported
  refine ⟨hparsed, tree, c, hcompile, ?_, ?_⟩
  · obtain ⟨first, second, rfl⟩ := List.length_eq_two.mp hcount
    rw [hreported]
    rfl
  · rw [hreported]
    exact List.mem_append_left _ (List.mem_map_of_mem hlast)

end Brainfuck

end CilAssembly

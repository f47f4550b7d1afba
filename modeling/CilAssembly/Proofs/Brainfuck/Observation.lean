import CilAssembly.Proofs.Brainfuck.Compilation

/-!
Lowering under observation. A step is taken after every command, at every depth. Where the step does
nothing on an empty stack, it is not noticed: the stack is empty after every command.
-/
namespace CilAssembly

/-- Demands that nothing is on the stack. -/
def Gen.demandEmpty : Gen Unit := do
  if (← get).stack.height ≠ 0 then violate .stackUnderflow

lemma Gen.demandEmpty_apply {c : Context} (h : c.stack.height = 0) :
    Gen.demandEmpty c = .ok () c := by
  simp [demandEmpty, h]

namespace Brainfuck

/-- Lowers a sequence of commands and takes a step after each of them. -/
def Lower.observed (observe : Lower Unit) (target : Target) : Program → Lower Unit
  | .done => pure ()
  | .act _ command rest =>
    act target command do
      observe
      observed observe target rest
  | .loop _ body rest =>
    loop target body.isDone (observed observe target body) do
      observe
      observed observe target rest

/-- A step that does nothing is not noticed at all. -/
lemma Lower.observed_pure (target : Target) (p : Program) :
    observed (pure ()) target p = program target p := by
  induction p with
  | done => rfl
  | act span a rest ih => rw [observed, pure_bind, ih, program_act]
  | loop span body rest ihBody ihRest => rw [observed, pure_bind, ihBody, ihRest, program_loop]

/-- Generates a whole unit with a way to lower its commands. -/
def compileBy (lower : Target → Lower Unit) (file text : String) (p : Program) :
    Gen SyntaxTree := do
  let outline := Outline.ofProgram file text p
  let console ← Gen.importClass libraryScope "System" "Console"
  let write ← Gen.addMethod console "Write" { result := .void, params := [.char] }
  let read ← Gen.addMethod console "Read" { result := .int32, params := [] }
  let own ← Gen.addClass none programClass
  let main ← Gen.addMethod own "Main" { result := .void, params := [] }
  Gen.modifyMethod main ({ · with isEntryPoint := true })
  Gen.bindItem (.ofClass own) outline.classNode
  Gen.bindItem (.ofMethod main) outline.main
  Gen.moduleHeader
  Gen.beginClass own
  let _ ← Gen.withItem outline.tree (.ofMethod main) (lowerMainBy lower outline write read main)
  Gen.endClass
  return outline.tree

lemma compileBy_program (file text : String) (p : Program) :
    compileBy (Lower.program · p) file text p = compile file text p := rfl

/-- What a loop does with its body depends on how the body ends only. -/
lemma loop_congr {target : Target} {c : Context} {p : Progress}
    (hnext : p.next < target.statements.size) {body body' : Lower Unit}
    (h : body { p with next := p.next + 1 } (openedLoop c) =
      body' { p with next := p.next + 1 } (openedLoop c)) (isDone : Bool) (rest : Lower Unit) :
    Lower.loop target isDone body rest p c = Lower.loop target isDone body' rest p c := by
  by_cases hroom : c.labels.created + 1 < Labels.limit
  · rw [loop_apply hnext hroom, loop_apply hnext hroom, Lower.bind_apply, Lower.bind_apply, h]
  · obtain ⟨d, hd, -⟩ := loop_exhausted hnext hroom
    rw [hd, hd]

/-- What comes after a loop runs on an empty stack, if it runs at all. -/
lemma loop_congr_rest {target : Target} {c : Context} {p : Progress} {body : Program}
    (fits : target.Fits c.image) (hheight : c.stack.height = 0)
    (hnodes : p.next + 1 + body.commands ≤ target.statements.size) {rest rest' : Lower Unit}
    (h : ∀ d, target.Fits d.image → d.queue.Quiet → d.stack.height = 0 →
      rest (p.afterLoop body) d = rest' (p.afterLoop body) d) :
    Lower.loop target body.isDone (Lower.program target body) rest p c =
      Lower.loop target body.isDone (Lower.program target body) rest' p c := by
  have hnext : p.next < target.statements.size := by omega
  by_cases hroom : c.labels.created + 1 < Labels.limit
  case neg =>
    obtain ⟨d, hd, -⟩ := loop_exhausted hnext hroom
    rw [hd, hd]
  have hcreated := created_openedLoop c
  by_cases hfit : c.labels.created + 2 + 2 * body.loops ≤ Labels.limit
  · obtain ⟨d, hd, -, hflushed⟩ := program_apply body (c := openedLoop c)
      (p := { p with next := p.next + 1 }) fits Context.quiet_flushed hheight hnodes (by omega)
    rw [flushed_openedLoop, hcreated] at hflushed
    obtain ⟨e, he, hquiet, hflushed'⟩ := loop_rest fits hheight hnext hroom hd hflushed
    rw [he, he]
    exact h e (Context.image_of_after hflushed' ▸ fits) hquiet
      ((Context.height_of_after hflushed').trans hheight)
  · obtain ⟨d, hd, -⟩ := program_exhausted body (c := openedLoop c)
      (p := { p with next := p.next + 1 }) fits Context.quiet_flushed hheight hnodes (by omega)
      (by omega)
    rw [loop_apply hnext hroom, loop_apply hnext hroom, Lower.bind_apply, Lower.bind_apply, hd]

/-- After every command the stack is empty. -/
theorem observed_apply {observe : Lower Unit}
    (hobserve : ∀ p c, c.stack.height = 0 → observe p c = .ok ((), p) c) {target : Target}
    (prog : Program) {c : Context} {p : Progress} (fits : target.Fits c.image)
    (hquiet : c.queue.Quiet) (hheight : c.stack.height = 0)
    (hnodes : p.next + prog.commands ≤ target.statements.size) :
    Lower.observed observe target prog p c = Lower.program target prog p c := by
  have hskip (rest : Lower Unit) (q : Progress) (d : Context) (h : d.stack.height = 0) :
      (do observe; rest : Lower Unit) q d = rest q d := by
    rw [Lower.bind_apply, hobserve q d h]
  induction prog generalizing c p with
  | done => rfl
  | act span a rest ih =>
    rw [Program.commands] at hnodes
    obtain ⟨d, hd, hquiet', hflushed⟩ := act_apply (p := p) fits hheight (by omega) hquiet a
    have hheight' := (Context.height_of_after hflushed).trans hheight
    rw [Lower.observed, Lower.program_act, hd, hd, hskip _ _ d hheight']
    exact ih (Context.image_of_after hflushed ▸ fits) hquiet' hheight'
      (by rw [next_action]; dsimp only; omega)
  | loop span body rest ihBody ihRest =>
    rw [Program.commands] at hnodes
    have hbody := ihBody (c := openedLoop c) (p := { p with next := p.next + 1 }) fits
      Context.quiet_flushed hheight (by dsimp only; omega)
    -- The body does what it does unobserved, and only then what comes after the loop matters.
    rw [Lower.observed, Lower.program_loop, loop_congr (by omega) hbody]
    refine loop_congr_rest fits hheight (by omega) fun d fits' hquiet' hheight' => ?_
    rw [hskip _ _ d hheight']
    exact ihRest fits' hquiet' hheight' (by rw [next_afterLoop]; omega)

section
variable {p : Program} {lower lower' : Target → Lower Unit}
  (h : ∀ target q d, target.Fits d.image → d.queue.Quiet → d.stack.height = 0 →
    q.next + p.commands ≤ target.statements.size → lower target q d = lower' target q d)
include h

/-- Generating `Main` depends on how the commands are lowered once the tape is allocated. -/
lemma lowerMainBy_congr {outline : Outline} {file : String} (serves : outline.Serves file p)
    {c : Context} (himage : c.image = programImage) (hframe : c.frame = none) :
    lowerMainBy lower outline ⟨0⟩ ⟨1⟩ ⟨2⟩ c = lowerMainBy lower' outline ⟨0⟩ ⟨1⟩ ⟨2⟩ c := by
  obtain ⟨d, hd, hquiet, hflushed⟩ := lowerTape_apply serves himage
  have hlower := h (mainTarget outline) (startProgress.noted .tape .modified) d
    (Context.image_of_after hflushed ▸ fits_mainTarget serves himage) hquiet
    (Context.height_of_after hflushed) (next_commands serves)
  rw [lowerMainBy_eq _ _ himage hframe, lowerMainBy_eq _ _ himage hframe, Gen.bind_apply,
    Gen.bind_apply, hd, hd, hlower]

lemma compileBy_congr (options : Options) (file text : String) :
    compileBy lower file text p (.create options) =
      compileBy lower' file text p (.create options) := by
  have serves := serves_ofProgram file text p
  have heq (lower : Target → Lower Unit) : compileBy lower file text p (.create options) =
      writeUnit (Outline.ofProgram file text p)
        (lowerMainBy lower (Outline.ofProgram file text p) ⟨0⟩ ⟨1⟩ ⟨2⟩)
        (declaredUnit options (Outline.ofProgram file text p)) :=
    declareItems_apply options (Outline.ofProgram file text p) _
  rw [heq, heq]
  generalize Outline.ofProgram file text p = outline at serves
  have hmain := lowerMainBy_congr h serves (c := { openedClass options outline with
    lexical := mainLexical outline (openedClass options outline).checkedByDefault }) rfl rfl
  simp only [writeUnit_eq, Gen.bind_apply, Gen.withItem, Gen.restoring, Gen.map_apply,
    enterMain_apply serves (c := openedClass options outline) rfl rfl, hmain]

end

end Brainfuck
end CilAssembly

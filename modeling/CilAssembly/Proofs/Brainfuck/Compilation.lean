import CilAssembly.Proofs.Brainfuck.EntryPoint
import CilAssembly.Proofs.Brainfuck.Lowering
import CilAssembly.Proofs.Generation.Methods
import CilAssembly.Proofs.Lexical.Entry

/-!
Whole units. A program compiles where it has labels enough, and the entry point of its listing then
runs as the program does. The peephole rules make no difference to it.
-/
namespace CilAssembly.Brainfuck
open Peephole (endsRule)

lemma length_statementsOnto (p : Program) (later : List (Spanned String)) :
    (p.statementsOnto later).length = p.commands + later.length := by
  induction p generalizing later with
  | done => simp [Program.statementsOnto, Program.commands]
  | act span action rest ih =>
    simp only [Program.statementsOnto, Program.commands, List.length_cons, ih]
    omega
  | loop span body rest ihBody ihRest =>
    simp only [Program.statementsOnto, Program.commands, List.length_cons, ihBody, ihRest]
    omega

lemma length_statements (p : Program) : p.statements.length = p.commands := by
  simp [Program.statements, length_statementsOnto]

section
variable {tree : SyntaxTree} (kind : NodeKind) (location : Location)

lemma get_push_self :
    (tree.push kind location).2.get (tree.push kind location).1 = .ok ⟨kind, location⟩ := by
  simp [SyntaxTree.get, SyntaxTree.push, fetch]

lemma classDefinition?_push_self (definition : ClassDefinition) :
    (tree.push (.classDefinition definition) location).2.classDefinition?
      (tree.push (.classDefinition definition) location).1 = some definition := by
  simp [SyntaxTree.classDefinition?, SyntaxTree.get?, SyntaxTree.push]

/-- A node stays where it is when others are added. -/
lemma get_push_of_ok {id : NodeId} {node : Node} (h : tree.get id = .ok node) :
    (tree.push kind location).2.get id = .ok node := by
  simp only [SyntaxTree.get, SyntaxTree.push, fetch_eq_ok] at h ⊢
  obtain ⟨hlt, -⟩ := Array.getElem?_eq_some_iff.mp h
  rw [Array.getElem?_push, if_neg (by omega), h]

end

lemma declareStatements_append (file : String) (index : LineIndex)
    (statements : List (Spanned String)) (s : Spanned String) :
    declareStatements file index (statements ++ [s]) =
      let (tree, ids) := declareStatements file index statements
      let (id, tree) := tree.push (.statement s.item) (index.locate file s.span)
      (tree, ids.push id) := by
  simp [declareStatements]

/-- The node of a statement. -/
def statementNode (file : String) (index : LineIndex) (s : Spanned String) : Node :=
  ⟨.statement s.item, index.locate file s.span⟩

/-- Declaring statements gives a node each, in order. -/
lemma declareStatements_eq (file : String) (index : LineIndex)
    (statements : List (Spanned String)) :
    declareStatements file index statements =
      (⟨(statements.map (statementNode file index)).toArray⟩,
        ((List.range statements.length).map NodeId.mk).toArray) := by
  induction statements using List.reverseRecOn with
  | nil => rfl
  | append_singleton statements s ih =>
    rw [declareStatements_append, ih]
    simp [SyntaxTree.push, statementNode, List.range_succ]

lemma declareStatements_nodes (file : String) (index : LineIndex)
    (statements : List (Spanned String)) :
    (declareStatements file index statements).2.size = statements.length ∧
      ∀ id ∈ (declareStatements file index statements).2,
        ∃ node, (declareStatements file index statements).1.get id = .ok node := by
  rw [declareStatements_eq]
  refine ⟨by simp, ?_⟩
  intro id hid
  obtain ⟨n, hn, rfl⟩ := List.mem_map.mp (List.mem_toArray.mp hid)
  exact ⟨_, fetch_of_lt (by simpa using hn)⟩

/-- The outline has a node for every command of a program, for `Main` and for its class. -/
structure Outline.Serves (outline : Outline) (file : String) (p : Program) : Prop where
  size : outline.statements.size = p.commands
  nodes : ∀ id ∈ outline.statements, ∃ node, outline.tree.get id = .ok node
  main : ∃ body, outline.tree.get outline.main =
    .ok ⟨.methodDeclaration "Main" none body, ⟨file, 1⟩⟩
  classNode : outline.tree.classDefinition? outline.classNode =
    some ⟨programClass, none, none, [outline.main]⟩

theorem serves_ofProgram (file text : String) (p : Program) :
    (Outline.ofProgram file text p).Serves file p := by
  obtain ⟨hsize, hnodes⟩ := declareStatements_nodes file (.ofText text) p.statements
  refine ⟨hsize.trans (length_statements p), ?_, ?_, ?_⟩
  · intro id hid
    obtain ⟨node, hnode⟩ := hnodes id hid
    exact ⟨node, get_push_of_ok _ _ (get_push_of_ok _ _ (get_push_of_ok _ _ hnode))⟩
  · exact ⟨_, get_push_of_ok _ _ (get_push_self _ _)⟩
  · exact classDefinition?_push_self _ _

def mainMethod : MethodInfo where
  owner := ⟨1⟩
  name := "Main"
  signature := { result := .void, params := [] }
  isStatic := true
  isEntryPoint := true

/-- The items of a unit: the console with its two methods, the class of the program and `Main`. -/
def programImage : Image where
  classes :=
    #[{ name := "Console", space := some "System", scope := some libraryScope },
      { name := programClass }]
  methods :=
    #[{ owner := ⟨0⟩, name := "Write", signature := ⟨.void, [.char], false⟩, isStatic := true },
      { owner := ⟨0⟩, name := "Read", signature := ⟨.int32, [], false⟩, isStatic := true },
      mainMethod]

lemma methodRef_write : programImage.methodRef ⟨0⟩ none = .ok writeToken := by
  decide +kernel

lemma methodRef_read : programImage.methodRef ⟨1⟩ none = .ok readToken := by
  decide +kernel

/-- A unit with its items, before any line is written. -/
def declaredUnit (options : Options) (outline : Outline) : Context :=
  { Context.create options with
    image := programImage
    bindings := [(.ofMethod ⟨2⟩, outline.main), (.ofClass ⟨1⟩, outline.classNode)] }

/-- What is left of compiling once the items are declared. -/
def writeUnit (outline : Outline) (main : Gen Unit) : Gen SyntaxTree := do
  Gen.moduleHeader
  Gen.beginClass ⟨1⟩
  let _ ← Gen.withItem outline.tree (.ofMethod ⟨2⟩) main
  Gen.endClass
  return outline.tree

/-- The items come first, whatever is done with them. -/
lemma declareItems_apply {α : Type} (options : Options) (outline : Outline)
    (use : MethodId → MethodId → ClassId → MethodId → Gen α) :
    (do
      let console ← Gen.importClass libraryScope "System" "Console"
      let write ← Gen.addMethod console "Write" { result := .void, params := [.char] }
      let read ← Gen.addMethod console "Read" { result := .int32, params := [] }
      let own ← Gen.addClass none programClass
      let main ← Gen.addMethod own "Main" { result := .void, params := [] }
      Gen.modifyMethod main ({ · with isEntryPoint := true })
      Gen.bindItem (.ofClass own) outline.classNode
      Gen.bindItem (.ofMethod main) outline.main
      use write read own main) (Context.create options) =
      use ⟨0⟩ ⟨1⟩ ⟨1⟩ ⟨2⟩ (declaredUnit options outline) := rfl

lemma compile_eq_writeUnit (options : Options) (file text : String) (p : Program) :
    compile file text p (Context.create options) =
      writeUnit (Outline.ofProgram file text p)
        (lowerMain (Outline.ofProgram file text p) ⟨0⟩ ⟨1⟩ ⟨2⟩ p)
        (declaredUnit options (Outline.ofProgram file text p)) :=
  declareItems_apply options (Outline.ofProgram file text p) _

lemma newVector_byte : Gen.newVector .uint8 = Gen.barrier ⟨.newarr, .token byteToken⟩ := by
  have htoken : (ClassName.system "Byte").render = byteToken := by decide +kernel
  rw [← htoken]
  rfl

section Tape
variable {target : Target} {c : Context} (p : Progress) (hquiet : c.queue.Quiet) {height : Int}
  {peak : Nat} (hstack : c.stack = ⟨height, peak⟩)
include hquiet hstack

/-- Allocating the tape. -/
lemma emits_allocateTape (fits : target.Fits c.image) (hzero : height = 0) :
    (Lower.allocateTape target).Emits p c (p.noted .tape .modified) (tapeCode.map .instruction)
      ⟨0, max peak 1⟩ := by
  have htape : SlotAccess.storeLocal.instruction target.tape.index = { opcode := .stloc_0 } := by
    rw [fits.tape]
    rfl
  have hopcode : endsRule (SlotAccess.storeLocal.instruction target.tape.index).opcode = false := by
    rw [htape]
    rfl
  have hvector := Gen.barrier_apply ⟨.newarr, .token byteToken⟩
  have hemits := (emits_queue p hquiet hstack (endsRule_int32Load 30000)).bind fun d hd hs =>
    (emits_adjust p hd.quiet hs 1 (by omega) (by omega)).bind fun d hd hs =>
      (emits_line p hd.quiet hs (hvector d)).bind fun d hd hs =>
        (emits_slot p hd.quiet hs hopcode).bind fun d hd hs =>
          (emits_adjust p hd.quiet hs (-1) (by omega) (by omega)).bind fun d hd hs =>
            emits_modify p hd.quiet hs (·.noted .tape .modified)
  have hpeak : max (max peak (height + 1).toNat) (height + 1 + -1).toNat = max peak 1 := by omega
  have hheight : height + 1 + -1 = 0 := by omega
  rw [htape, hpeak, hheight, ← newVector_byte] at hemits
  exact hemits

end Tape

/-- The line that opens `Main`. -/
def mainHeading : String :=
  ".method public static hidebysig void Main() cil managed\n\x7b"

/-- The lines of `Main` before its body. -/
def mainHead : List Line :=
  [.directive mainHeading, .directive "\t.entrypoint"]

/-- The frame of `Main` after a listing. -/
def mainFrame (listing : Listing) (locals : Array Slot) : Frame :=
  { method := ⟨2⟩, args := #[], locals, start := (listing.append mainHead).size }

lemma beginMethod_main {c : Context} (himage : c.image = programImage) (hframe : c.frame = none) :
    Gen.beginMethod ⟨2⟩ c =
      .ok () ((c.flushed.appended mainHead).entered (mainFrame c.flushed.listing #[])) := by
  have hmethod : Gen.readImage (·.getMethod ⟨2⟩) c = .ok mainMethod c :=
    Gen.readImage_apply (by rw [himage]; rfl)
  have hthis : mainMethod.signature.hasThis = false := rfl
  have hslots : ¬maxSlots < ([] ++ mainMethod.signature.params).length := by decide
  have hentry : mainMethod.isEntryPoint = true := rfl
  have hheading : ".method public " ++
      (if mainMethod.isStatic = true then "static "
        else if mainMethod.isVirtual = true then "virtual " else "") ++
      "hidebysig " ++ mainMethod.signature.result.render ++ " " ++
      Identifier.quote mainMethod.name ++ "(" ++
      CilType.renderList mainMethod.signature.params ++ ") cil managed\n\x7b" =
        mainHeading := by
    decide +kernel
  simp only [Gen.beginMethod, Gen.bind_apply, Gen.get_apply, Gen.pure_apply, hframe, hmethod, hthis,
    hslots, hentry, hheading, Option.isSome_none, Bool.false_eq_true, if_false, if_true,
    Gen.directive_apply, Gen.modify_apply, Context.flushed_appended_flushed,
    Context.appended_appended]
  rfl

def tapeSlot : Slot := ⟨0, .vector .uint8⟩

def pointerSlot : Slot := ⟨1, .int32⟩

/-- The declaration of the tape. -/
def tapeLine : Line :=
  .directive "\t.locals init\t(unsigned int8[] 'tape')"

/-- The declaration of the pointer. -/
def pointerLine : Line :=
  .directive "\t.locals init\t(int32 'ptr')"

lemma allocLocal_tape (c : Context) (listing : Listing) :
    Gen.allocLocal (.vector .uint8) (some "tape") (c.entered (mainFrame listing #[])) =
      .ok tapeSlot ((c.flushed.appended [tapeLine]).entered (mainFrame listing #[tapeSlot])) := by
  have hroom : (mainFrame listing #[]).locals.size < maxSlots := show 0 < maxSlots by decide
  have htext : "\t.locals init\t(" ++ (CilType.vector .uint8).render ++ (" '" ++ "tape" ++ "'") ++
      ")" = "\t.locals init\t(unsigned int8[] 'tape')" := by
    decide +kernel
  rw [Gen.allocLocal_apply hroom, htext]
  rfl

lemma allocLocal_pointer (c : Context) (listing : Listing) :
    Gen.allocLocal .int32 (some "ptr") (c.entered (mainFrame listing #[tapeSlot])) =
      .ok pointerSlot ((c.flushed.appended [pointerLine]).entered
        (mainFrame listing #[tapeSlot, pointerSlot])) := by
  have hroom : (mainFrame listing #[tapeSlot]).locals.size < maxSlots :=
    show 1 < maxSlots by decide
  have htext : "\t.locals init\t(" ++ CilType.int32.render ++ (" '" ++ "ptr" ++ "'") ++ ")" =
      "\t.locals init\t(int32 'ptr')" := by
    decide +kernel
  rw [Gen.allocLocal_apply hroom, htext]
  rfl

def mainTarget (outline : Outline) : Target where
  tree := outline.tree
  statements := outline.statements
  write := ⟨0⟩
  read := ⟨1⟩
  tape := tapeSlot
  pointer := pointerSlot

/-- What is known before the first command. -/
def startProgress : Progress where
  usage := (UsageTable.empty.set Tracked.tape.slot .declared).set Tracked.pointer.slot .declared

/-- The context after the declarations of the locals. -/
def openedMain (c : Context) : Context :=
  (c.flushed.appended (mainHead ++ [tapeLine, pointerLine])).entered
    (mainFrame c.flushed.listing #[tapeSlot, pointerSlot])

/-- Generates the body of `Main` with a way to lower its commands. -/
def lowerMainBy (lower : Target → Lower Unit) (outline : Outline) (write read main : MethodId) :
    Gen Unit := do
  Gen.beginMethod main
  let tape ← Gen.allocLocal (.vector .uint8) (some "tape")
  let pointer ← Gen.allocLocal .int32 (some "ptr")
  let target : Target :=
    { tree := outline.tree, statements := outline.statements, write, read, tape, pointer }
  let usage :=
    (UsageTable.empty.set Tracked.tape.slot .declared).set Tracked.pointer.slot .declared
  let ((), progress) ← StateT.run (do Lower.allocateTape target; lower target) { usage }
  Gen.simple .ret
  Gen.endMethod
  match outputWarning? progress with
  | some message =>
    let location := (← Gen.orViolate (outline.tree.get outline.main)).location
    Gen.report .warning location message
  | none => pure ()

lemma lowerMain_eq_by (outline : Outline) (write read main : MethodId) (p : Program) :
    lowerMain outline write read main p =
      lowerMainBy (Lower.program · p) outline write read main := rfl

lemma lowerMainBy_eq {c : Context} (lower : Target → Lower Unit) (outline : Outline)
    (himage : c.image = programImage) (hframe : c.frame = none) :
    lowerMainBy lower outline ⟨0⟩ ⟨1⟩ ⟨2⟩ c = (do
      let ((), progress) ← StateT.run
        (do Lower.allocateTape (mainTarget outline); lower (mainTarget outline)) startProgress
      Gen.simple .ret
      Gen.endMethod
      match outputWarning? progress with
      | some message =>
        let location := (← Gen.orViolate (outline.tree.get outline.main)).location
        Gen.report .warning location message
      | none => pure ()) (openedMain c) := by
  simp only [lowerMainBy, Gen.bind_apply, beginMethod_main himage hframe, allocLocal_tape,
    allocLocal_pointer, Context.flushed_appended_flushed, Context.appended_appended]
  rfl

/-- What is known after the last command. -/
def finalProgress (p : Program) : Progress :=
  p.progress (startProgress.noted .tape .modified)

lemma flushed_openedMain (c : Context) : (openedMain c).flushed = openedMain c := by
  rw [openedMain, Context.flushed_entered, Context.flushed_appended_flushed]

lemma mainBody_settled {checked : Bool} {p : Program} {line : Line}
    (h : line ∈ mainBody checked p) : line.isPending = false := by
  simp only [mainBody, List.mem_cons, List.mem_append, List.mem_map, List.not_mem_nil,
    or_false] at h
  obtain rfl | rfl | ⟨i, hi, rfl⟩ | h | rfl := h
  · rfl
  · rfl
  · simp only [tapeCode, List.mem_cons, List.not_mem_nil, or_false] at hi
    obtain rfl | rfl | rfl := hi <;> rfl
  · obtain ⟨⟨opcode, operand⟩, rfl, hopcode⟩ | ⟨id, rfl⟩ := code_line h
    · exact Line.isPending_of_ne hopcode
    · rfl
  · rfl

/-- The lines of `Main`. -/
def mainLines (checked : Bool) (p : Program) : List Line :=
  mainHead ++ (mainBody checked p ++
    [.directive ("\t.maxstack " ++ toString (max 1 p.peak) ++ "\n\x7d")])

/-- The warnings about a program. -/
def mainWarnings (outline : Outline) (file : String) (p : Program) : List Diagnostic :=
  p.warnings (mainTarget outline) 0 ++
    (outputWarning? (finalProgress p)).toList.map (⟨.warning, ⟨file, 1⟩, ·⟩)

/-- The warnings about a program with more loops than there are labels for. -/
def exhaustedWarnings (outline : Outline) (p : Program) : List Diagnostic :=
  (p.warnings (mainTarget outline) 0).take (p.endlessWithin Labels.limit)

/-- The end of `Main` settles nothing. -/
lemma endMain_apply {c d : Context} {checked : Bool} {p : Program} {labels : Nat}
    {warnings : List Diagnostic} (himage : c.image = programImage) (hframe : c.frame = none)
    (hlabels : c.labels.Complete)
    (hflushed : d.flushed = (openedMain c).after
      (tapeCode.map .instruction ++ (p.code checked 0 ++ [.instruction { opcode := .ret }]))
      (max 1 p.peak) labels warnings) :
    Gen.endMethod d = .ok () (c.flushed.cleared.after (mainLines checked p)
      (max 1 p.peak) labels warnings) := by
  have hframe' : d.frame = some (mainFrame c.flushed.listing #[tapeSlot, pointerSlot]) := by
    change d.flushed.frame = _
    rw [hflushed]
    rfl
  have hmethod : d.image.getMethod ⟨2⟩ = .ok mainMethod := by
    rw [Context.image_of_flushed hflushed]
    change c.image.getMethod _ = _
    rw [himage]
    rfl
  have hcomplete : d.labels.Complete := by
    rw [Context.labels_of_flushed hflushed]
    exact Context.complete_after (c := openedMain c) hlabels _ _ _ _
  have hlisting : d.flushed.listing =
      (c.flushed.listing.append mainHead).append (mainBody checked p) := by
    rw [hflushed]
    simp [Context.after, openedMain, Context.entered, Context.appended, mainBody, tapeLine,
      pointerLine]
  have hpeak : d.stack.peak = max 1 p.peak := by
    rw [Context.stack_of_flushed hflushed]
    exact Nat.zero_max _
  have hend := Gen.endMethod_apply hframe' hmethod hcomplete hlisting rfl
    (fun _ => mainBody_settled)
  have hnone : c.flushed.frame = none := hframe
  rw [hend, hpeak, hflushed]
  simp [Context.left, Context.cleared, Context.after, Context.appended, openedMain,
    Context.entered, mainLines, mainBody, tapeLine, pointerLine, hnone]

section Body
variable {outline : Outline} {file : String} {p : Program} (serves : outline.Serves file p)
  {c : Context} (himage : c.image = programImage)
include serves himage

lemma fits_mainTarget : (mainTarget outline).Fits (openedMain c).image := by
  have himage' : (openedMain c).image = programImage := himage
  rw [himage']
  exact ⟨rfl, rfl, methodRef_write, methodRef_read, serves.nodes⟩

/-- The tape is allocated before the first command. -/
lemma lowerTape_apply :
    ∃ d, (∀ rest : Lower Unit,
        StateT.run (do Lower.allocateTape (mainTarget outline); rest) startProgress (openedMain c) =
          rest (startProgress.noted .tape .modified) d) ∧ d.queue.Quiet ∧
      d.flushed = (openedMain c).flushed.after (tapeCode.map .instruction) 1 0 [] := by
  have hquiet : (openedMain c).queue.Quiet := flushed_openedMain c ▸ Context.quiet_flushed
  obtain ⟨d, hd, happends, hstack⟩ := emits_allocateTape startProgress hquiet rfl
    (fits_mainTarget serves himage) rfl
  refine ⟨d, ?_, happends.quiet, ?_⟩
  · intro rest
    change (do Lower.allocateTape (mainTarget outline); rest : Lower Unit) startProgress
      (openedMain c) = _
    rw [Lower.bind_apply, hd]
  · exact happends.after (by rw [hstack]; rfl) (congrArg StackUse.peak hstack)

omit himage in
/-- A program without sure output is reported. -/
lemma warnOutput_apply (progress : Progress) :
    (match outputWarning? progress with
      | some message => do
        let location := (← Gen.orViolate (outline.tree.get outline.main)).location
        Gen.report .warning location message
      | none => pure () : Gen Unit) c =
      .ok () (c.warned ((outputWarning? progress).toList.map (⟨.warning, ⟨file, 1⟩, ·⟩))) := by
  obtain ⟨body, hmain⟩ := serves.main
  cases outputWarning? progress with
  | none => rfl
  | some message =>
    rw [hmain]
    rfl

omit himage in
/-- Every command has its statement. -/
lemma next_commands : (startProgress.noted .tape .modified).next + p.commands ≤
    (mainTarget outline).statements.size :=
  (Nat.zero_add _).trans_le serves.size.ge

variable (hlabels : c.labels = {})
include hlabels

/-- The body of `Main` up to its return. -/
lemma lowerBody_apply (hroom : 2 * p.loops ≤ Labels.limit) :
    ∃ d, StateT.run
        (do Lower.allocateTape (mainTarget outline); Lower.program (mainTarget outline) p)
        startProgress (openedMain c) = .ok ((), finalProgress p) d ∧ d.queue.Quiet ∧
      d.flushed = (openedMain c).after
        (tapeCode.map .instruction ++ p.code c.lexical.checked 0) (max 1 p.peak) (2 * p.loops)
        (p.warnings (mainTarget outline) 0) := by
  obtain ⟨d, hd, hquiet, hflushed⟩ := lowerTape_apply serves himage
  have hcreated : d.labels.created = 0 :=
    (Context.created_of_after hflushed).trans (congrArg Labels.created hlabels)
  obtain ⟨e, he, hquiet', hflushed'⟩ := program_apply p (p := startProgress.noted .tape .modified)
    (Context.image_of_after hflushed ▸ fits_mainTarget serves himage) hquiet
    (Context.height_of_after hflushed) (next_commands serves)
    (by rw [hcreated, Nat.zero_add]; exact hroom)
  refine ⟨e, (hd _).trans he, hquiet', ?_⟩
  rw [hflushed', hflushed, Context.after_after, hcreated, Context.lexical_of_after hflushed,
    flushed_openedMain, Nat.zero_add, List.nil_append]
  rfl

/-- `Main` is generated where there are labels enough. -/
theorem lowerMain_apply (hframe : c.frame = none) (hroom : 2 * p.loops ≤ Labels.limit) :
    lowerMain outline ⟨0⟩ ⟨1⟩ ⟨2⟩ p c = .ok () (c.flushed.cleared.after
      (mainLines c.lexical.checked p) (max 1 p.peak) (2 * p.loops)
      (mainWarnings outline file p)) := by
  obtain ⟨d, hd, hquiet, hflushed⟩ := lowerBody_apply serves himage hlabels hroom
  have hret : (d.enqueuedAll [{ opcode := .ret }]).flushed =
      (openedMain c).after (tapeCode.map .instruction ++ (p.code c.lexical.checked 0 ++
        [.instruction { opcode := .ret }])) (max 1 p.peak) (2 * p.loops)
        (p.warnings (mainTarget outline) 0) := by
    have happend := Context.flushed_enqueued hquiet (i := { opcode := .ret })
      (Context.accepts_of_endsRule rfl)
    rw [← Context.enqueued_eq, happend, hflushed]
    simp [Context.appended, Context.after]
  have hend := endMain_apply himage hframe (hlabels ▸ Labels.complete_empty) hret
  simp only [lowerMain_eq_by, lowerMainBy_eq _ outline himage hframe, Gen.bind_apply, hd,
    Gen.simple_apply, hend]
  rw [warnOutput_apply serves, Context.warned_after]
  rfl

lemma lowerBody_exhausted (hroom : Labels.limit < 2 * p.loops) :
    ∃ d, StateT.run
        (do Lower.allocateTape (mainTarget outline); Lower.program (mainTarget outline) p)
        startProgress (openedMain c) = .error (.failure .labelsExhausted) d ∧
      c.cleared.Stops d (max 1 (p.peakWithin Labels.limit)) (exhaustedWarnings outline p) := by
  obtain ⟨d, hd, hquiet, hflushed⟩ := lowerTape_apply serves himage
  have hcreated : d.labels.created = 0 :=
    (Context.created_of_after hflushed).trans (congrArg Labels.created hlabels)
  obtain ⟨e, he, hstops⟩ := program_exhausted p (p := startProgress.noted .tape .modified)
    (Context.image_of_after hflushed ▸ fits_mainTarget serves himage) hquiet
    (Context.height_of_after hflushed) (next_commands serves)
    (by rw [hcreated]; exact Nat.zero_le _) (by rw [hcreated, Nat.zero_add]; exact hroom)
  rw [hcreated, Nat.sub_zero] at hstops
  have hstops' := hstops.after hflushed
  exact ⟨e, (hd _).trans he, hstops'.reporter, hstops'.peak, hstops'.removals⟩

lemma lowerMain_exhausted (hframe : c.frame = none) (hroom : Labels.limit < 2 * p.loops) :
    ∃ d, lowerMain outline ⟨0⟩ ⟨1⟩ ⟨2⟩ p c = .error (.failure .labelsExhausted) d ∧
      c.cleared.Stops d (max 1 (p.peakWithin Labels.limit)) (exhaustedWarnings outline p) := by
  obtain ⟨d, hd, hstops⟩ := lowerBody_exhausted serves himage hlabels hroom
  refine ⟨d, ?_, hstops⟩
  simp only [lowerMain_eq_by, lowerMainBy_eq _ outline himage hframe, Gen.bind_apply, hd]

end Body

/-- The lexical context of `Main`. -/
def mainLexical (outline : Outline) (checked : Bool) : Lexical :=
  { classNode := some outline.classNode, checked }

/-- `Main` is entered with the arithmetic of the unit. -/
lemma enterMain_apply {outline : Outline} {file : String} {p : Program}
    (serves : outline.Serves file p) {c : Context} (himage : c.image = programImage)
    (hbindings : c.bindings = [(.ofMethod ⟨2⟩, outline.main), (.ofClass ⟨1⟩, outline.classNode)]) :
    Gen.enterItem outline.tree (.ofMethod ⟨2⟩) c =
      .ok (some c.lexical) { c with lexical := mainLexical outline c.checkedByDefault } := by
  obtain ⟨body, hmain⟩ := serves.main
  have hbound : c.bindings.lookup (.ofMethod ⟨2⟩) = some outline.main := by
    rw [hbindings]
    rfl
  have hclass : c.classAround? (.ofMethod ⟨2⟩) = some outline.classNode := by
    rw [Context.classAround?, himage, hbindings]
    rfl
  have hdefinition : c.definitionAround? outline.tree (.ofMethod ⟨2⟩) =
      some ⟨programClass, none, none, [outline.main]⟩ := by
    rw [Context.definitionAround?, hclass]
    exact serves.classNode
  have hresolves : c.Resolves outline.tree (.ofMethod ⟨2⟩) := by
    refine ⟨by rw [himage]; decide, by rw [himage]; decide, ?_, ?_⟩
    · rw [hbound]
      rintro _ ⟨⟩
      exact ⟨_, fetch_eq_ok.mp hmain⟩
    · rw [hdefinition]
      rintro _ ⟨⟩ _ ⟨⟩
  rw [Gen.enterItem_apply hresolves hbound (fetch_eq_ok.mp hmain), Context.lexicalAt,
    Context.changeAround?, hclass, hdefinition]
  rfl

/-- The lines that open a unit. -/
def headerLines (assemblyName : String) : List Line :=
  let version := "\n\x7b\n\t.ver 0:0:0:0\n\x7d"
  [.directive (".assembly extern " ++ Identifier.quote libraryScope ++ version),
    .directive (".assembly " ++ Identifier.quote assemblyName ++ version),
    .directive (".module " ++ Identifier.quote (assemblyName ++ ".exe"))]

/-- The line that opens the class of a program. -/
def classHeading : String :=
  ".class public auto ansi BrainfuckProgram extends [.library]System.Object\n\x7b"

lemma beginClass_program {c : Context} (himage : c.image = programImage) :
    Gen.beginClass ⟨1⟩ c = .ok () (c.flushed.appended [.directive classHeading]) := by
  have hread : Gen.readImage (·.getClass ⟨1⟩) c = .ok { name := programClass } c :=
    Gen.readImage_apply (by rw [himage]; rfl)
  have hclass : programImage.className ⟨1⟩ = .ok (.ofProgram none programClass) := by
    decide +kernel
  have hname : Gen.readImage (·.className ⟨1⟩) c = .ok (.ofProgram none programClass) c :=
    Gen.readImage_apply (by rw [himage, hclass])
  have hheading : ".class " ++ "public" ++ " auto ansi " ++ "" ++
      (ClassName.ofProgram none programClass).render ++ " extends " ++
      (ClassName.system "Object").render ++ "\n\x7b" = classHeading := by
    decide +kernel
  simp only [Gen.beginClass, Gen.bind_apply, hread, hname, Gen.pure_apply, Bool.false_eq_true,
    if_false, hheading, Gen.directive_apply]

lemma moduleHeader_apply (c : Context) :
    Gen.moduleHeader c = .ok () (c.flushed.appended (headerLines c.assemblyName)) := by
  simp [Gen.moduleHeader, headerLines]

section Unit
variable {outline : Outline} {file : String} {p : Program} (serves : outline.Serves file p)
  {c : Context} (himage : c.image = programImage)
  (hbindings : c.bindings = [(.ofMethod ⟨2⟩, outline.main), (.ofClass ⟨1⟩, outline.classNode)])
  (hlabels : c.labels = {}) (hframe : c.frame = none)
include serves himage hbindings hlabels hframe

lemma withMain_apply (hroom : 2 * p.loops ≤ Labels.limit) :
    Gen.withItem outline.tree (.ofMethod ⟨2⟩) (lowerMain outline ⟨0⟩ ⟨1⟩ ⟨2⟩ p) c =
      .ok (some ()) (c.flushed.cleared.after (mainLines c.checkedByDefault p)
        (max 1 p.peak) (2 * p.loops) (mainWarnings outline file p)) := by
  have hmain := lowerMain_apply serves
    (c := { c with lexical := mainLexical outline c.checkedByDefault }) himage hlabels hframe hroom
  simp only [Gen.withItem, Gen.bind_apply, enterMain_apply serves himage hbindings, Gen.restoring,
    Gen.map_apply, hmain]
  rfl

lemma withMain_exhausted (hroom : Labels.limit < 2 * p.loops) :
    ∃ d, Gen.withItem outline.tree (.ofMethod ⟨2⟩) (lowerMain outline ⟨0⟩ ⟨1⟩ ⟨2⟩ p) c =
        .error (.failure .labelsExhausted) d ∧
      c.cleared.Stops d (max 1 (p.peakWithin Labels.limit)) (exhaustedWarnings outline p) := by
  obtain ⟨d, hmain, hstops⟩ := lowerMain_exhausted serves
    (c := { c with lexical := mainLexical outline c.checkedByDefault }) himage hlabels hframe hroom
  refine ⟨{ d with lexical := c.lexical }, ?_, hstops.reporter, hstops.peak, hstops.removals⟩
  simp only [Gen.withItem, Gen.bind_apply, enterMain_apply serves himage hbindings, Gen.restoring,
    Gen.map_apply, hmain]

end Unit

/-- The context after the line that opens the class. -/
def openedClass (options : Options) (outline : Outline) : Context :=
  (declaredUnit options outline).appended
    (headerLines options.assemblyName ++ [.directive classHeading])

lemma flushed_openedClass (options : Options) (outline : Outline) :
    (openedClass options outline).flushed = openedClass options outline :=
  Context.flushed_appended_flushed (c := declaredUnit options outline) _

/-- The class is opened, whatever is done in it. -/
lemma openClass_apply {α : Type} (options : Options) (outline : Outline) (rest : Gen α) :
    (do Gen.moduleHeader; Gen.beginClass ⟨1⟩; rest) (declaredUnit options outline) =
      rest (openedClass options outline) := by
  have hheader : Gen.moduleHeader (declaredUnit options outline) =
    .ok () ((declaredUnit options outline).appended (headerLines options.assemblyName)) :=
      moduleHeader_apply _
  have hflushed : ((declaredUnit options outline).appended
      (headerLines options.assemblyName)).flushed =
      (declaredUnit options outline).appended (headerLines options.assemblyName) :=
    Context.flushed_appended_flushed (c := declaredUnit options outline) _
  have hclass : Gen.beginClass ⟨1⟩
      ((declaredUnit options outline).appended (headerLines options.assemblyName)) =
      .ok () (openedClass options outline) := by
    rw [beginClass_program rfl, hflushed, Context.appended_appended]
    rfl
  simp only [Gen.bind_apply, hheader, hclass]

lemma writeUnit_eq (options : Options) (outline : Outline) (main : Gen Unit) :
    writeUnit outline main (declaredUnit options outline) = (do
      let _ ← Gen.withItem outline.tree (.ofMethod ⟨2⟩) main
      Gen.endClass
      return outline.tree) (openedClass options outline) :=
  openClass_apply options outline _

/-- The lines of a unit. -/
def unitLines (options : Options) (p : Program) : List Line :=
  headerLines options.assemblyName ++ (.directive classHeading ::
    (mainLines options.checked p ++ [.directive "\x7d"]))

section
variable (options : Options) (file text : String) (p : Program)

/-- A program compiles where there are labels enough. -/
theorem compile_apply (hroom : 2 * p.loops ≤ Labels.limit) :
    compile file text p (Context.create options) = .ok (Outline.ofProgram file text p).tree
      ((declaredUnit options (Outline.ofProgram file text p)).after (unitLines options p)
        (max 1 p.peak) (2 * p.loops) (mainWarnings (Outline.ofProgram file text p) file p)) := by
  have serves := serves_ofProgram file text p
  rw [compile_eq_writeUnit]
  generalize Outline.ofProgram file text p = outline at serves
  have hmain := withMain_apply serves (c := openedClass options outline) rfl rfl rfl rfl hroom
  rw [flushed_openedClass] at hmain
  simp only [writeUnit_eq, Gen.bind_apply, hmain, Gen.endClass, Gen.directive_apply, Gen.pure_apply]
  have hqueue : (declaredUnit options outline).queue = { enabled := options.peephole } := rfl
  have hstack : (declaredUnit options outline).stack = {} := rfl
  have hchecked : (declaredUnit options outline).checkedByDefault = options.checked := rfl
  simp [openedClass, unitLines, Context.cleared, Context.after, Context.appended, Context.flushed,
    Listing.pushInstructions_eq_append, hqueue, hstack, hchecked]

/-- It runs out of labels otherwise. -/
lemma compile_stopped (hroom : Labels.limit < 2 * p.loops) :
    ∃ c, compile file text p (Context.create options) = .error (.failure .labelsExhausted) c ∧
      (Context.create options).Stops c (max 1 (p.peakWithin Labels.limit))
        (exhaustedWarnings (Outline.ofProgram file text p) p) := by
  have serves := serves_ofProgram file text p
  rw [compile_eq_writeUnit]
  generalize Outline.ofProgram file text p = outline at serves
  obtain ⟨c, hc, hstops⟩ :=
    withMain_exhausted serves (c := openedClass options outline) rfl rfl rfl rfl hroom
  refine ⟨c, ?_, hstops.reporter, hstops.peak, hstops.removals⟩
  simp only [writeUnit_eq, Gen.bind_apply, hc]

/-- Before it does, the loops that got their labels are warned about. -/
lemma compile_stops (hroom : Labels.limit < 2 * p.loops) :
    ∃ c, compile file text p (Context.create options) = .error (.failure .labelsExhausted) c ∧
      c.reporter = ((Context.create options).warned
        (exhaustedWarnings (Outline.ofProgram file text p) p)).reporter := by
  obtain ⟨c, hc, hstops⟩ := compile_stopped options file text p hroom
  exact ⟨c, hc, hstops.reporter⟩

lemma compile_exhausted (hroom : Labels.limit < 2 * p.loops) :
    ∃ c, compile file text p (Context.create options) = .error (.failure .labelsExhausted) c := by
  obtain ⟨c, hc, -⟩ := compile_stops options file text p hroom
  exact ⟨c, hc⟩

end

lemma unitLines_settled {options : Options} {p : Program} {line : Line}
    (h : line ∈ unitLines options p) : line.isPending = false := by
  simp only [unitLines, headerLines, mainLines, mainHead, List.mem_append, List.mem_cons,
    List.not_mem_nil, or_false] at h
  obtain (rfl | rfl | rfl) | rfl | ((rfl | rfl) | h | rfl) | rfl := h
  case inr.inr.inl.inr.inl => exact mainBody_settled h
  all_goals rfl

/-- The lines before the entry point is announced. -/
def openingLines (assemblyName : String) : List Line :=
  headerLines assemblyName ++ [.directive classHeading, .directive mainHeading]

/-- No other line announces an entry point. -/
lemma ne_entrypoint {assemblyName : String} {line : Line} (h : line ∈ openingLines assemblyName) :
    (line != .directive "\t.entrypoint") = true := by
  have hdot (text : String) (h : text.toList.head? = some '.') : text ≠ "\t.entrypoint" := by
    rintro rfl
    cases h
  rw [bne_iff_ne]
  simp only [openingLines, headerLines, List.mem_append, List.mem_cons, List.not_mem_nil,
    or_false] at h
  obtain (rfl | rfl | rfl) | rfl | rfl := h
  all_goals
    rw [Ne, Line.directive.injEq]
    apply hdot
    simp [classHeading, mainHeading]

lemma mainBody_open {checked : Bool} {p : Program} {line : Line} (h : line ∈ mainBody checked p) :
    (!closesMethod line) = true := by
  simp only [mainBody, List.mem_cons, List.mem_append, List.mem_map, List.not_mem_nil,
    or_false] at h
  obtain rfl | rfl | ⟨i, hi, rfl⟩ | h | rfl := h
  · decide
  · decide
  · rfl
  · obtain ⟨i, rfl, -⟩ | ⟨id, rfl⟩ := code_line h <;> rfl
  · rfl

lemma closesMethod_maxstack (peak : Nat) :
    closesMethod (.directive ("\t.maxstack " ++ toString peak ++ "\n\x7d")) = true := by
  rw [String.append_assoc, closesMethod, String.toList_append, List.isPrefixOf_iff_prefix]
  exact List.prefix_append _ _

/-- What follows the announcement of the entry point. -/
lemma drop_unitLines (options : Options) (p : Program) :
    ((unitLines options p).dropWhile (· != .directive "\t.entrypoint")).drop 1 =
      mainBody options.checked p ++ [
        .directive ("\t.maxstack " ++ toString (max 1 p.peak) ++ "\n\x7d"),
        .directive "\x7d"] := by
  have hlines : unitLines options p = openingLines options.assemblyName ++
      (.directive "\t.entrypoint" :: (mainBody options.checked p ++
        [.directive ("\t.maxstack " ++ toString (max 1 p.peak) ++ "\n\x7d"),
          .directive "\x7d"])) := by
    simp [unitLines, openingLines, mainLines, mainHead]
  rw [hlines, List.dropWhile_append_of_pos (fun _ => ne_entrypoint),
    List.dropWhile_cons_of_neg (by simp), List.drop_one, List.tail_cons]

/-- The body of the entry point stands in the lines of its unit. -/
lemma entryBody_unitLines (options : Options) (p : Program) :
    entryBody ⟨(unitLines options p).toArray⟩ = mainBody options.checked p := by
  rw [entryBody, drop_unitLines, List.takeWhile_append_of_pos (fun _ => mainBody_open),
    List.takeWhile_cons_of_neg (by rw [closesMethod_maxstack]; decide), List.append_nil]

/-- The end of a unit settles nothing. -/
lemma finish_unit (options : Options) (outline : Outline) (p : Program) (peak labels : Nat)
    (warnings : List Diagnostic) :
    Gen.finish ((declaredUnit options outline).after (unitLines options p) peak labels warnings) =
      .ok ⟨(unitLines options p).toArray⟩
        ((declaredUnit options outline).after (unitLines options p) peak labels warnings) := by
  have hlisting : ((declaredUnit options outline).after (unitLines options p) peak labels
      warnings).listing = ⟨(unitLines options p).toArray⟩ := by
    exact congrArg Listing.mk (Array.empty_append ..)
  have hsettled : ∀ line ∈ ((declaredUnit options outline).after (unitLines options p) peak labels
      warnings).listing.lines, line.isPending = false := by
    rw [hlisting]
    intro line hline
    exact unitLines_settled (List.mem_toArray.mp hline)
  have hcomplete := Context.complete_after (c := declaredUnit options outline) Labels.complete_empty
    (unitLines options p) peak labels warnings
  have hfinish := Gen.finish_apply rfl hcomplete hsettled
  rw [← hlisting]
  exact hfinish

/-- The listing of a program. -/
theorem compile_finish (options : Options) (file text : String) (p : Program)
    (hroom : 2 * p.loops ≤ Labels.limit) :
    (do let _ ← compile file text p; Gen.finish) (Context.create options) =
      .ok ⟨(unitLines options p).toArray⟩
        ((declaredUnit options (Outline.ofProgram file text p)).after (unitLines options p)
          (max 1 p.peak) (2 * p.loops) (mainWarnings (Outline.ofProgram file text p) file p)) := by
  simp only [Gen.bind_apply, compile_apply options file text p hroom, finish_unit]

/-- A program compiles exactly where its loops get the labels they need, and the entry point of the
listing then ends as the program does, on every input. -/
theorem compile_preserves_runs (options : Options) (file text : String) (p : Program) :
    if 2 * p.loops ≤ Labels.limit then
      ∃ listing c, (do let _ ← compile file text p; Gen.finish) (Context.create options) =
          .ok listing c ∧
        ∀ (input : Stream' Int32) (ending : Ending),
          BodyRuns (entryBody listing) input ending ↔ p.Runs options.checked (.blank input) ending
    else
      ∃ c, (do let _ ← compile file text p; Gen.finish) (Context.create options) =
        .error (.failure .labelsExhausted) c := by
  split
  case isTrue hroom =>
    refine ⟨_, _, compile_finish options file text p hroom, ?_⟩
    intro input ending
    rw [entryBody_unitLines]
    exact bodyRuns_mainBody options.checked p input ending
  case isFalse hroom =>
    obtain ⟨c, hc⟩ := compile_exhausted options file text p (by omega)
    exact ⟨c, by simp only [Gen.bind_apply, hc]⟩

/-- The peephole rules never change a program. With and without them it comes to the same listing, or
runs out of labels, after the same warnings and with the same room needed on the stack: the count of
removals stays at zero, so no rule ever applies to what lowering emits. -/
theorem peephole_never_matters (file text assemblyName : String) (checked : Bool) (p : Program) :
    let unit (peephole : Bool) : EStateM.Result Stop Context Listing :=
      (do let _ ← compile file text p; Gen.finish) (.create { peephole, checked, assemblyName })
    if 2 * p.loops ≤ Labels.limit then
      ∃ listing c c', unit true = .ok listing c ∧ unit false = .ok listing c' ∧
        c.reporter = c'.reporter ∧ c.stack.peak = c'.stack.peak ∧
        c.queue.removals = 0 ∧ c'.queue.removals = 0
    else
      ∃ c c', unit true = .error (.failure .labelsExhausted) c ∧
        unit false = .error (.failure .labelsExhausted) c' ∧
        c.reporter = c'.reporter ∧ c.stack.peak = c'.stack.peak ∧
        c.queue.removals = 0 ∧ c'.queue.removals = 0 := by
  intro unit
  split
  case isTrue hroom =>
    have hunit (peephole : Bool) :=
      compile_finish { peephole, checked, assemblyName } file text p hroom
    exact ⟨_, _, _, hunit true, hunit false, rfl, rfl, rfl, rfl⟩
  case isFalse hroom =>
    have hunit (peephole : Bool) :
        ∃ c, unit peephole = .error (.failure .labelsExhausted) c ∧
          (Context.create { peephole, checked, assemblyName }).Stops c
            (max 1 (p.peakWithin Labels.limit))
            (exhaustedWarnings (Outline.ofProgram file text p) p) := by
      obtain ⟨c, hc, hstops⟩ :=
        compile_stopped { peephole, checked, assemblyName } file text p (by omega)
      exact ⟨c, by simp only [unit, Gen.bind_apply, hc], hstops⟩
    obtain ⟨c, hc, hstops⟩ := hunit true
    obtain ⟨c', hc', hstops'⟩ := hunit false
    exact ⟨c, c', hc, hc', hstops.reporter.trans hstops'.reporter.symm,
      hstops.peak.trans hstops'.peak.symm, hstops.removals, hstops'.removals⟩

end CilAssembly.Brainfuck

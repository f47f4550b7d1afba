import CilAssembly.Proofs.Brainfuck.Compilation
import Mathlib.Data.List.Nodup

/-!
Statements and commands. Declaring the statements of a program and lowering its commands go through
the program one after the other, and share a cursor only. A lowering that lists the node each
command takes shows that every command gets the node declared for it.
-/
namespace CilAssembly.Brainfuck

namespace Program

lemma statementsOnto_eq (p : Program) (later : List (Spanned String)) :
    p.statementsOnto later = p.statements.reverse ++ later := by
  rw [statements, List.reverse_reverse]
  induction p generalizing later with
  | done => rfl
  | act span a rest ih => rw [statementsOnto, statementsOnto, ih, ih [_], List.append_assoc]; rfl
  | loop span body rest ihBody ihRest =>
    rw [statementsOnto, statementsOnto, ihRest, ihRest (body.statementsOnto [_]), ihBody,
      ihBody [_]]
    simp

lemma statements_act (span : Span) (a : Action) (rest : Program) :
    (act span a rest).statements = ⟨span, a.describe⟩ :: rest.statements := by
  rw [statements, statementsOnto, statementsOnto_eq rest]
  simp

lemma statements_loop (span : Span) (body rest : Program) :
    (loop span body rest).statements =
      ⟨span, describeLoop body⟩ :: (body.statements ++ rest.statements) := by
  rw [statements, statementsOnto, statementsOnto_eq rest, statementsOnto_eq body]
  simp

end Program

namespace Lower
variable {α β : Type}

/-- Lowers a sequence of commands and lists them, each with the node it takes. -/
def traced (target : Target) : Program → Lower (List (Spanned String × NodeId))
  | .done => return []
  | .act span command rest => do
    let node ← nextStatement target
    action target command
    let later ← traced target rest
    return (⟨span, command.describe⟩, node) :: later
  | .loop span body rest => do
    let node ← nextStatement target
    let test ← Gen.newLabel
    let top ← Gen.newLabel
    Gen.jump .br test
    Gen.place top
    let skipped := (← get).usage
    let inner ← traced target body
    Gen.place test
    loadCell target
    Gen.jump .brtrue top
    Gen.adjust (-1)
    modify fun p => { p with usage := skipped.meet p.usage }
    if body.isDone then
      let location := (← Gen.orViolate (target.tree.get node)).location
      Gen.report .warning location "this loop never ends once entered"
    let later ← traced target rest
    return (⟨span, body.describeLoop⟩, node) :: (inner ++ later)

/-- The list apart, this is how commands are lowered. -/
lemma map_traced (target : Target) (p : Program) :
    (fun _ => ()) <$> traced target p = program target p := by
  induction p with
  | done => rfl
  | act span a rest ih =>
    simp only [traced, program, ← ih, map_eq_pure_bind, bind_assoc, pure_bind]
  | loop span body rest ihBody ihRest =>
    simp only [traced, program, ← ihBody, ← ihRest, map_eq_pure_bind, bind_assoc, pure_bind]
    cases body.isDone <;>
      simp only [Bool.false_eq_true, if_false, if_true, bind_assoc, pure_bind]

/-- If a step goes through with the cursor at a statement, its result and the cursor after it are as
said. -/
def Ensures (x : Lower α) (n : Nat) (post : α → Nat → Prop) : Prop :=
  ∀ p c a q d, p.next = n → x p c = .ok (a, q) d → post a q.next

/-- A step that leaves the cursor where it is. -/
def Steady (x : Lower α) : Prop :=
  ∀ n, x.Ensures n fun _ m => m = n

section
variable {x : Lower α} {f : α → Lower β} {n : Nat} {post : β → Nat → Prop}

lemma Ensures.bind {mid : α → Nat → Prop} (hx : x.Ensures n mid)
    (hf : ∀ a m, mid a m → (f a).Ensures m post) : (x >>= f).Ensures n post := by
  intro p c b r e hp h
  rw [bind_apply] at h
  split at h
  case h_1 a q d hd => exact hf a q.next (hx p c a q d hp hd) q d b r e rfl h
  case h_2 => cases h

lemma Ensures.pure {b : β} (h : post b n) : (pure b : Lower β).Ensures n post := by
  rintro p c _ _ _ rfl ⟨⟩
  exact h

lemma Steady.skip (hx : x.Steady) (hf : ∀ a, (f a).Ensures n post) : (x >>= f).Ensures n post := by
  refine (hx n).bind ?_
  rintro a _ rfl
  exact hf a

lemma Steady.bind (hx : x.Steady) (hf : ∀ a, (f a).Steady) : (x >>= f).Steady :=
  fun n => hx.skip fun a => hf a n

lemma Steady.pure (a : α) : (pure a : Lower α).Steady :=
  fun _ => .pure rfl

lemma Steady.lift (y : Gen α) : (liftM y : Lower α).Steady := by
  intro n p c a q d hp h
  rw [lift_apply] at h
  split at h <;> cases h
  exact hp

lemma Steady.modify {g : Progress → Progress} (hg : ∀ p, (g p).next = p.next) :
    (modify g : Lower Unit).Steady := by
  rintro n p c _ _ _ rfl ⟨⟩
  exact hg p

lemma Steady.get : (get : Lower Progress).Steady := by
  rintro n p c _ _ _ rfl ⟨⟩
  rfl

end

lemma ensures_nextStatement (target : Target) (n : Nat) :
    (nextStatement target).Ensures n fun node m =>
      target.statements[n]? = some node ∧ m = n + 1 := by
  rintro p c node q d rfl h
  cases hfetch : fetch target.statements p.next with
  | error v =>
    simp only [nextStatement, bind_apply, get_apply, lift_apply, hfetch] at h
    cases h
  | ok found =>
    simp only [nextStatement, bind_apply, get_apply, lift_apply, hfetch, Gen.orViolate_ok,
      modify_apply, pure_apply] at h
    cases h
    exact ⟨fetch_eq_ok.mp hfetch, rfl⟩

lemma steady_cellOperands (target : Target) : (cellOperands target).Steady :=
  .bind (.lift _) fun _ => .bind (.lift _) fun _ => .bind (.lift _) fun _ =>
    .bind (.modify fun _ => rfl) fun _ => .modify fun _ => rfl

lemma steady_loadCell (target : Target) : (loadCell target).Steady :=
  .bind (steady_cellOperands target) fun _ => .bind (.lift _) fun _ => .lift _

lemma steady_storeCell (target : Target) {value : Lower Unit} (h : value.Steady) :
    (storeCell target value).Steady :=
  .bind (steady_cellOperands target) fun _ => .bind (.lift _) fun _ => .bind h fun _ =>
    .bind (.lift _) fun _ => .lift _

lemma steady_allocateTape (target : Target) : (allocateTape target).Steady :=
  .bind (.lift _) fun _ => .bind (.lift _) fun _ => .bind (.lift _) fun _ =>
    .bind (.lift _) fun _ => .bind (.lift _) fun _ => .modify fun _ => rfl

/-- Only the statements move the cursor. -/
lemma steady_action (target : Target) (a : Action) : (action target a).Steady := by
  cases a with
  | add amount =>
    rw [action]
    split
    · exact .pure ()
    · exact steady_storeCell target <| .bind (steady_loadCell target) fun _ =>
        .bind (.lift _) fun _ => .bind (.lift _) fun _ => .bind (.lift _) fun _ =>
          .bind (.lift _) fun _ => .lift _
  | shift offset =>
    rw [action]
    split
    · exact .pure ()
    · exact .bind (.lift _) fun _ => .bind (.lift _) fun _ => .bind (.lift _) fun _ =>
        .bind (.lift _) fun _ => .bind (.lift _) fun _ => .bind (.lift _) fun _ =>
          .modify fun _ => rfl
  | output =>
    exact .bind (steady_loadCell target) fun _ => .bind (.lift _) fun _ => .bind (.lift _) fun _ =>
      .bind (.modify fun _ => rfl) fun _ => .modify fun _ => rfl
  | input =>
    exact steady_storeCell target <| .bind (.lift _) fun _ => .bind (.lift _) fun _ => .lift _
  | clear => exact steady_storeCell target <| .bind (.lift _) fun _ => .lift _

/-- The list holds the commands of a program in the order of their statements, each with its node,
where the first node stands at the cursor. -/
structure Follows (target : Target) (prog : Program) (n : Nat)
    (log : List (Spanned String × NodeId)) (m : Nat) : Prop where
  next : m = n + prog.commands
  commands : log.map Prod.fst = prog.statements
  nodes : log.map Prod.snd = (target.statements.toList.drop n).take prog.commands

/-- The node at the cursor, and those after it. -/
lemma take_drop_statements {target : Target} {n : Nat} {node : NodeId}
    (h : target.statements[n]? = some node) (count : Nat) :
    (target.statements.toList.drop n).take (1 + count) =
      node :: (target.statements.toList.drop (n + 1)).take count := by
  rw [← Array.getElem?_toList] at h
  rw [List.drop_eq_getElem?_toList_append, h, Nat.add_comm]
  rfl

/-- Lowering meets the commands in the order in which their statements are declared. -/
lemma ensures_traced (target : Target) (prog : Program) (n : Nat) :
    (traced target prog).Ensures n (Follows target prog n) := by
  induction prog generalizing n with
  | done => exact .pure ⟨rfl, rfl, by rw [Program.commands, List.take_zero]; rfl⟩
  | act span a rest ih =>
    refine (ensures_nextStatement target n).bind ?_
    rintro node _ ⟨hnode, rfl⟩
    refine (steady_action target a).skip fun _ => (ih (n + 1)).bind fun later m hlater => .pure ?_
    refine ⟨?_, ?_, ?_⟩
    · rw [hlater.next, Program.commands, Nat.add_assoc]
    · rw [List.map_cons, hlater.commands, Program.statements_act]
    · rw [List.map_cons, hlater.nodes, Program.commands, take_drop_statements hnode]
  | loop span body rest ihBody ihRest =>
    refine (ensures_nextStatement target n).bind ?_
    rintro node _ ⟨hnode, rfl⟩
    -- Past the loop's own statement, only its body and the rest move the cursor.
    refine (Steady.lift _).skip fun test => (Steady.lift _).skip fun top =>
      (Steady.lift _).skip fun _ => (Steady.lift _).skip fun _ => Steady.get.skip fun start =>
        (ihBody (n + 1)).bind fun inner m hinner => ?_
    have hrest : (do
        let later ← traced target rest
        return (⟨span, body.describeLoop⟩, node) :: (inner ++ later) : Lower _).Ensures m
          (Follows target (.loop span body rest) n) := by
      refine (ihRest m).bind fun later q hlater => .pure ⟨?_, ?_, ?_⟩
      · rw [hlater.next, hinner.next, Program.commands]
        omega
      · rw [List.map_cons, List.map_append, hinner.commands, hlater.commands,
          Program.statements_loop]
      · rw [List.map_cons, List.map_append, hinner.nodes, hlater.nodes, hinner.next,
          Program.commands, Nat.add_assoc 1, take_drop_statements hnode, List.take_add,
          List.drop_drop]
    refine (Steady.lift _).skip fun _ => (steady_loadCell target).skip fun _ =>
      (Steady.lift _).skip fun _ => (Steady.lift _).skip fun _ =>
        Steady.skip (.modify fun _ => rfl) fun _ => ?_
    split
    · exact (Steady.lift _).skip fun _ => (Steady.lift _).skip fun _ => hrest
    · exact hrest

end Lower

/-- Generates the body of `Main` and hands out what became of its commands. -/
def lowerMainTraced (outline : Outline) (write read main : MethodId) (p : Program) :
    Gen (List (Spanned String × NodeId) × Progress) := do
  Gen.beginMethod main
  let tape ← Gen.allocLocal (.vector .uint8) (some "tape")
  let pointer ← Gen.allocLocal .int32 (some "ptr")
  let target : Target :=
    { tree := outline.tree, statements := outline.statements, write, read, tape, pointer }
  let usage :=
    (UsageTable.empty.set Tracked.tape.slot .declared).set Tracked.pointer.slot .declared
  let (log, progress) ← StateT.run (do Lower.allocateTape target; Lower.traced target p) { usage }
  Gen.simple .ret
  Gen.endMethod
  match outputWarning? progress with
  | some message =>
    let location := (← Gen.orViolate (outline.tree.get outline.main)).location
    Gen.report .warning location message
  | none => pure ()
  return (log, progress)

/-- Generates a whole unit from a program and hands out what became of its commands. -/
def compileTraced (file text : String) (p : Program) :
    Gen (SyntaxTree × Option (List (Spanned String × NodeId) × Progress)) := do
  let outline := Outline.ofProgram file text p
  let console ← Gen.importClass libraryScope "System" "Console"
  let write ← Gen.addMethod console "Write" { result := .void, params := [.char] }
  let read ← Gen.addMethod console "Read" { result := .int32, params := [] }
  let own ← Gen.addClass none programClass
  let main ← Gen.addMethod own "Main" { result := .void, params := [] }
  Gen.modifyMethod main ({ · with isEntryPoint := true })
  Gen.bindItem (.ofClass own) outline.classNode
  Gen.bindItem (.ofMethod main) outline.main
  Gen.moduleHeader
  Gen.beginClass own
  let traced ← Gen.withItem outline.tree (.ofMethod main)
    (lowerMainTraced outline write read main p)
  Gen.endClass
  return (outline.tree, traced)

lemma map_lowerMainTraced (outline : Outline) (write read main : MethodId) (p : Program) :
    (fun _ => ()) <$> lowerMainTraced outline write read main p =
      lowerMain outline write read main p := by
  simp only [lowerMainTraced, lowerMain, ← Lower.map_traced, map_eq_pure_bind, bind_assoc,
    pure_bind, StateT.run_bind, StateT.run_pure]
  -- The two differ in their last step alone, after the warning about output.
  refine bind_congr fun _ => bind_congr fun _ => bind_congr fun _ => bind_congr fun _ =>
    bind_congr fun lowered => bind_congr fun _ => bind_congr fun _ => ?_
  cases outputWarning? lowered.2 with
  | none => rfl
  | some message => simp only [bind_assoc, pure_bind, bind_pure_unit]

/-- What a step in an item gives can be changed outside of the item. -/
lemma map_withItem {α β : Type} (tree : SyntaxTree) (item : Item) (f : α → β) (x : Gen α) :
    Option.map f <$> Gen.withItem tree item x = Gen.withItem tree item (f <$> x) := by
  funext c
  simp only [Gen.withItem, Gen.map_apply, Gen.bind_apply]
  cases Gen.enterItem tree item c with
  | error e d => rfl
  | ok before d =>
    cases before with
    | none => rfl
    | some before =>
      simp only [Gen.restoring, Gen.map_apply]
      cases x d <;> rfl

/-- The list apart, this is how a unit is generated. -/
lemma map_compileTraced (file text : String) (p : Program) :
    Prod.fst <$> compileTraced file text p = compile file text p := by
  simp only [compileTraced, compile, ← map_lowerMainTraced, ← map_withItem, map_bind, map_pure,
    bind_map_left]

/-- The commands of `Main` follow its statements. -/
lemma lowerMainTraced_follows {outline : Outline} {write read main : MethodId} {p : Program}
    {log : List (Spanned String × NodeId)} {progress : Progress} {c d : Context}
    (h : lowerMainTraced outline write read main p c = .ok (log, progress) d) :
    ∃ target : Target, target.statements = outline.statements ∧
      Lower.Follows target p 0 log progress.next := by
  obtain ⟨_, c₁, -, h⟩ := Gen.bind_eq_ok h
  obtain ⟨tape, c₂, -, h⟩ := Gen.bind_eq_ok h
  obtain ⟨pointer, c₃, -, h⟩ := Gen.bind_eq_ok h
  obtain ⟨⟨lowered, reached⟩, c₄, hlowered, h⟩ := Gen.bind_eq_ok h
  obtain ⟨_, c₅, -, h⟩ := Gen.bind_eq_ok h
  obtain ⟨_, c₆, -, h⟩ := Gen.bind_eq_ok h
  have hresult : (lowered, reached) = (log, progress) := by
    cases hwarning : outputWarning? reached with
    | none =>
      simp only [hwarning] at h
      cases h
      rfl
    | some message =>
      simp only [hwarning] at h
      obtain ⟨_, c₇, -, h⟩ := Gen.bind_eq_ok h
      obtain ⟨_, c₈, -, h⟩ := Gen.bind_eq_ok h
      cases h
      rfl
  cases hresult
  let target : Target :=
    { tree := outline.tree, statements := outline.statements, write, read, tape, pointer }
  have hfollows := (Lower.steady_allocateTape target).skip fun _ => Lower.ensures_traced target p 0
  exact ⟨target, rfl, hfollows _ _ _ _ _ rfl hlowered⟩

/-- A unit that is generated has a `Main`, and its commands follow its statements. -/
lemma compileTraced_follows {options : Options} {file text : String} {p : Program}
    {tree : SyntaxTree} {traced : Option (List (Spanned String × NodeId) × Progress)} {c : Context}
    (h : compileTraced file text p (.create options) = .ok (tree, traced) c) :
    ∃ log progress, traced = some (log, progress) ∧
      ∃ target : Target, target.statements = (Outline.ofProgram file text p).statements ∧
        Lower.Follows target p 0 log progress.next := by
  have serves := serves_ofProgram file text p
  have heq := (declareItems_apply options (Outline.ofProgram file text p) _).symm.trans h
  generalize Outline.ofProgram file text p = outline at serves heq ⊢
  rw [openClass_apply] at heq
  obtain ⟨entered, d, hentered, heq⟩ := Gen.bind_eq_ok heq
  obtain ⟨_, e, -, heq⟩ := Gen.bind_eq_ok heq
  cases heq
  rw [Gen.withItem, Gen.bind_apply, enterMain_apply serves rfl rfl] at hentered
  cases hmain : lowerMainTraced outline ⟨0⟩ ⟨1⟩ ⟨2⟩ p { openedClass options outline with
      lexical := mainLexical outline (openedClass options outline).checkedByDefault } with
  | error stop f =>
    simp only [Gen.restoring, Gen.map_apply, hmain] at hentered
    cases hentered
  | ok lowered f =>
    simp only [Gen.restoring, Gen.map_apply, hmain] at hentered
    cases hentered
    exact ⟨lowered.1, lowered.2, rfl, lowerMainTraced_follows hmain⟩

section
variable (file text : String) (p : Program)

lemma statements_ofProgram : (Outline.ofProgram file text p).statements.toList =
    (List.range p.commands).map NodeId.mk := by
  rw [← length_statements]
  simp only [Outline.ofProgram, declareStatements_eq]

/-- The statements come first in the tree of a program, and nothing else in it is a statement. -/
lemma nodes_ofProgram : ∃ others : List Node,
    (Outline.ofProgram file text p).tree.nodes.toList =
      p.statements.map (statementNode file (.ofText text)) ++ others ∧
    ∀ node ∈ others, (node.kind.tag == "Statement") = false := by
  simp only [Outline.ofProgram, declareStatements_eq, SyntaxTree.push, Array.toList_push,
    List.append_assoc, List.cons_append, List.nil_append]
  refine ⟨_, rfl, ?_⟩
  intro node hnode
  simp only [List.mem_cons, List.not_mem_nil, or_false] at hnode
  obtain rfl | rfl | rfl := hnode <;> simp [NodeKind.tag]

/-- The number of statements in the tree of a program. -/
lemma countP_ofProgram : (Outline.ofProgram file text p).tree.nodes.toList.countP
    (·.kind.tag == "Statement") = p.commands := by
  obtain ⟨others, hnodes, hothers⟩ := nodes_ofProgram file text p
  have hstatements : (p.statements.map (statementNode file (.ofText text))).countP
      (·.kind.tag == "Statement") = p.commands := by
    rw [List.countP_map, ← length_statements]
    exact List.countP_eq_length.mpr fun s _ => rfl
  have hrest : others.countP (·.kind.tag == "Statement") = 0 :=
    List.countP_eq_zero.mpr fun node hnode => by simp [hothers node hnode]
  rw [hnodes, List.countP_append, hstatements, hrest, Nat.add_zero]

/-- The node of a statement stands at its index. -/
lemma get?_index_ofProgram {n : Nat} {s : Spanned String} (h : p.statements[n]? = some s) :
    (Outline.ofProgram file text p).tree.get? ⟨n⟩ =
      some (statementNode file (.ofText text) s) := by
  obtain ⟨others, htree, -⟩ := nodes_ofProgram file text p
  have hlt : n < p.statements.length := (List.getElem?_eq_some_iff.mp h).1
  rw [SyntaxTree.get?, ← Array.getElem?_toList, htree, List.getElem?_append_left (by simpa),
    List.getElem?_map, h, Option.map_some]

/-- A command that is listed at an index has its statement there. -/
lemma get?_ofProgram {log : List (Spanned String × NodeId)}
    (hcommands : log.map Prod.fst = p.statements)
    (hnodes : log.map Prod.snd = (List.range p.commands).map NodeId.mk) {s : Spanned String}
    {id : NodeId} (h : (s, id) ∈ log) :
    (Outline.ofProgram file text p).tree.get? id =
      some (statementNode file (.ofText text) s) := by
  obtain ⟨n, hn⟩ := List.mem_iff_getElem?.mp h
  have hs : p.statements[n]? = some s := by
    rw [← hcommands, List.getElem?_map, hn, Option.map_some]
  have hlt : n < p.statements.length := (List.getElem?_eq_some_iff.mp hs).1
  have hid : some id = some ⟨n⟩ := by
    have hrange : (log.map Prod.snd)[n]? = some ⟨n⟩ := by
      rw [hnodes, List.getElem?_map, List.getElem?_range (length_statements p ▸ hlt),
        Option.map_some]
    rw [← hrange, List.getElem?_map, hn, Option.map_some]
  cases hid
  exact get?_index_ofProgram file text p hs

end

lemma count_foldl_report {warnings : List Diagnostic}
    (h : ∀ d ∈ warnings, d.severity = .warning) (reporter : Reporter) :
    (warnings.foldl Reporter.report reporter).count .error = reporter.count .error := by
  induction warnings generalizing reporter with
  | nil => rfl
  | cons d rest ih =>
    rw [List.foldl_cons, ih fun e he => h e (List.mem_cons_of_mem d he)]
    simp [Reporter.count, Reporter.report, h d List.mem_cons_self]

/-- Each warning about the loops of a program is about one without commands. -/
lemma exists_endlessWarning {target : Target} {p : Program} {n : Nat} {d : Diagnostic}
    (h : d ∈ p.warnings target n) : ∃ m, d = endlessWarning target m := by
  induction p generalizing n with
  | done => cases h
  | act span a rest ih => exact ih h
  | loop span body rest ihBody ihRest =>
    simp only [Program.warnings, List.mem_append] at h
    obtain (h | h) | h := h
    · exact ihBody h
    · split at h
      · exact ⟨n, List.mem_singleton.mp h⟩
      · cases h
    · exact ihRest h

/-- Nothing but warnings is reported about a program. -/
lemma severity_mainWarnings {outline : Outline} {file : String} {p : Program} {d : Diagnostic}
    (h : d ∈ mainWarnings outline file p) : d.severity = .warning := by
  obtain h | h := List.mem_append.mp h
  · obtain ⟨m, rfl⟩ := exists_endlessWarning h
    rfl
  · obtain ⟨message, -, rfl⟩ := List.mem_map.mp h
    rfl

/-- What becomes of the commands of a program with labels enough. -/
lemma compileTraced_apply (options : Options) (file text : String) (p : Program)
    (hroom : 2 * p.loops ≤ Labels.limit) :
    ∃ log progress, compileTraced file text p (.create options) =
        .ok ((Outline.ofProgram file text p).tree, some (log, progress))
          ((declaredUnit options (Outline.ofProgram file text p)).after (unitLines options p)
            (max 1 p.peak) (2 * p.loops) (mainWarnings (Outline.ofProgram file text p) file p)) ∧
      log.map Prod.fst = p.statements ∧
      log.map Prod.snd = (List.range p.commands).map NodeId.mk ∧ progress.next = p.commands := by
  -- A unit is generated, so one is with the list; it only remains to say what the list holds.
  have hcompile := compile_apply options file text p hroom
  rw [← map_compileTraced, Gen.map_apply] at hcompile
  cases hresult : compileTraced file text p (.create options) with
  | error stop c =>
    rw [hresult] at hcompile
    cases hcompile
  | ok result c =>
    obtain ⟨tree, traced⟩ := result
    simp only [hresult, EStateM.Result.ok.injEq] at hcompile
    obtain ⟨rfl, rfl⟩ := hcompile
    obtain ⟨log, progress, rfl, target, htarget, hfollows⟩ := compileTraced_follows hresult
    refine ⟨log, progress, rfl, hfollows.commands, ?_, hfollows.next.trans (Nat.zero_add _)⟩
    rw [hfollows.nodes, htarget, statements_ofProgram, List.drop_zero]
    exact List.take_of_length_le (by simp)

lemma labels_unit (options : Options) (outline : Outline) (lines : List Line) (peak labels : Nat)
    (warnings : List Diagnostic) :
    ((declaredUnit options outline).after lines peak labels warnings).labels =
      ⟨Array.replicate labels (.placed false), none⟩ :=
  congrArg (Labels.mk · none) (Array.empty_append ..)

/-- Compiling breaks no rule of the generator. Where the loops of a program get the labels they need,
its unit is generated and finished. Every command takes a statement of its own, the one declared for
it; the cursor ends past the last statement; two labels a loop are created and placed; no switch
table and no method is left open, the lexical context is the one from the start, and no error is
reported. Listing what the commands take changes nothing, and the lack of labels is the only way to
fail. -/
theorem compile_completes (options : Options) (file text : String) (p : Program) :
    compile file text p = Prod.fst <$> compileTraced file text p ∧
    if 2 * p.loops ≤ Labels.limit then
      ∃ tree log progress c listing,
        compile file text p (.create options) = .ok tree c ∧
        compileTraced file text p (.create options) = .ok (tree, some (log, progress)) c ∧
        Gen.finish c = .ok listing c ∧
        log.map Prod.fst = p.statements ∧ (log.map Prod.snd).Nodup ∧
        (∀ s id, (s, id) ∈ log →
          tree.get? id = some ⟨.statement s.item, (LineIndex.ofText text).locate file s.span⟩) ∧
        progress.next = tree.nodes.toList.countP (·.kind.tag == "Statement") ∧
        c.labels.created = 2 * p.loops ∧ c.labels.placed = 2 * p.loops ∧
        c.labels.switch = none ∧ c.frame = none ∧
        c.lexical = (Context.create options).lexical ∧ c.reporter.count .error = 0
    else
      ∃ c, compile file text p (.create options) = .error (.failure .labelsExhausted) c := by
  refine ⟨(map_compileTraced file text p).symm, ?_⟩
  split
  case isFalse hroom => exact compile_exhausted options file text p (by omega)
  case isTrue hroom =>
    obtain ⟨log, progress, htraced, hcommands, hids, hnext⟩ :=
      compileTraced_apply options file text p hroom
    refine ⟨_, log, progress, _, _, compile_apply options file text p hroom, htraced,
      finish_unit .., hcommands, ?_, ?_, ?_, ?_, ?_, rfl, rfl, rfl, ?_⟩
    · rw [hids]
      exact List.Nodup.map (fun _ _ => congrArg NodeId.index) List.nodup_range
    · intro s id hentry
      exact get?_ofProgram file text p hcommands hids hentry
    · rw [hnext, countP_ofProgram]
    · rw [labels_unit, Labels.created, Array.size_replicate]
    · rw [labels_unit, Labels.placed, Array.countP_replicate]
      rfl
    · exact count_foldl_report (fun _ => severity_mainWarnings) _

end CilAssembly.Brainfuck

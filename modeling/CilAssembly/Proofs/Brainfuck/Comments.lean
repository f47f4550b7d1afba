import CilAssembly.Proofs.Brainfuck.Folding
import CilAssembly.Proofs.Brainfuck.Warnings

/-!
Comments. Up to the places of the commands, what the parser makes of a text depends on its command
characters only, and a listing depends on no places.
-/
namespace CilAssembly.Brainfuck

/-- The command characters of a text. -/
def commandCharacters (text : String) : List Char :=
  text.toList.filter (· ∈ ['+', '-', '>', '<', '.', ',', '[', ']'])

lemma filterMap_commandCharacters (text : String) :
    (commandCharacters text).filterMap Symbol.ofChar? = text.toList.filterMap Symbol.ofChar? := by
  rw [commandCharacters, List.filterMap_filter]
  refine List.filterMap_congr fun c _ => ?_
  split
  case isTrue => rfl
  case isFalse h =>
    cases hc : Symbol.ofChar? c with
    | none => rfl
    | some symbol =>
      rw [← Symbol.toChar_of_ofChar? hc] at h
      cases symbol <;> exact absurd (by decide) h

namespace Program

/-- The program with the spans of all its commands forgotten, nested ones included. -/
def erased : Program → Program
  | .done => .done
  | .act _ action rest => .act .nowhere action rest.erased
  | .loop _ body rest => .loop .nowhere body.erased rest.erased

lemma erased_reverseOnto (p q : Program) :
    (p.reverseOnto q).erased = p.erased.reverseOnto q.erased := by
  induction p generalizing q with
  | done => rfl
  | act span a rest ih => exact ih _
  | loop span body rest _ ih => exact ih _

lemma erased_reverse (p : Program) : p.reverse.erased = p.erased.reverse :=
  erased_reverseOnto p .done

section
variable {before before' : Program} (h : before.erased = before'.erased)
include h

lemma erased_act (span span' : Span) (a : Action) :
    (act span a before).erased = (act span' a before').erased := by
  rw [erased, erased, h]

lemma erased_loop {outer outer' : Program} (houter : outer.erased = outer'.erased)
    (span span' : Span) :
    (loop span before.reverse outer).erased = (loop span' before'.reverse outer').erased := by
  rw [erased, erased, erased_reverse, erased_reverse, h, houter]

/-- Whether a step is joined with the command before it does not depend on places. -/
lemma erased_addStep (token token' : Token) (step : Int32) :
    (before.addStep token step).erased = (before'.addStep token' step).erased := by
  have herased (p : Program) (t : Token) :
      (p.addStep t step).erased = p.erased.addStep ⟨.plus, 0, 0⟩ step := by
    cases p with
    | done | loop => rfl
    | act span a rest => cases a <;> rfl
  rw [herased, herased, h]

lemma erased_shiftStep (token token' : Token) (step : Int32) :
    (before.shiftStep token step).erased = (before'.shiftStep token' step).erased := by
  have herased (p : Program) (t : Token) :
      (p.shiftStep t step).erased = p.erased.shiftStep ⟨.right, 0, 0⟩ step := by
    cases p with
    | done | loop => rfl
    | act span a rest => cases a <;> rfl
  rw [herased, herased, h]

end

@[simp] lemma loops_erased (p : Program) : p.erased.loops = p.loops := by
  induction p with
  | done => rfl
  | act span a rest ih => exact ih
  | loop span body rest ihBody ihRest => rw [erased, loops, loops, ihBody, ihRest]

@[simp] lemma code_erased (checked : Bool) (n : Nat) (p : Program) :
    p.erased.code checked n = p.code checked n := by
  induction p generalizing n with
  | done => rfl
  | act span a rest ih => rw [erased, code, code, ih]
  | loop span body rest ihBody ihRest => rw [erased, code, code, ihBody, ihRest, loops_erased]

@[simp] lemma peak_erased (p : Program) : p.erased.peak = p.peak := by
  induction p with
  | done => rfl
  | act span a rest ih => rw [erased, peak, peak, ih]
  | loop span body rest ihBody ihRest => rw [erased, peak, peak, ihBody, ihRest]

@[simp] lemma isDone_erased (p : Program) : p.erased.isDone = p.isDone := by
  cases p <;> rfl

@[simp] lemma emptyMarks_erased (p : Program) : p.erased.emptyMarks = p.emptyMarks := by
  induction p with
  | done => rfl
  | act span a rest ih => exact ih
  | loop span body rest ihBody ihRest =>
    rw [erased, emptyMarks, emptyMarks, isDone_erased, ihBody, ihRest]

@[simp] lemma outputs_erased (p : Program) : p.erased.outputs = p.outputs := by
  induction p with
  | done => rfl
  | act span a rest ih => rw [erased, outputs, outputs, ih]
  | loop span body rest ihBody ihRest => rw [erased, outputs, outputs, ihBody, ihRest]

@[simp] lemma outerOutputs_erased (p : Program) : p.erased.outerOutputs = p.outerOutputs := by
  induction p with
  | done => rfl
  | act span a rest ih => rw [erased, outerOutputs, outerOutputs, ih]
  | loop span body rest _ ih => exact ih

end Program

/-- What parsing comes to, places aside: an error by its kind, or a program. -/
def outcome : Except SyntaxError Program → Except SyntaxErrorKind Program
  | .ok p => .ok p.erased
  | .error e => .error e.kind

lemma outcome_eq {result result' : Except SyntaxError Program}
    (h : outcome result = outcome result') :
    (∃ e e', result = .error e ∧ result' = .error e' ∧ e.kind = e'.kind) ∨
      ∃ p p', result = .ok p ∧ result' = .ok p' ∧ p.erased = p'.erased := by
  cases result with
  | error e =>
    cases result' with
    | error e' => exact .inl ⟨e, e', rfl, rfl, Except.error.inj h⟩
    | ok p' => cases h
  | ok p =>
    cases result' with
    | error e' => cases h
    | ok p' => exact .inr ⟨p, p', rfl, rfl, Except.ok.inj h⟩

/-- An opening bracket that does not begin a command to clear the cell begins a loop. -/
lemma ofTokensFrom_opening {rest : List Token}
    (h : ¬[.minus, .closing] <+: rest.map (·.symbol)) (stop : Nat) (before : Program)
    (enclosing : List OpenLoop) (start next : Nat) :
    Program.ofTokensFrom stop before enclosing (⟨.opening, start, next⟩ :: rest) =
      Program.ofTokensFrom stop .done (⟨start, before⟩ :: enclosing) rest := by
  cases enclosing <;> rw [Program.ofTokensFrom]
  all_goals
    rintro _ _ _ _ _ _ _ - rfl
    exact h (by simp)

/-- Two runs of the parser over the same symbols come to the same, if they have collected the same
commands: every branch is taken by symbols, and places only go into spans. -/
lemma outcome_ofTokensFrom {stop stop' : Nat} {before before' : Program}
    {enclosing enclosing' : List OpenLoop} {tokens tokens' : List Token}
    (hbefore : before.erased = before'.erased)
    (henclosing : enclosing.map (·.before.erased) = enclosing'.map (·.before.erased))
    (htokens : tokens.map (·.symbol) = tokens'.map (·.symbol)) :
    outcome (Program.ofTokensFrom stop before enclosing tokens) =
      outcome (Program.ofTokensFrom stop' before' enclosing' tokens') := by
  fun_induction Program.ofTokensFrom stop before enclosing tokens
    generalizing before' enclosing' tokens' with
  | case1 before =>
    obtain rfl : tokens' = [] := List.map_eq_nil_iff.mp htokens.symm
    obtain rfl : enclosing' = [] := List.map_eq_nil_iff.mp henclosing.symm
    rw [Program.ofTokensFrom, outcome, outcome, Program.erased_reverse, Program.erased_reverse,
      hbefore]
  | case2 before opened outer =>
    obtain rfl : tokens' = [] := List.map_eq_nil_iff.mp htokens.symm
    obtain ⟨opened', outer', rfl, -⟩ := List.map_eq_cons_iff.mp henclosing.symm
    rfl
  | case3 before enclosing start _ _ _ last _ rest ih =>
    simp only [List.map_cons] at htokens
    obtain ⟨start', _, _, rfl, hminus⟩ := exists_token htokens
    obtain ⟨_, _, _, rfl, hclosing⟩ := exists_token hminus
    obtain ⟨last', _, rest', rfl, hrest⟩ := exists_token hclosing
    exact (ih (Program.erased_act hbefore _ _ _) henclosing hrest).trans rfl
  | case4 before enclosing token rest _ hsymbol ih
  | case5 before enclosing token rest _ hsymbol ih =>
    rw [List.map_cons, hsymbol] at htokens
    obtain ⟨start', next', rest', rfl, hrest⟩ := exists_token htokens
    exact (ih (Program.erased_addStep hbefore _ _ _) henclosing hrest).trans rfl
  | case6 before enclosing token rest _ hsymbol ih
  | case7 before enclosing token rest _ hsymbol ih =>
    rw [List.map_cons, hsymbol] at htokens
    obtain ⟨start', next', rest', rfl, hrest⟩ := exists_token htokens
    exact (ih (Program.erased_shiftStep hbefore _ _ _) henclosing hrest).trans rfl
  | case8 before enclosing token rest _ hsymbol ih
  | case9 before enclosing token rest _ hsymbol ih =>
    rw [List.map_cons, hsymbol] at htokens
    obtain ⟨start', next', rest', rfl, hrest⟩ := exists_token htokens
    exact (ih (Program.erased_act hbefore _ _ _) henclosing hrest).trans rfl
  | case10 before enclosing token rest hclear hsymbol ih =>
    -- what comes after the bracket makes a loop of it in both runs
    have hloop := not_clear hsymbol hclear
    rw [List.map_cons, hsymbol] at htokens
    obtain ⟨start', next', rest', rfl, hrest⟩ := exists_token htokens
    rw [ofTokensFrom_opening (hrest ▸ hloop)]
    exact ih rfl (by simp [hbefore, henclosing]) hrest
  | case11 before token rest _ hsymbol =>
    rw [List.map_cons, hsymbol] at htokens
    obtain ⟨start', next', rest', rfl, -⟩ := exists_token htokens
    obtain rfl : enclosing' = [] := List.map_eq_nil_iff.mp henclosing.symm
    rfl
  | case12 before token rest _ hsymbol opened outer ih =>
    rw [List.map_cons, hsymbol] at htokens
    obtain ⟨start', next', rest', rfl, hrest⟩ := exists_token htokens
    obtain ⟨opened', outer', rfl, hopened, houter⟩ := List.map_eq_cons_iff.mp henclosing.symm
    have hloop := Program.erased_loop hbefore hopened.symm
    exact (ih (hloop _ _) houter.symm hrest).trans rfl

/-- Parsing depends on the command characters only. -/
theorem outcome_ofText {text text' : String}
    (h : commandCharacters text = commandCharacters text') :
    outcome (Program.ofText text) = outcome (Program.ofText text') := by
  refine outcome_ofTokensFrom rfl rfl ?_
  rw [symbols_ofText, symbols_ofText, ← filterMap_commandCharacters, h,
    filterMap_commandCharacters]

lemma unitLines_erased (options : Options) (p : Program) :
    unitLines options p.erased = unitLines options p := by
  simp [unitLines, mainLines, mainBody]

/-- The loops without commands all get the same message. -/
lemma messages_warnings (target : Target) (n : Nat) (p : Program) :
    (p.warnings target n).map (·.message) =
      List.replicate (p.emptyMarks.count true) "this loop never ends once entered" := by
  refine List.eq_replicate_iff.mpr ⟨by rw [List.length_map, Program.length_warnings], ?_⟩
  intro message hmessage
  obtain ⟨d, hd, rfl⟩ := List.mem_map.mp hmessage
  obtain ⟨m, rfl⟩ := exists_endlessWarning hd
  rfl

namespace Program

/-- The messages of the warnings about a program. -/
def messages (p : Program) : List String :=
  List.replicate (p.emptyMarks.count true) "this loop never ends once entered" ++
    (outputWarning? (finalProgress p)).toList

/-- The messages of the warnings about a program with more loops than there are labels for. -/
def exhaustedMessages (p : Program) : List String :=
  (List.replicate (p.emptyMarks.count true) "this loop never ends once entered").take
    (p.endlessWithin Labels.limit)

lemma messages_erased (p : Program) : p.erased.messages = p.messages := by
  simp [messages, outputWarning?_finalProgress]

lemma exhaustedMessages_erased (p : Program) :
    p.erased.exhaustedMessages = p.exhaustedMessages := by
  simp [exhaustedMessages, endlessWithin]

end Program

lemma messages_mainWarnings (outline : Outline) (file : String) (p : Program) :
    (mainWarnings outline file p).map (·.message) = p.messages := by
  rw [mainWarnings, List.map_append, messages_warnings, List.map_map, Program.messages]
  simp [Function.comp_def]

lemma messages_exhaustedWarnings (outline : Outline) (p : Program) :
    (exhaustedWarnings outline p).map (·.message) = p.exhaustedMessages := by
  rw [exhaustedWarnings, List.map_take, messages_warnings, Program.exhaustedMessages]

section
variable (options : Options) (file text : String) (p : Program)

/-- The listing and the messages are those of the program without places. -/
lemma compile_finish_erased (hroom : 2 * p.loops ≤ Labels.limit) :
    ∃ c, (do let _ ← compile file text p; Gen.finish) (.create options) =
        .ok ⟨(unitLines options p.erased).toArray⟩ c ∧
      c.reporter.diagnostics.map (·.message) = p.erased.messages := by
  rw [unitLines_erased, Program.messages_erased,
    ← messages_mainWarnings (Outline.ofProgram file text p) file p]
  refine ⟨_, compile_finish options file text p hroom, ?_⟩
  exact congrArg (List.map _) (Reporter.diagnostics_foldl_report ..)

lemma compile_stops_erased (hroom : Labels.limit < 2 * p.loops) :
    ∃ c, (do let _ ← compile file text p; Gen.finish) (.create options) =
        .error (.failure .labelsExhausted) c ∧
      c.reporter.diagnostics.map (·.message) = p.erased.exhaustedMessages := by
  obtain ⟨c, hc, hreporter⟩ := compile_stops options file text p hroom
  refine ⟨c, by simp only [Gen.bind_apply, hc], ?_⟩
  rw [Program.exhaustedMessages_erased,
    ← messages_exhaustedWarnings (Outline.ofProgram file text p), hreporter]
  exact congrArg (List.map _) (Reporter.diagnostics_foldl_report ..)

end

end CilAssembly.Brainfuck

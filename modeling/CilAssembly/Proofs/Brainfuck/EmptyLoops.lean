import CilAssembly.Proofs.Brainfuck.Brackets

/-!
Loops without commands. The parser makes one of each pair of brackets that has nothing but comments
inside, in the order of the text, and its span starts at the opening bracket.
-/
namespace CilAssembly.Brainfuck

namespace Program

/-- The spans of the loops without commands, nested ones included, in the order of the commands. -/
def emptyLoops : Program → List Span
  | .done => []
  | .act _ _ rest => rest.emptyLoops
  | .loop span body rest =>
    (if body.isDone then [span] else body.emptyLoops) ++ rest.emptyLoops

lemma emptyLoops_reverseOnto (p q : Program) :
    (p.reverseOnto q).emptyLoops = p.reverse.emptyLoops ++ q.emptyLoops := by
  rw [reverse]
  induction p generalizing q with
  | done => rfl
  | act span a rest ih =>
    rw [reverseOnto, reverseOnto, ih, ih (act span a done)]
    simp [emptyLoops]
  | loop span body rest _ ih =>
    rw [reverseOnto, reverseOnto, ih, ih (loop span body done)]
    simp [emptyLoops]

lemma isDone_reverseOnto (p q : Program) :
    (p.reverseOnto q).isDone = (p.isDone && q.isDone) := by
  induction p generalizing q with
  | done => rfl
  | act span a rest ih => exact (ih _).trans (Bool.and_false _)
  | loop span body rest _ ih => exact (ih _).trans (Bool.and_false _)

section
variable (before : Program)

@[simp] lemma emptyLoops_reverse_act (span : Span) (a : Action) :
    (act span a before).reverse.emptyLoops = before.reverse.emptyLoops :=
  (emptyLoops_reverseOnto before _).trans (List.append_nil _)

@[simp] lemma emptyLoops_reverse_loop (span : Span) (body : Program) :
    (loop span body before).reverse.emptyLoops =
      before.reverse.emptyLoops ++ (if body.isDone then [span] else body.emptyLoops) := by
  rw [reverse, reverseOnto, emptyLoops_reverseOnto, emptyLoops, emptyLoops, List.append_nil]

@[simp] lemma isDone_reverse : before.reverse.isDone = before.isDone :=
  (isDone_reverseOnto before .done).trans (Bool.and_true _)

variable (token : Token) (step : Int32)

@[simp] lemma emptyLoops_addStep :
    (before.addStep token step).reverse.emptyLoops = before.reverse.emptyLoops := by
  unfold addStep
  split <;> simp

@[simp] lemma emptyLoops_shiftStep :
    (before.shiftStep token step).reverse.emptyLoops = before.reverse.emptyLoops := by
  unfold shiftStep
  split <;> simp

@[simp] lemma isDone_addStep : (before.addStep token step).isDone = false := by
  unfold addStep
  split <;> rfl

@[simp] lemma isDone_shiftStep : (before.shiftStep token step).isDone = false := by
  unfold shiftStep
  split <;> rfl

end

end Program

/-- The places of the opening brackets that the next command closes. -/
def emptyPairs : List (Nat × Symbol) → List Nat
  | [] => []
  | (start, symbol) :: rest =>
    (if symbol = .opening ∧ (rest.map Prod.snd).head? = some .closing then [start] else []) ++
      emptyPairs rest

lemma emptyPairs_of_ne {start : Nat} {symbol : Symbol} (h : symbol ≠ .opening)
    (rest : List (Nat × Symbol)) : emptyPairs ((start, symbol) :: rest) = emptyPairs rest := by
  simp [emptyPairs, h]

/-- The places of the empty loops that the parser has collected. -/
def collectedLoops (before : Program) : List OpenLoop → List Nat
  | [] => before.reverse.emptyLoops.map (·.start)
  | opened :: outer =>
    collectedLoops opened.before outer ++ before.reverse.emptyLoops.map (·.start)

/-- The opening bracket that the parser has read last, if it has read one last. -/
def justOpened (before : Program) (enclosing : List OpenLoop) : List (Nat × Symbol) :=
  if before.isDone then enclosing.head?.toList.map fun opened => (opened.start, .opening) else []

lemma collectedLoops_append {before before' : Program} {more : List Span}
    (h : before'.reverse.emptyLoops = before.reverse.emptyLoops ++ more)
    (enclosing : List OpenLoop) :
    collectedLoops before' enclosing = collectedLoops before enclosing ++ more.map (·.start) := by
  cases enclosing <;> simp [collectedLoops, h]

/-- A command other than a closing bracket makes the loop around it not empty. -/
lemma emptyPairs_justOpened {symbol : Symbol} (h : symbol ≠ .closing) (before : Program)
    (enclosing : List OpenLoop) (start : Nat) (rest : List (Nat × Symbol)) :
    emptyPairs (justOpened before enclosing ++ (start, symbol) :: rest) =
      emptyPairs ((start, symbol) :: rest) := by
  unfold justOpened
  split
  · cases enclosing <;> simp [emptyPairs, h]
  · rfl

/-- What the parser has collected of empty loops, and what is left of them in the text. -/
def emptyStarts (before : Program) (enclosing : List OpenLoop) (rest : List (Nat × Symbol)) :
    List Nat :=
  collectedLoops before enclosing ++ emptyPairs (justOpened before enclosing ++ rest)

section
variable {before before' : Program}
  (hloops : before'.reverse.emptyLoops = before.reverse.emptyLoops) (hdone : before'.isDone = false)
  (enclosing : List OpenLoop) (rest : List (Nat × Symbol))
include hloops hdone

/-- After a command other than a bracket, no more loops are collected and none was just opened. -/
lemma emptyStarts_act : emptyStarts before' enclosing rest =
    collectedLoops before enclosing ++ emptyPairs rest := by
  have hcollected := collectedLoops_append (hloops.trans (List.append_nil _).symm) enclosing
  rw [emptyStarts, hcollected, justOpened, hdone, List.map_nil, List.append_nil]
  rfl

lemma emptyStarts_command {symbol : Symbol} (hopening : symbol ≠ .opening)
    (hclosing : symbol ≠ .closing) (start : Nat) :
    emptyStarts before enclosing ((start, symbol) :: rest) =
      emptyStarts before' enclosing rest := by
  rw [emptyStarts_act hloops hdone, emptyStarts, emptyPairs_justOpened hclosing,
    emptyPairs_of_ne hopening]

lemma emptyStarts_clear (start middle last : Nat) :
    emptyStarts before enclosing
        ((start, .opening) :: (middle, .minus) :: (last, .closing) :: rest) =
      emptyStarts before' enclosing rest := by
  rw [emptyStarts_act hloops hdone, emptyStarts, emptyPairs_justOpened (by decide)]
  simp [emptyPairs]

end

lemma emptyStarts_opening (before : Program) (enclosing : List OpenLoop) (start : Nat)
    (rest : List (Nat × Symbol)) :
    emptyStarts before enclosing ((start, .opening) :: rest) =
      emptyStarts .done (⟨start, before⟩ :: enclosing) rest := by
  rw [emptyStarts, emptyPairs_justOpened (by decide)]
  simp [emptyStarts, collectedLoops, justOpened, Program.reverse, Program.reverseOnto,
    Program.emptyLoops, Program.isDone]

lemma emptyStarts_closing (before : Program) (opened : OpenLoop) (outer : List OpenLoop)
    (start stop : Nat) (rest : List (Nat × Symbol)) :
    emptyStarts before (opened :: outer) ((start, .closing) :: rest) =
      emptyStarts (.loop ⟨opened.start, stop⟩ before.reverse opened.before) outer rest := by
  have hloop := Program.emptyLoops_reverse_loop opened.before ⟨opened.start, stop⟩ before.reverse
  have hnone : justOpened (.loop ⟨opened.start, stop⟩ before.reverse opened.before) outer = [] :=
    rfl
  rw [emptyStarts, emptyStarts, hnone, collectedLoops_append hloop, collectedLoops,
    Program.isDone_reverse]
  cases before with
  | done => simp [justOpened, Program.reverse, Program.reverseOnto, Program.emptyLoops,
      Program.isDone, emptyPairs]
  | act | loop => simp [justOpened, Program.isDone, emptyPairs]

/-- The parser finds the empty loops: every token keeps what is collected and what is left. -/
lemma emptyLoops_ofTokensFrom {stop : Nat} {before p : Program} {enclosing : List OpenLoop}
    {tokens : List Token} (h : Program.ofTokensFrom stop before enclosing tokens = .ok p) :
    p.emptyLoops.map (·.start) = emptyStarts before enclosing (tokens.map Token.place) := by
  fun_induction Program.ofTokensFrom stop before enclosing tokens with
  | case1 before =>
    cases h
    simp [emptyStarts, collectedLoops, justOpened, emptyPairs]
  | case2 => cases h
  | case3 before enclosing start _ _ _ last _ rest ih =>
    -- the loop that clears the cell is one command, and its brackets are not empty either
    rw [ih h]
    exact (emptyStarts_clear (by simp) rfl ..).symm
  | case4 before enclosing token rest _ hsymbol ih
  | case5 before enclosing token rest _ hsymbol ih
  | case6 before enclosing token rest _ hsymbol ih
  | case7 before enclosing token rest _ hsymbol ih =>
    rw [ih h, List.map_cons, Token.place, hsymbol]
    exact (emptyStarts_command (by simp) (by simp) enclosing _ (by decide) (by decide) _).symm
  | case8 before enclosing token rest _ hsymbol ih
  | case9 before enclosing token rest _ hsymbol ih =>
    rw [ih h, List.map_cons, Token.place, hsymbol]
    exact (emptyStarts_command (by simp) rfl enclosing _ (by decide) (by decide) _).symm
  | case10 before enclosing token rest _ hsymbol ih =>
    rw [ih h, List.map_cons, Token.place, hsymbol, emptyStarts_opening]
  | case11 => cases h
  | case12 before token rest _ hsymbol opened outer ih =>
    rw [ih h, List.map_cons, Token.place, hsymbol, ← emptyStarts_closing]

/-- What stands before each opening bracket that the next command closes; `seen` was read. -/
def emptyBrackets (seen : List Char) : List Char → List (List Char)
  | [] => []
  | c :: rest =>
    (if c = '[' ∧ rest.findSome? Symbol.ofChar? = some .closing then [seen] else []) ++
      emptyBrackets (seen ++ [c]) rest

/-- Only an opening bracket can begin an empty loop. -/
lemma emptyPairs_other {c : Char} (h : c ≠ '[') (offset : Nat) (rest : List Char) :
    emptyPairs (commandsFrom offset (c :: rest)) =
      emptyPairs (commandsFrom (offset + c.utf8Size) rest) := by
  rw [commandsFrom]
  split
  case h_1 symbol hsymbol =>
    apply emptyPairs_of_ne
    rintro rfl
    exact h (Symbol.toChar_of_ofChar? hsymbol).symm
  case h_2 => rfl

lemma emptyPairs_commandsFrom (seen rest : List Char) :
    emptyPairs (commandsFrom (byteLength seen) rest) =
      (emptyBrackets seen rest).map byteLength := by
  induction rest generalizing seen with
  | nil => rfl
  | cons c rest ih =>
    have hrest := ih (seen ++ [c])
    rw [byteLength_append, byteLength_singleton] at hrest
    rw [emptyBrackets, List.map_append, ← hrest]
    by_cases hc : c = '['
    · subst hc
      simp only [commandsFrom, Symbol.ofChar?, emptyPairs, symbols_commandsFrom,
        List.head?_filterMap, true_and]
      split <;> rfl
    · rw [emptyPairs_other hc, if_neg fun h => hc h.1]
      rfl

/-- The bracket that opens after `before` is closed with nothing but comments inside. -/
def OpensEmpty (text before : List Char) : Prop :=
  ∃ comments after, text = before ++ '[' :: (comments ++ ']' :: after) ∧
    ∀ c ∈ comments, Symbol.ofChar? c = none

lemma findSome?_eq_closing {rest : List Char} :
    rest.findSome? Symbol.ofChar? = some .closing ↔
      ∃ comments after, rest = comments ++ ']' :: after ∧
        ∀ c ∈ comments, Symbol.ofChar? c = none := by
  rw [List.findSome?_eq_some_iff]
  constructor
  · rintro ⟨comments, c, after, rfl, hc, hcomments⟩
    exact ⟨comments, after, by rw [← Symbol.toChar_of_ofChar? hc]; rfl, hcomments⟩
  · rintro ⟨comments, after, rfl, hcomments⟩
    exact ⟨comments, ']', after, rfl, rfl, hcomments⟩

/-- Either the bracket comes first, or it comes after the first character. -/
lemma opensEmpty_cons_iff {before seen rest : List Char} {c : Char} :
    seen <+: before ∧ OpensEmpty (seen ++ c :: rest) before ↔
      (before = seen ∧ c = '[' ∧ rest.findSome? Symbol.ofChar? = some .closing) ∨
        seen ++ [c] <+: before ∧ OpensEmpty (seen ++ [c] ++ rest) before := by
  constructor
  · rintro ⟨⟨more, rfl⟩, comments, after, hsplit, hcomments⟩
    rw [List.append_assoc, List.append_cancel_left_eq] at hsplit
    cases more with
    | nil =>
      obtain ⟨rfl, rfl⟩ := List.cons.inj hsplit
      have hclosing := findSome?_eq_closing.mpr ⟨comments, after, rfl, hcomments⟩
      exact .inl ⟨List.append_nil seen, rfl, hclosing⟩
    | cons d more =>
      obtain ⟨rfl, rfl⟩ := List.cons.inj hsplit
      exact .inr ⟨⟨more, by simp⟩, comments, after, by simp, hcomments⟩
  · rintro (⟨rfl, rfl, hclosing⟩ | ⟨hseen, hempty⟩)
    · obtain ⟨comments, after, rfl, hcomments⟩ := findSome?_eq_closing.mp hclosing
      exact ⟨List.prefix_rfl, comments, after, rfl, hcomments⟩
    · rw [← List.append_cons] at hempty
      exact ⟨(List.prefix_append seen [c]).trans hseen, hempty⟩

lemma mem_emptyBrackets {before seen rest : List Char} :
    before ∈ emptyBrackets seen rest ↔ seen <+: before ∧ OpensEmpty (seen ++ rest) before := by
  induction rest generalizing seen with
  | nil =>
    refine ⟨nofun, ?_⟩
    rintro ⟨⟨more, rfl⟩, comments, after, hsplit, -⟩
    simp at hsplit
  | cons c rest ih =>
    rw [opensEmpty_cons_iff, ← ih, emptyBrackets, List.mem_append]
    refine or_congr_left ?_
    split
    case isTrue h => simp only [List.mem_singleton, h, and_true]
    case isFalse h => simp only [List.not_mem_nil, h, and_false]

lemma pairwise_emptyBrackets (seen rest : List Char) :
    (emptyBrackets seen rest).Pairwise
      (fun before later => byteLength before < byteLength later) := by
  induction rest generalizing seen with
  | nil => exact .nil
  | cons c rest ih =>
    refine List.pairwise_append.mpr ⟨by split <;> simp, ih _, ?_⟩
    intro before hbefore later hlater
    split at hbefore
    · obtain ⟨⟨more, rfl⟩, -⟩ := mem_emptyBrackets.mp hlater
      have hsize := c.utf8Size_pos
      rw [List.mem_singleton.mp hbefore]
      simp only [byteLength_append, byteLength_singleton]
      omega
    · cases hbefore

/-- The empty loops of a program start at the brackets of its text that have nothing but comments
inside. -/
theorem emptyLoops_ofText {text : String} {p : Program} (h : Program.ofText text = .ok p) :
    p.emptyLoops.map (·.start) = (emptyBrackets [] text.toList).map byteLength := by
  rw [emptyLoops_ofTokensFrom h, Token.map_place_ofText, ← emptyPairs_commandsFrom]
  rfl

end CilAssembly.Brainfuck

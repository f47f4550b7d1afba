import CilAssembly.Proofs.Brainfuck.Brackets

/-!
Spans. The commands of a program tile its text: each stands for exactly the characters of its span,
and between the spans there are only comments.
-/
namespace CilAssembly.Brainfuck

/-- The eight command characters. -/
def isCommand (c : Char) : Bool :=
  c ∈ ['+', '-', '>', '<', '.', ',', '[', ']']

lemma isCommand_toChar (symbol : Symbol) : isCommand symbol.toChar = true := by
  cases symbol <;> decide

lemma ofChar?_eq_none {c : Char} : Symbol.ofChar? c = none ↔ isCommand c = false := by
  constructor
  · intro h
    rw [← Bool.not_eq_true, isCommand, decide_eq_true_eq]
    simp only [List.mem_cons, List.not_mem_nil, or_false]
    rintro (rfl | rfl | rfl | rfl | rfl | rfl | rfl | rfl) <;> cases h
  · intro h
    cases hc : Symbol.ofChar? c with
    | none => rfl
    | some symbol =>
      rw [← Symbol.toChar_of_ofChar? hc, isCommand_toChar] at h
      cases h

lemma byteLength_eq_zero {cs : List Char} (h : byteLength cs = 0) : cs = [] := by
  cases cs with
  | nil => rfl
  | cons c cs =>
    have hsize := c.utf8Size_pos
    rw [byteLength_cons] at h
    omega

/-- Of two beginnings of a text, the one with fewer bytes is a beginning of the other. -/
lemma prefix_of_byteLength_le {cs ds text : List Char} (hcs : cs <+: text) (hds : ds <+: text)
    (h : byteLength cs ≤ byteLength ds) : cs <+: ds := by
  obtain hle | ⟨more, rfl⟩ := List.prefix_or_prefix_of_prefix hcs hds
  · exact hle
  · rw [byteLength_append] at h
    obtain rfl : more = [] := byteLength_eq_zero (by omega)
    rw [List.append_nil]

/-- Two beginnings of a text with the same number of bytes are the same. -/
lemma eq_of_byteLength_eq {cs ds text : List Char} (hcs : cs <+: text) (hds : ds <+: text)
    (h : byteLength cs = byteLength ds) : cs = ds := by
  obtain ⟨more, rfl⟩ := prefix_of_byteLength_le hcs hds h.le
  rw [byteLength_append] at h
  obtain rfl : more = [] := byteLength_eq_zero (by omega)
  rw [List.append_nil]

/-- The characters of a text from one byte offset to another. -/
def Slice (text : List Char) (start stop : Nat) (cs : List Char) : Prop :=
  ∃ before after, text = before ++ (cs ++ after) ∧ byteLength before = start ∧
    byteLength (before ++ cs) = stop

namespace Slice
variable {text cs ds : List Char} {a b c : Nat}

/-- The end of one slice is the beginning of another. -/
lemma meet {before after : List Char} (h : text = before ++ after) (h' : Slice text a b cs)
    (ha : byteLength before = a) : ∃ rest, after = cs ++ rest ∧ byteLength (before ++ cs) = b := by
  obtain ⟨before', rest, hsplit, rfl, rfl⟩ := h'
  obtain rfl : before = before' :=
    eq_of_byteLength_eq ⟨after, h.symm⟩ ⟨cs ++ rest, hsplit.symm⟩ ha
  exact ⟨rest, List.append_cancel_left (h.symm.trans hsplit), rfl⟩

lemma unique (h : Slice text a b cs) (h' : Slice text a b ds) : cs = ds := by
  obtain ⟨before, after, hsplit, hstart, hstop⟩ := h
  obtain ⟨rest, hrest, hstop'⟩ := meet hsplit h' hstart
  have hds : before ++ ds <+: text := ⟨rest, by rw [hsplit, hrest, List.append_assoc]⟩
  have hcs : before ++ cs <+: text := ⟨after, by rw [hsplit, List.append_assoc]⟩
  exact List.append_cancel_left (eq_of_byteLength_eq hcs hds (hstop.trans hstop'.symm))

lemma append (h : Slice text a b cs) (h' : Slice text b c ds) : Slice text a c (cs ++ ds) := by
  obtain ⟨before, after, hsplit, hstart, hstop⟩ := h
  rw [← List.append_assoc] at hsplit
  obtain ⟨rest, rfl, hstop'⟩ := meet hsplit h' hstop
  exact ⟨before, rest, by simpa using hsplit, hstart, by rw [← List.append_assoc, hstop']⟩

lemma length (h : Slice text a b cs) : a + byteLength cs = b := by
  obtain ⟨before, after, -, rfl, rfl⟩ := h
  rw [byteLength_append]

lemma le (h : Slice text a b cs) : a ≤ b := by
  have hlength := h.length
  omega

lemma nil_left (h : Slice text a b cs) : Slice text a a [] := by
  obtain ⟨before, after, rfl, rfl, -⟩ := h
  exact ⟨before, cs ++ after, rfl, rfl, by rw [List.append_nil]⟩

lemma nil_right (h : Slice text a b cs) : Slice text b b [] := by
  obtain ⟨before, after, rfl, -, rfl⟩ := h
  exact ⟨before ++ cs, after, by simp, rfl, by rw [List.append_nil]⟩

/-- A slice is the beginning of what is left of the text. -/
lemma isPrefix (h : Slice text a b cs) (h' : Slice text a (byteLength text) ds) : cs <+: ds := by
  obtain ⟨before, after, hsplit, hstart, hstop⟩ := h
  have hrest : Slice text a (byteLength text) (cs ++ after) :=
    ⟨before, [], by rw [List.append_nil, hsplit], hstart, by rw [hsplit]⟩
  exact ⟨after, hrest.unique h'⟩

lemma whole (text : List Char) : Slice text 0 (byteLength text) text :=
  ⟨[], [], by simp, rfl, rfl⟩

end Slice

/-- From one offset to another a text has comments only. -/
def Gap (text : List Char) (start stop : Nat) : Prop :=
  ∃ cs, Slice text start stop cs ∧ ∀ c ∈ cs, isCommand c = false

/-- A command character stands at an offset. -/
def CommandAt (text : List Char) (offset : Nat) (symbol : Symbol) : Prop :=
  Slice text offset (offset + 1) [symbol.toChar]

namespace Gap
variable {text : List Char} {a b c : Nat}

lemma trans (h : Gap text a b) (h' : Gap text b c) : Gap text a c := by
  obtain ⟨cs, hcs, hcomments⟩ := h
  obtain ⟨ds, hds, hcomments'⟩ := h'
  exact ⟨cs ++ ds, hcs.append hds, List.forall_mem_append.mpr ⟨hcomments, hcomments'⟩⟩

lemma le (h : Gap text a b) : a ≤ b := by
  obtain ⟨cs, hcs, -⟩ := h
  exact hcs.le

lemma of_slice {cs : List Char} (h : Slice text a b cs) : Gap text a a :=
  ⟨[], h.nil_left, by simp⟩

end Gap

/-- A run of steps with comments among and after them, and its net effect. -/
structure SpellsRun (up down : Char) (net : Int32) (cs : List Char) : Prop where
  head : cs.head? = some up ∨ cs.head? = some down
  others : ∀ c ∈ cs, isCommand c = true → c = up ∨ c = down
  net : net = .ofInt (cs.count up - cs.count down)

namespace Action

/-- The characters that a command stands for. -/
def Spelled : Action → List Char → Prop
  | .add amount, cs => SpellsRun '+' '-' amount cs
  | .shift offset, cs => SpellsRun '>' '<' offset cs
  | .output, cs => cs = ['.']
  | .input, cs => cs = [',']
  | .clear, cs =>
    cs.head? = some '[' ∧ cs.getLast? = some ']' ∧ cs.filter isCommand = ['[', '-', ']']

/-- A command stands for the characters of a span. -/
def Stands (a : Action) (text : List Char) (span : Span) : Prop :=
  span.start < span.stop ∧ ∃ cs, Slice text span.start span.stop cs ∧ a.Spelled cs

/-- Two commands that one run of steps would be. -/
def joins : Action → Action → Bool
  | .add _, .add _ => true
  | .shift _, .shift _ => true
  | _, _ => false

end Action

/-- A span goes from a bracket to its partner and does not spell the command that clears the cell. -/
def LoopStands (text : List Char) (span : Span) : Prop :=
  span.start < span.stop ∧ ∃ inner, Slice text span.start span.stop ('[' :: inner ++ [']']) ∧
    Balanced inner ∧ ('[' :: inner ++ [']']).filter isCommand ≠ ['[', '-', ']']

namespace Program

/-- The first command, unless it is a loop. -/
def firstAction? : Program → Option Action
  | .act _ a _ => some a
  | _ => none

/-- The commands of a sequence tile a text from one offset to another: spans follow one another with
comments before, between and after them, each command stands for the characters of its span, and no
two neighbours are parts of one run. The body of a loop tiles what is between its brackets. -/
def Tiles (text : List Char) (start stop : Nat) : Program → Prop
  | .done => Gap text start stop
  | .act span a rest =>
    start ≤ span.start ∧ Gap text start span.start ∧ a.Stands text span ∧
      (∀ b ∈ rest.firstAction?, a.joins b = false) ∧ rest.Tiles text span.stop stop
  | .loop span body rest =>
    start ≤ span.start ∧ Gap text start span.start ∧ LoopStands text span ∧
      body.Tiles text (span.start + 1) (span.stop - 1) ∧ rest.Tiles text span.stop stop

/-- The end of the newest of commands that stand newest first. -/
def lastStop (start : Nat) : Program → Nat
  | .done => start
  | .act span _ _ => span.stop
  | .loop span _ _ => span.stop

/-- Commands that stand newest first tile a text up to the end of the newest one. -/
def TilesBack (text : List Char) (start : Nat) : Program → Prop
  | .done => True
  | .act span a older =>
    Gap text (older.lastStop start) span.start ∧ a.Stands text span ∧
      (∀ b ∈ older.firstAction?, a.joins b = false) ∧ older.TilesBack text start
  | .loop span body older =>
    Gap text (older.lastStop start) span.start ∧ LoopStands text span ∧
      body.Tiles text (span.start + 1) (span.stop - 1) ∧ older.TilesBack text start

end Program

section Order
variable {text : List Char} {start stop : Nat}

lemma Action.joins_comm (a b : Action) : a.joins b = b.joins a := by
  cases a <;> cases b <;> rfl

/-- Commands that stand newest first, before others that tile the rest. -/
lemma tiles_reverseOnto {p q : Program} (hp : p.TilesBack text start)
    (hq : q.Tiles text (p.lastStop start) stop)
    (hjoin : ∀ a ∈ p.firstAction?, ∀ b ∈ q.firstAction?, a.joins b = false) :
    (p.reverseOnto q).Tiles text start stop := by
  induction p generalizing q with
  | done => exact hq
  | act span a older ih =>
    obtain ⟨hgap, hstands, holder, htiles⟩ := hp
    refine ih htiles ⟨hgap.le, hgap, hstands, hjoin a rfl, hq⟩ ?_
    rintro b hb _ ⟨⟩
    rw [Action.joins_comm, holder b hb]
  | loop span body older _ ih =>
    obtain ⟨hgap, hstands, hbody, htiles⟩ := hp
    refine ih htiles ⟨hgap.le, hgap, hstands, hbody, hq⟩ ?_
    rintro _ _ _ ⟨⟩

lemma tiles_reverse {p : Program} (hp : p.TilesBack text start)
    (hgap : Gap text (p.lastStop start) stop) : p.reverse.Tiles text start stop :=
  tiles_reverseOnto hp hgap (by rintro _ _ _ ⟨⟩)

end Order

section Balance
variable {cs : List Char}

/-- Comments do not matter for the balance of brackets. -/
lemma balanced_of_filter (h : Balanced (cs.filter isCommand)) : Balanced cs := by
  have hcount (ds : List Char) : (ds.filter isCommand).count '[' = ds.count '[' ∧
      (ds.filter isCommand).count ']' = ds.count ']' :=
    ⟨List.count_filter (by decide), List.count_filter (by decide)⟩
  refine ⟨?_, by rw [← (hcount cs).1, ← (hcount cs).2, h.count]⟩
  intro before hbefore
  have hle := h.nested _ (hbefore.filter isCommand)
  rwa [(hcount before).1, (hcount before).2] at hle

lemma balanced_of_forall (h : ∀ c ∈ cs, c ≠ '[' ∧ c ≠ ']') : Balanced cs := by
  induction cs with
  | nil => exact .nil
  | cons c cs ih =>
    obtain ⟨⟨hopening, hclosing⟩, hcs⟩ := List.forall_mem_cons.mp h
    exact (Balanced.singleton hopening hclosing).append (ih hcs)

lemma notMem_comments (h : ∀ c ∈ cs, isCommand c = false) {c : Char} (hc : isCommand c = true) :
    c ∉ cs := by
  intro hmem
  rw [h c hmem] at hc
  cases hc

lemma filter_comments (h : ∀ c ∈ cs, isCommand c = false) : cs.filter isCommand = [] :=
  List.filter_eq_nil_iff.mpr fun c hc => by simp [h c hc]

lemma balanced_of_comments (h : ∀ c ∈ cs, isCommand c = false) : Balanced cs :=
  balanced_of_filter (filter_comments h ▸ .nil)

lemma SpellsRun.balanced {up down : Char} {net : Int32} (h : SpellsRun up down net cs)
    (hup : up ≠ '[' ∧ up ≠ ']') (hdown : down ≠ '[' ∧ down ≠ ']') : Balanced cs := by
  refine balanced_of_filter (balanced_of_forall fun c hc => ?_)
  obtain ⟨hc, hcommand⟩ := List.mem_filter.mp hc
  obtain rfl | rfl := h.others c hc hcommand
  · exact hup
  · exact hdown

lemma Action.Spelled.balanced {a : Action} (h : a.Spelled cs) : Balanced cs := by
  cases a with
  | add amount => exact SpellsRun.balanced h (by decide) (by decide)
  | shift offset => exact SpellsRun.balanced h (by decide) (by decide)
  | output =>
    obtain rfl : cs = ['.'] := h
    exact .singleton (by decide) (by decide)
  | input =>
    obtain rfl : cs = [','] := h
    exact .singleton (by decide) (by decide)
  | clear =>
    obtain ⟨-, -, hcommands⟩ := h
    refine balanced_of_filter (hcommands ▸ ?_)
    exact Balanced.loop (.singleton (c := '-') (by decide) (by decide))

/-- What a program tiles has its brackets in pairs. -/
lemma tiles_balanced {text : List Char} {start stop : Nat} {p : Program}
    (h : p.Tiles text start stop) : ∃ cs, Slice text start stop cs ∧ Balanced cs := by
  induction p generalizing start with
  | done =>
    obtain ⟨cs, hcs, hcomments⟩ := h
    exact ⟨cs, hcs, balanced_of_comments hcomments⟩
  | act span a rest ih =>
    obtain ⟨-, ⟨gap, hgap, hcomments⟩, ⟨-, ds, hds, hspelled⟩, -, hrest⟩ := h
    obtain ⟨es, hes, hbalanced⟩ := ih hrest
    exact ⟨_, (hgap.append hds).append hes,
      ((balanced_of_comments hcomments).append hspelled.balanced).append hbalanced⟩
  | loop span body rest _ ih =>
    obtain ⟨-, ⟨gap, hgap, hcomments⟩, ⟨-, inner, hinner, hloop, -⟩, -, hrest⟩ := h
    obtain ⟨es, hes, hbalanced⟩ := ih hrest
    exact ⟨_, (hgap.append hinner).append hes,
      ((balanced_of_comments hcomments).append hloop.loop).append hbalanced⟩

lemma Program.Tiles.le {text : List Char} {start stop : Nat} {p : Program}
    (h : p.Tiles text start stop) : start ≤ stop := by
  obtain ⟨cs, hcs, -⟩ := tiles_balanced h
  exact hcs.le

end Balance

section Tokens
variable {text : List Char}

/-- Tokens list the command characters of a text from an offset on, each with the comment after it. -/
def Listed (text : List Char) (offset : Nat) : List Token → Prop
  | [] => Gap text offset (byteLength text)
  | token :: rest =>
    Gap text offset token.start ∧ CommandAt text token.start token.symbol ∧
      Gap text (token.start + 1) token.stop ∧ Listed text token.stop rest

/-- Command characters that stand newest first are those of a text up to an offset. -/
def Found (text : List Char) (offset : Nat) : List (Nat × Symbol) → Prop
  | [] => Gap text 0 offset
  | (start, symbol) :: earlier =>
    CommandAt text start symbol ∧ Gap text (start + 1) offset ∧ Found text start earlier

lemma Listed.after_gap {start offset : Nat} {tokens : List Token} (hgap : Gap text start offset)
    (h : Listed text offset tokens) : Listed text start tokens := by
  cases tokens with
  | nil => exact hgap.trans h
  | cons token rest => exact ⟨hgap.trans h.1, h.2⟩

lemma Found.before_gap {offset stop : Nat} {found : List (Nat × Symbol)} (h : Found text offset found)
    (hgap : Gap text offset stop) : Found text stop found := by
  cases found with
  | nil => exact Gap.trans h hgap
  | cons command earlier => exact ⟨h.1, h.2.1.trans hgap, h.2.2⟩

/-- Reading a text character by character finds its command characters. -/
lemma found_symbolsOnto {found : List (Nat × Symbol)} {seen rest : List Char}
    (hsplit : text = seen ++ rest) (h : Found text (byteLength seen) found) :
    Found text (byteLength text) (Token.symbolsOnto found (byteLength seen) rest).1 := by
  induction rest generalizing found seen with
  | nil =>
    obtain rfl : text = seen := hsplit.trans (List.append_nil seen)
    exact h
  | cons c rest ih =>
    have hc : Slice text (byteLength seen) (byteLength (seen ++ [c])) [c] :=
      ⟨seen, rest, hsplit, rfl, rfl⟩
    have hnext : byteLength seen + c.utf8Size = byteLength (seen ++ [c]) := by
      rw [byteLength_append, byteLength_singleton]
    rw [List.append_cons] at hsplit
    rw [Token.symbolsOnto, hnext]
    cases hsymbol : Symbol.ofChar? c with
    | none =>
      have hcomment : Gap text (byteLength seen) (byteLength (seen ++ [c])) :=
        ⟨[c], hc, by simpa using ofChar?_eq_none.mp hsymbol⟩
      exact ih hsplit (h.before_gap hcomment)
    | some symbol =>
      obtain rfl := Symbol.toChar_of_ofChar? hsymbol
      have hsize : byteLength (seen ++ [symbol.toChar]) = byteLength seen + 1 := by
        rw [← hnext]
        cases symbol <;> rfl
      rw [hsize] at hc
      refine ih hsplit ⟨hc, ?_, h⟩
      rw [hsize]
      exact ⟨[], hc.nil_right, by simp⟩

lemma listed_ofSymbolsOnto {stop : Nat} {found : List (Nat × Symbol)} {tokens : List Token}
    (hfound : Found text stop found) (h : Listed text stop tokens) :
    Listed text 0 (Token.ofSymbolsOnto tokens stop found) := by
  induction found generalizing stop tokens with
  | nil => exact h.after_gap hfound
  | cons command earlier ih =>
    obtain ⟨start, symbol⟩ := command
    obtain ⟨hcommand, hgap, hearlier⟩ := hfound
    exact ih hearlier ⟨.of_slice hcommand, hcommand, hgap, h⟩

/-- The tokens of a text are its command characters, each with the comment after it. -/
theorem listed_ofText (text : String) : Listed text.toList 0 (Token.ofText text) := by
  have hwhole := Slice.whole text.toList
  have hfound : Found text.toList (byteLength text.toList)
      (Token.symbolsOnto [] 0 text.toList).1 :=
    found_symbolsOnto (List.nil_append _).symm (Gap.of_slice hwhole)
  have hstop : (Token.symbolsOnto [] 0 text.toList).2 = byteLength text.toList := by
    rw [Token.symbolsOnto_eq, Nat.zero_add]
  have hnone : Listed text.toList (byteLength text.toList) [] := Gap.of_slice hwhole.nil_right
  rw [← hstop] at hfound hnone
  exact listed_ofSymbolsOnto hfound hnone

/-- What tokens list has their characters as its commands. -/
lemma Listed.slice {offset : Nat} {tokens : List Token} (h : Listed text offset tokens) :
    ∃ cs, Slice text offset (byteLength text) cs ∧
      cs.filter isCommand = tokens.map (·.symbol.toChar) := by
  induction tokens generalizing offset with
  | nil =>
    obtain ⟨cs, hcs, hcomments⟩ := h
    exact ⟨cs, hcs, filter_comments hcomments⟩
  | cons token rest ih =>
    obtain ⟨⟨before, hbefore, hcomments⟩, hcommand, ⟨after, hafter, hcomments'⟩, hrest⟩ := h
    obtain ⟨cs, hcs, hcommands⟩ := ih hrest
    refine ⟨_, ((hbefore.append hcommand).append hafter).append hcs, ?_⟩
    simp [filter_comments hcomments, filter_comments hcomments', hcommands, isCommand_toChar]

end Tokens

/-- Two command characters for opposite steps. -/
structure Opposite (up down : Char) : Prop where
  ne : up ≠ down
  up : isCommand up = true
  down : isCommand down = true

section Runs
variable {up down c : Char} {step : Int32} {comments : List Char} (h : Opposite up down)
  (hstep : c = up ∧ step = 1 ∨ c = down ∧ step = -1)
  (hcomments : ∀ d ∈ comments, isCommand d = false)
include h hstep hcomments

/-- A step counts once. -/
lemma count_step :
    ((c :: comments).count up - (c :: comments).count down : Int) = step.toInt := by
  have hnone {d : Char} (hd : isCommand d = true) : comments.count d = 0 :=
    List.count_eq_zero.mpr (notMem_comments hcomments hd)
  obtain ⟨rfl, rfl⟩ | ⟨rfl, rfl⟩ := hstep
  · simp [hnone h.up, hnone h.down, h.ne]
  · simp [hnone h.up, hnone h.down, h.ne.symm]

omit h in
lemma mem_step : ∀ d ∈ c :: comments, isCommand d = true → d = up ∨ d = down := by
  intro d hd hcommand
  obtain rfl | hd := List.mem_cons.mp hd
  · exact hstep.imp And.left And.left
  · exact absurd hd (notMem_comments hcomments hcommand)

/-- A single step is a run. -/
lemma spellsRun_step : SpellsRun up down step (c :: comments) where
  head := by
    obtain ⟨rfl, -⟩ | ⟨rfl, -⟩ := hstep
    · exact .inl rfl
    · exact .inr rfl
  others := mem_step hstep hcomments
  net := by rw [count_step h hstep hcomments, Int32.ofInt_toInt]

/-- A run and one more step are a run. -/
lemma SpellsRun.append {net : Int32} {run gap : List Char} (hrun : SpellsRun up down net run)
    (hgap : ∀ d ∈ gap, isCommand d = false) :
    SpellsRun up down (net + step) (run ++ gap ++ c :: comments) where
  head := by
    obtain ⟨d, hd⟩ : ∃ d, run.head? = some d := hrun.head.elim (⟨_, ·⟩) (⟨_, ·⟩)
    have hhead : (run ++ gap ++ c :: comments).head? = run.head? := by
      rw [List.append_assoc, List.head?_append, hd, Option.some_or]
    rw [hhead]
    exact hrun.head
  others := by
    refine List.forall_mem_append.mpr ⟨List.forall_mem_append.mpr ⟨hrun.others, ?_⟩,
      mem_step hstep hcomments⟩
    intro d hd hcommand
    exact absurd hd (notMem_comments hgap hcommand)
  net := by
    have hnone {d : Char} (hd : isCommand d = true) : gap.count d = 0 :=
      List.count_eq_zero.mpr (notMem_comments hgap hd)
    have hcount := count_step h hstep hcomments
    have hsum : ((run ++ gap ++ c :: comments).count up -
        (run ++ gap ++ c :: comments).count down : Int) =
        (run.count up - run.count down) + step.toInt := by
      rw [← hcount]
      simp only [List.count_append, hnone h.up, hnone h.down]
      omega
    rw [hsum, Int32.ofInt_add, ← hrun.net, Int32.ofInt_toInt]

end Runs

/-- No command that clears the cell starts at an offset. -/
def NoClear (text : List Char) (offset : Nat) : Prop :=
  ∀ stop cs, Slice text offset stop cs → cs.filter isCommand ≠ ['[', '-', ']']

/-- Where the commands since the innermost open loop start. -/
def bodyStart : List OpenLoop → Nat
  | [] => 0
  | opened :: _ => opened.start + 1

/-- The commands before each open loop tile the text up to its bracket. -/
def Opened (text : List Char) : List OpenLoop → Prop
  | [] => True
  | opened :: outer =>
    CommandAt text opened.start .opening ∧ NoClear text opened.start ∧
      Gap text (opened.before.lastStop (bodyStart outer)) opened.start ∧
      opened.before.TilesBack text (bodyStart outer) ∧ Opened text outer

/-- The parser has come to an offset, and what it has collected tiles the text up to there. -/
structure Reached (text : List Char) (before : Program) (enclosing : List OpenLoop) (here : Nat) :
    Prop where
  opened : Opened text enclosing
  tiles : before.TilesBack text (bodyStart enclosing)
  gap : Gap text (before.lastStop (bodyStart enclosing)) here

namespace Reached
variable {text : List Char} {before : Program} {enclosing : List OpenLoop} {here next : Nat}

/-- A command is added behind the others. -/
lemma act {span : Span} {a : Action} (h : Reached text before enclosing here)
    (hgap : Gap text here span.start) (hstands : a.Stands text span)
    (hjoin : ∀ b ∈ before.firstAction?, a.joins b = false) (hnext : Gap text span.stop next) :
    Reached text (.act span a before) enclosing next :=
  ⟨h.opened, ⟨h.gap.trans hgap, hstands, hjoin, h.tiles⟩, hnext⟩

/-- The newest command takes in what comes next. -/
lemma extend {span : Span} {a a' : Action} {older : Program} {cs : List Char}
    (h : Reached text (.act span a older) enclosing here) (hcs : Slice text here next cs)
    (hjoins : ∀ b, a'.joins b = a.joins b)
    (hspelled : ∀ run gap, a.Spelled run → (∀ c ∈ gap, isCommand c = false) →
      a'.Spelled (run ++ gap ++ cs)) :
    Reached text (.act ⟨span.start, next⟩ a' older) enclosing next := by
  obtain ⟨hgap, ⟨hlt, run, hrun, ha⟩, hjoin, holder⟩ := h.tiles
  obtain ⟨gap, hgap', hcomments⟩ := h.gap
  have hslice := (hrun.append hgap').append hcs
  have hlt' : span.start < next := hlt.trans_le ((hgap'.append hcs).le)
  refine ⟨h.opened, ⟨hgap, ⟨hlt', _, hslice, hspelled run gap ha hcomments⟩, ?_, holder⟩, ?_⟩
  · intro b hb
    rw [hjoins, hjoin b hb]
  · exact Gap.of_slice hslice.nil_right

/-- Comments are passed over. -/
lemma skip (h : Reached text before enclosing here) (hgap : Gap text here next) :
    Reached text before enclosing next :=
  ⟨h.opened, h.tiles, h.gap.trans hgap⟩

section Steps
variable {token : Token} {step : Int32}

variable (h : Reached text before enclosing token.start)
  (htoken : CommandAt text token.start token.symbol) (hgap : Gap text (token.start + 1) token.stop)
include h htoken hgap

/-- A step that is no part of a run before it begins one. -/
lemma first {a : Action}
    (hspelled : ∀ comments, (∀ c ∈ comments, isCommand c = false) →
      a.Spelled (token.symbol.toChar :: comments))
    (hjoin : ∀ b ∈ before.firstAction?, a.joins b = false) :
    Reached text (.act ⟨token.start, token.stop⟩ a before) enclosing token.stop := by
  obtain ⟨comments, hslice, hcomments⟩ := hgap
  have hrun := htoken.append hslice
  have hlt : token.start < token.stop := hslice.le
  exact h.act (.of_slice hrun) ⟨hlt, _, hrun, hspelled _ hcomments⟩ hjoin (.of_slice hrun.nil_right)

lemma addStep (hstep : token.symbol.toChar = '+' ∧ step = 1 ∨
      token.symbol.toChar = '-' ∧ step = -1) :
    Reached text (before.addStep token step) enclosing token.stop := by
  have hcells : Opposite '+' '-' := ⟨by decide, by decide, by decide⟩
  have hfirst := h.first htoken hgap (a := .add step) fun _ => spellsRun_step hcells hstep
  cases before with
  | done | loop => exact hfirst (by rintro _ ⟨⟩)
  | act span a older =>
    cases a with
    | add amount =>
      obtain ⟨comments, hslice, hcomments⟩ := hgap
      exact h.extend (htoken.append hslice) (fun b => by cases b <;> rfl) fun run gap hrun =>
        SpellsRun.append hcells hstep hcomments hrun
    | shift | output | input | clear => exact hfirst (by rintro _ ⟨⟩; rfl)

lemma shiftStep (hstep : token.symbol.toChar = '>' ∧ step = 1 ∨
      token.symbol.toChar = '<' ∧ step = -1) :
    Reached text (before.shiftStep token step) enclosing token.stop := by
  have hmoves : Opposite '>' '<' := ⟨by decide, by decide, by decide⟩
  have hfirst := h.first htoken hgap (a := .shift step) fun _ => spellsRun_step hmoves hstep
  cases before with
  | done | loop => exact hfirst (by rintro _ ⟨⟩)
  | act span a older =>
    cases a with
    | shift offset =>
      obtain ⟨comments, hslice, hcomments⟩ := hgap
      exact h.extend (htoken.append hslice) (fun b => by cases b <;> rfl) fun run gap hrun =>
        SpellsRun.append hmoves hstep hcomments hrun
    | add | output | input | clear => exact hfirst (by rintro _ ⟨⟩; rfl)

end Steps

/-- A loop that only counts its cell down is one command. -/
lemma clear {start minus last : Nat} (h : Reached text before enclosing start)
    (hopening : CommandAt text start .opening) (hgap : Gap text (start + 1) minus)
    (hminus : CommandAt text minus .minus) (hgap' : Gap text (minus + 1) last)
    (hclosing : CommandAt text last .closing) :
    Reached text (.act ⟨start, last + 1⟩ .clear before) enclosing (last + 1) := by
  obtain ⟨cs, hcs, hcomments⟩ := hgap
  obtain ⟨ds, hds, hcomments'⟩ := hgap'
  have hinner := ((hcs.append hminus).append hds).append hclosing
  have hspelled : Action.clear.Spelled ('[' :: (cs ++ ['-'] ++ ds ++ [']'])) := by
    refine ⟨rfl, ?_, ?_⟩
    · rw [← List.cons_append, List.getLast?_concat]
    · have hbrackets : isCommand '[' = true ∧ isCommand ']' = true := by decide
      have hdash : isCommand '-' = true := by decide
      simp [filter_comments hcomments, filter_comments hcomments', hbrackets, hdash]
  exact h.act (.of_slice hopening) ⟨hinner.le, _, hopening.append hinner, hspelled⟩
    (by rintro (_ | _) _ <;> rfl) (.of_slice hclosing.nil_right)

/-- A bracket and its partner, with a body that the parser has read, are a loop. -/
lemma closing {opened : OpenLoop} {outer : List OpenLoop} {last : Nat}
    (h : Reached text before (opened :: outer) last) (hlast : CommandAt text last .closing) :
    Reached text (.loop ⟨opened.start, last + 1⟩ before.reverse opened.before) outer
      (last + 1) := by
  obtain ⟨hopening, hclear, hgap, htiles, houter⟩ := h.opened
  have hbody : before.reverse.Tiles text (opened.start + 1) last := tiles_reverse h.tiles h.gap
  obtain ⟨inner, hinner, hbalanced⟩ := tiles_balanced hbody
  have hslice : Slice text opened.start (last + 1) ('[' :: inner ++ [']']) :=
    (hopening.append hinner).append hlast
  have hlt : opened.start < last + 1 := ((hinner.append hlast).le : opened.start + 1 ≤ last + 1)
  exact ⟨houter, ⟨hgap, ⟨hlt, inner, hslice, hbalanced, hclear _ _ hslice⟩, hbody, htiles⟩,
    .of_slice hlast.nil_right⟩

end Reached

/-- A bracket that the parser does not take for the command to clear the cell spells no such
command. -/
lemma noClear_of_listed {text : List Char} {token : Token} {rest : List Token}
    (h : Listed text token.start (token :: rest))
    (hclear : ¬[.minus, .closing] <+: rest.map (·.symbol)) : NoClear text token.start := by
  intro last cs hcs hcommands
  obtain ⟨ds, hds, hsymbols⟩ := h.slice
  have hbefore := (hcs.isPrefix hds).filter isCommand
  rw [hcommands, hsymbols, List.map_cons, List.cons_prefix_cons] at hbefore
  have hnext := hbefore.2.filterMap Symbol.ofChar?
  have hsymbols' : (rest.map (·.symbol.toChar)).filterMap Symbol.ofChar? = rest.map (·.symbol) := by
    rw [List.filterMap_map, ← List.filterMap_eq_map]
    exact List.filterMap_congr fun token _ => Symbol.ofChar?_toChar token.symbol
  rw [hsymbols'] at hnext
  exact hclear hnext

/-- The parser keeps to the text: every token takes it to where the token ends. -/
lemma tiles_ofTokensFrom {text : List Char} {stop here : Nat} {before p : Program}
    {enclosing : List OpenLoop} {tokens : List Token} (h : Reached text before enclosing here)
    (hlisted : Listed text here tokens)
    (hp : Program.ofTokensFrom stop before enclosing tokens = .ok p) :
    p.Tiles text 0 (byteLength text) := by
  fun_induction Program.ofTokensFrom stop before enclosing tokens generalizing here with
  | case1 before =>
    obtain rfl := Except.ok.inj hp
    exact tiles_reverse h.tiles (h.gap.trans hlisted)
  | case2 => cases hp
  | case3 before enclosing start _ _ _ last _ rest ih =>
    obtain ⟨hgap, hopening, hafter, hbefore, hminus, hafter', hbefore', hclosing, hend, hrest⟩ :=
      hlisted
    have hclear := (h.skip hgap).clear hopening (hafter.trans hbefore) hminus
      (hafter'.trans hbefore') hclosing
    exact ih (hclear.skip hend) hrest hp
  | case4 before enclosing token rest _ hsymbol ih =>
    obtain ⟨hgap, htoken, hafter, hrest⟩ := hlisted
    exact ih ((h.skip hgap).addStep htoken hafter (.inl ⟨by rw [hsymbol]; rfl, rfl⟩)) hrest hp
  | case5 before enclosing token rest _ hsymbol ih =>
    obtain ⟨hgap, htoken, hafter, hrest⟩ := hlisted
    exact ih ((h.skip hgap).addStep htoken hafter (.inr ⟨by rw [hsymbol]; rfl, rfl⟩)) hrest hp
  | case6 before enclosing token rest _ hsymbol ih =>
    obtain ⟨hgap, htoken, hafter, hrest⟩ := hlisted
    exact ih ((h.skip hgap).shiftStep htoken hafter (.inl ⟨by rw [hsymbol]; rfl, rfl⟩)) hrest hp
  | case7 before enclosing token rest _ hsymbol ih =>
    obtain ⟨hgap, htoken, hafter, hrest⟩ := hlisted
    exact ih ((h.skip hgap).shiftStep htoken hafter (.inr ⟨by rw [hsymbol]; rfl, rfl⟩)) hrest hp
  | case8 before enclosing token rest _ hsymbol ih
  | case9 before enclosing token rest _ hsymbol ih =>
    obtain ⟨hgap, htoken, hafter, hrest⟩ := hlisted
    rw [hsymbol] at htoken
    exact ih (h.act hgap ⟨Nat.lt_succ_self _, _, htoken, rfl⟩ (by rintro (_ | _) _ <;> rfl) hafter)
      hrest hp
  | case10 before enclosing token rest hclear hsymbol ih =>
    have hno := noClear_of_listed ⟨.of_slice hlisted.2.1, hlisted.2⟩ (not_clear hsymbol hclear)
    obtain ⟨hgap, htoken, hafter, hrest⟩ := hlisted
    rw [hsymbol] at htoken
    have hreached := h.skip hgap
    exact ih ⟨⟨htoken, hno, hreached.gap, h.tiles, h.opened⟩, trivial, hafter⟩ hrest hp
  | case11 => cases hp
  | case12 before token rest _ hsymbol opened outer ih =>
    obtain ⟨hgap, htoken, hafter, hrest⟩ := hlisted
    rw [hsymbol] at htoken
    exact ih (((h.skip hgap).closing htoken).skip hafter) hrest hp

namespace Program

/-- The stretches of text that the commands of a program take up, nested ones included. A loop itself
takes up its brackets only. -/
def pieces : Program → List Span
  | .done => []
  | .act span _ rest => span :: rest.pieces
  | .loop span body rest =>
    ⟨span.start, span.start + 1⟩ :: (body.pieces ++ ⟨span.stop - 1, span.stop⟩ :: rest.pieces)

/-- The number of commands that take up an offset. -/
def uses (p : Program) (offset : Nat) : Nat :=
  p.pieces.countP fun span => span.start ≤ offset ∧ offset < span.stop

end Program

section Uses
variable {text before after : List Char} {c : Char} (hsplit : text = before ++ c :: after)
  (hc : isCommand c = true)
include hsplit hc

/-- Comments are no command characters. -/
lemma Gap.outside {start stop : Nat} (h : Gap text start stop) :
    byteLength before < start ∨ stop ≤ byteLength before := by
  obtain ⟨cs, ⟨front, rest, htext, rfl, rfl⟩, hcomments⟩ := h
  by_contra! hinside
  obtain ⟨hstart, hstop⟩ := hinside
  rw [← List.append_assoc] at htext
  obtain ⟨more, rfl⟩ : front <+: before :=
    prefix_of_byteLength_le ⟨cs ++ rest, by rw [htext, List.append_assoc]⟩ ⟨_, hsplit.symm⟩ hstart
  obtain ⟨inner, rfl⟩ : more <+: cs :=
    (List.prefix_append_right_inj front).mp
      (prefix_of_byteLength_le ⟨_, hsplit.symm⟩ ⟨rest, htext.symm⟩ hstop.le)
  -- what is left of the gap begins with the command character
  have hnext : c :: after = inner ++ rest := by
    rw [← List.append_assoc, List.append_assoc] at htext
    exact List.append_cancel_left (hsplit.symm.trans htext)
  obtain _ | ⟨d, inner⟩ := inner
  · rw [List.append_nil] at hstop
    exact hstop.false
  · obtain rfl : c = d := (List.cons.inj hnext).1
    exact notMem_comments hcomments hc (by simp)

/-- A command takes up each command character that it tiles, and no other. -/
lemma uses_of_tiles {start stop : Nat} {p : Program} (h : p.Tiles text start stop) :
    p.uses (byteLength before) =
      if start ≤ byteLength before ∧ byteLength before < stop then 1 else 0 := by
  induction p generalizing start stop with
  | done =>
    have houtside := Gap.outside hsplit hc h
    rw [if_neg (by omega)]
    rfl
  | act span a rest ih =>
    obtain ⟨hle, hgap, ⟨hlt, -⟩, -, hrest⟩ := h
    have houtside := hgap.outside hsplit hc
    have hstop := hrest.le
    have huses := ih hrest
    rw [Program.uses] at huses ⊢
    rw [Program.pieces, List.countP_cons, huses]
    simp only [decide_eq_true_eq]
    split_ifs <;> omega
  | loop span body rest ihBody ihRest =>
    obtain ⟨hle, hgap, ⟨hlt, -⟩, hbody, hrest⟩ := h
    have houtside := hgap.outside hsplit hc
    have hinner := hbody.le
    have hstop := hrest.le
    have husesBody := ihBody hbody
    have husesRest := ihRest hrest
    rw [Program.uses] at husesBody husesRest ⊢
    rw [Program.pieces, List.countP_cons, List.countP_append, List.countP_cons, husesBody,
      husesRest]
    simp only [decide_eq_true_eq]
    split_ifs <;> omega

end Uses

/-- The commands of a program are faithful to its text. At every depth their spans tile the text,
each command stands for what is in its span, and every command character is part of exactly one
command. -/
theorem ofText_tiles {text : String} {p : Program} (h : Program.ofText text = .ok p) :
    p.Tiles text.toList 0 text.utf8ByteSize ∧
      ∀ before c after, text.toList = before ++ c :: after → isCommand c = true →
        p.uses (byteLength before) = 1 := by
  have hsize : byteLength text.toList = text.utf8ByteSize := by
    rw [byteLength, String.ofList_toList]
  have hstart : Reached text.toList .done [] 0 :=
    ⟨trivial, trivial, .of_slice (Slice.whole text.toList)⟩
  have htiles := tiles_ofTokensFrom hstart (listed_ofText text) h
  rw [hsize] at htiles
  refine ⟨htiles, ?_⟩
  intro before c after hsplit hc
  have hinside : byteLength before < text.utf8ByteSize := by
    have hpos := c.utf8Size_pos
    rw [← hsize, hsplit, byteLength_append, byteLength_cons]
    omega
  rw [uses_of_tiles hsplit hc htiles, if_pos ⟨Nat.zero_le _, hinside⟩]

/-- A program with comments of several bytes, a run across one of them, a command that clears the
cell and a loop inside a loop. -/
theorem ofText_tiles_nested : ∃ p, Program.ofText "é+é-+[é-]>[[,]é<.]" = .ok p ∧
    p.Tiles "é+é-+[é-]>[[,]é<.]".toList 0 22 ∧ p.uses 13 = 1 := by
  have hparse : ∃ p, Program.ofText "é+é-+[é-]>[[,]é<.]" = .ok p := ⟨_, rfl⟩
  obtain ⟨p, hp⟩ := hparse
  obtain ⟨htiles, huses⟩ := ofText_tiles hp
  exact ⟨p, hp, htiles, huses "é+é-+[é-]>".toList '[' "[,]é<.]".toList rfl rfl⟩

end CilAssembly.Brainfuck

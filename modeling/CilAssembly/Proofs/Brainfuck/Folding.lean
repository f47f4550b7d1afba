import CilAssembly.Proofs.Brainfuck.Reading

/-!
Folding keeps the meaning of a text. Where reading a text character by character comes to its end,
the program that the text spells ends in the same store.
-/
namespace CilAssembly.Brainfuck

namespace Store
variable {s t : Store} {v : UInt8}

lemma cell_eq_ok : s.cell = .ok v ↔ ∃ n, s.position = .ok n ∧ s.cells.getD n 0 = v := by
  unfold cell
  cases s.position <;> simp [bind, Except.bind, pure, Except.pure]

lemma lt_of_position {n : Nat} (h : s.position = .ok n) : n < s.cells.size := by
  unfold position at h
  split at h
  · cases h
    omega
  · cases h

/-- Writing keeps the position. -/
lemma position_write (h : s.write v = .ok t) : t.position = s.position := by
  obtain ⟨n, -, rfl⟩ := write_eq_ok.mp h
  simp [position]

/-- A cell holds what was written last. -/
lemma cell_write (h : s.write v = .ok t) : t.cell = .ok v := by
  have hposition := position_write h
  obtain ⟨n, hn, rfl⟩ := write_eq_ok.mp h
  refine cell_eq_ok.mpr ⟨n, hposition.trans hn, ?_⟩
  simp [lt_of_position hn]

lemma write_write (h : s.write v = .ok t) (w : UInt8) : t.write w = s.write w := by
  have hposition := position_write h
  obtain ⟨n, hn, rfl⟩ := write_eq_ok.mp h
  simp [write, hposition, hn, bind, Except.bind, pure, Except.pure]

/-- Writing what a cell holds changes nothing. -/
lemma write_cell (h : s.cell = .ok v) : s.write v = .ok s := by
  obtain ⟨n, hn, rfl⟩ := cell_eq_ok.mp h
  refine write_eq_ok.mpr ⟨n, hn, ?_⟩
  have hlt := lt_of_position hn
  have hcells : s.cells.setIfInBounds n (s.cells.getD n 0) = s.cells := by
    simp [Array.setIfInBounds, Array.getD, hlt]
  rw [hcells]

lemma exists_write (h : s.cell = .ok v) (w : UInt8) : ∃ t, s.write w = .ok t := by
  obtain ⟨n, hn, -⟩ := cell_eq_ok.mp h
  exact ⟨_, write_eq_ok.mpr ⟨n, hn, rfl⟩⟩

lemma cell_blank (input : Stream' Int32) : (blank input).cell = .ok 0 := by
  refine cell_eq_ok.mpr ⟨0, ?_, ?_⟩
  · simp [blank, position]
  · simp [blank]

lemma update_eq_ok {f : UInt8 → UInt8} :
    (do s.write (f (← s.cell))) = .ok t ↔ ∃ v, s.cell = .ok v ∧ s.write (f v) = .ok t := by
  cases s.cell <;> simp [bind, Except.bind]

/-- Adding works modulo 256, also where it adds nothing. -/
lemma perform_add (h : s.cell = .ok v) (amount : Int32) :
    s.perform false (.add amount) = s.write (v + .ofInt amount.toInt) := by
  by_cases hzero : amount = 0
  · subst amount
    have hv : v + .ofInt (0 : Int32).toInt = v := UInt8.add_zero v
    rw [hv, write_cell h, perform, if_pos rfl]
  · rw [perform, if_neg hzero, h]
    simp [bind, Except.bind, UInt8.ofInt_add, ofInt_toNat]

/-- An addition that is not void reads the current cell. -/
lemma cell_of_perform_add {amount : Int32} (h : s.perform false (.add amount) = .ok t)
    (hcell : t.cell = .ok v) : ∃ w, s.cell = .ok w := by
  by_cases hzero : amount = 0
  · rw [perform, if_pos hzero] at h
    cases h
    exact ⟨v, hcell⟩
  · rw [perform, if_neg hzero] at h
    cases hs : s.cell with
    | ok w => exact ⟨w, rfl⟩
    | error trap =>
      rw [hs] at h
      cases h

/-- Two additions are one, whose amount wraps at 32 bits. -/
lemma perform_add_add {amount : Int32} (h : s.perform false (.add amount) = .ok t)
    (hcell : t.cell = .ok v) (step : Int32) :
    s.perform false (.add (amount + step)) = t.write (v + .ofInt step.toInt) := by
  obtain ⟨w, hw⟩ := cell_of_perform_add h hcell
  have hwrite : s.write (w + .ofInt amount.toInt) = .ok t := (perform_add hw amount).symm.trans h
  cases (cell_write hwrite).symm.trans hcell
  rw [perform_add hw, Int32.toInt_add, ofInt_bmod (by decide), UInt8.ofInt_add, ← UInt8.add_assoc,
    write_write hwrite]

end Store

namespace Program

/-- What commands do that stand newest first. -/
def Executed : Program → Store → Store → Prop
  | .done, s, u => s = u
  | .act _ a before, s, u => ∃ t, before.Executed s t ∧ t.perform false a = .ok u
  | .loop _ body before, s, u =>
    ∃ t, before.Executed s t ∧ Iterates (fun t u => body.Runs false t (.halted u)) t u

lemma runs_loop {span : Span} {body rest : Program} {s t : Store} {e : Ending}
    (h : Iterates (fun s t => body.Runs false s (.halted t)) s t) (h' : rest.Runs false t e) :
    (Program.loop span body rest).Runs false s e := by
  induction h with
  | stop test => exact .loopSkip test h'
  | again test entered inner _ ih => exact .loopAgain test entered inner (ih h')

/-- Commands that stand newest first run before what follows them. -/
lemma runs_reverseOnto {before rest : Program} {s t : Store} {e : Ending}
    (h : before.Executed s t) (h' : rest.Runs false t e) :
    (before.reverseOnto rest).Runs false s e := by
  induction before generalizing rest t with
  | done =>
    cases h
    exact h'
  | act span a before ih =>
    obtain ⟨r, hr, hstep⟩ := h
    exact ih hr (.act hstep h')
  | loop span body before _ ih =>
    obtain ⟨r, hr, hloop⟩ := h
    exact ih hr (runs_loop hloop h')

lemma executed_addStep {before : Program} {s t u : Store} {v : UInt8} (token : Token) (step : Int32)
    (h : before.Executed s t) (hcell : t.cell = .ok v)
    (hwrite : t.write (v + .ofInt step.toInt) = .ok u) :
    (before.addStep token step).Executed s u := by
  unfold addStep
  split
  case h_1 span amount before =>
    obtain ⟨r, hr, hadd⟩ := h
    exact ⟨r, hr, (Store.perform_add_add hadd hcell step).trans hwrite⟩
  case h_2 before hbefore =>
    exact ⟨t, h, (Store.perform_add hcell step).trans hwrite⟩

lemma executed_shiftStep {before : Program} {s t : Store} (token : Token) (step : Int32)
    (h : before.Executed s t) :
    (before.shiftStep token step).Executed s { t with pointer := t.pointer + step } := by
  unfold shiftStep
  split
  case h_1 span offset before =>
    obtain ⟨r, hr, hshift⟩ := h
    cases hshift
    refine ⟨r, hr, ?_⟩
    rw [Store.perform, Int32.add_assoc]
  case h_2 before hbefore => exact ⟨t, h, rfl⟩

end Program

section Characters
variable {before : Program} {s t u : Store} (token : Token) (h : before.Executed s t)
include h

lemma executed_plus (hstep : interpret '+' t = .ok u) : (before.addStep token 1).Executed s u := by
  obtain ⟨v, hcell, hwrite⟩ := Store.update_eq_ok.mp hstep
  exact Program.executed_addStep token 1 h hcell hwrite

lemma executed_minus (hstep : interpret '-' t = .ok u) :
    (before.addStep token (-1)).Executed s u := by
  obtain ⟨v, hcell, hwrite⟩ := Store.update_eq_ok.mp hstep
  rw [UInt8.sub_eq_add_neg] at hwrite
  exact Program.executed_addStep token (-1) h hcell hwrite

lemma executed_right (hstep : interpret '>' t = .ok u) :
    (before.shiftStep token 1).Executed s u := by
  cases hstep
  exact Program.executed_shiftStep token 1 h

lemma executed_left (hstep : interpret '<' t = .ok u) :
    (before.shiftStep token (-1)).Executed s u := by
  cases hstep
  rw [Int32.sub_eq_add_neg]
  exact Program.executed_shiftStep token (-1) h

end Characters

/-- A loop that counts its cell down to zero clears it. -/
lemma perform_clear {s t : Store} (h : Iterates (fun s t => interpret '-' s = .ok t) s t) :
    s.perform false .clear = .ok t := by
  induction h with
  | stop test => exact Store.write_cell test
  | again test entered body tail ih =>
    obtain ⟨v, -, hwrite⟩ := Store.update_eq_ok.mp body
    exact (Store.write_write hwrite 0).symm.trans ih

/-- The stretch of text that the parser has read does what the commands say that it has collected:
those before each open loop, and those since the innermost one. -/
inductive Follows : List OpenLoop → Program → List Char → Prop
  | outermost {before cs} (covers : Covers before.Executed cs) : Follows [] before cs
  | inside {opened enclosing before cs inner} (outer : Follows enclosing opened.before cs)
      (covers : Covers before.Executed inner) :
      Follows (opened :: enclosing) before (cs ++ '[' :: inner)

namespace Follows
variable {enclosing : List OpenLoop} {opened : OpenLoop} {before before' : Program}
  {cs ds : List Char}

lemma append {effect : Store → Store → Prop} (h : Follows enclosing before cs)
    (h' : Covers effect ds)
    (heffect : ∀ {s t u}, before.Executed s t → effect t u → before'.Executed s u) :
    Follows enclosing before' (cs ++ ds) := by
  have hmono (s u : Store) : (∃ t, before.Executed s t ∧ effect t u) → before'.Executed s u :=
    fun ⟨_, ht, hu⟩ => heffect ht hu
  cases h with
  | outermost covers => exact .outermost ((covers.append h').mono hmono)
  | inside outer covers =>
    rw [List.append_assoc]
    exact .inside outer ((covers.append h').mono hmono)

lemma comments (h : Follows enclosing before cs) (h' : ∀ c ∈ ds, Symbol.ofChar? c = none) :
    Follows enclosing before (cs ++ ds) :=
  h.append (.comments h') fun hst htu => htu ▸ hst

lemma opening (h : Follows enclosing opened.before cs) :
    Follows (opened :: enclosing) .done (cs ++ ['[']) :=
  .inside h .nil

lemma closing (h : Follows (opened :: enclosing) before cs) (span : Span) :
    Follows enclosing (.loop span before.reverse opened.before) (cs ++ [']']) := by
  cases h with
  | @inside _ _ _ cs inner outer covers =>
    have hbody : Covers (fun s t => before.reverse.Runs false s (.halted t)) inner :=
      covers.mono fun s t h => Program.runs_reverseOnto h .done
    rw [List.append_assoc]
    exact outer.append hbody.loop fun hst htu => ⟨_, hst, htu⟩

end Follows

/-- The parser is midway in a text: it has collected commands, and other symbols are left. -/
inductive Midway (text : List Char) (enclosing : List OpenLoop) (before : Program)
    (symbols : List Symbol) : Prop
  | mk {seen rest} (split : text = seen ++ rest) (follows : Follows enclosing before seen)
      (left : rest.filterMap Symbol.ofChar? = symbols)

/-- Comments stand before the next command. -/
lemma exists_comments {cs : List Char} {symbol : Symbol} {symbols : List Symbol}
    (h : cs.filterMap Symbol.ofChar? = symbol :: symbols) :
    ∃ comments rest, cs = comments ++ symbol.toChar :: rest ∧
      (∀ c ∈ comments, Symbol.ofChar? c = none) ∧ rest.filterMap Symbol.ofChar? = symbols := by
  obtain ⟨comments, c, rest, rfl, hcomments, hc, hrest⟩ := List.filterMap_eq_cons_iff.mp h
  rw [Symbol.toChar_of_ofChar? hc]
  exact ⟨comments, rest, rfl, hcomments, hrest⟩

/-- A body of one command does what the command does, whatever comments stand around it. -/
lemma covers_minus {cs ds : List Char} (hcs : ∀ c ∈ cs, Symbol.ofChar? c = none)
    (hds : ∀ c ∈ ds, Symbol.ofChar? c = none) :
    Covers (fun s t => interpret '-' s = .ok t) (cs ++ '-' :: ds) := by
  have hminus := Covers.singleton (c := '-') (by decide) (by decide)
  apply ((Covers.comments hcs).append (hminus.append (.comments hds))).mono
  rintro s u ⟨_, rfl, _, hstep, rfl⟩
  exact hstep

namespace Midway
variable {text : List Char} {enclosing : List OpenLoop} {opened : OpenLoop}
  {before before' : Program} {symbol : Symbol} {symbols : List Symbol}

/-- The comments before a command are passed over. -/
lemma next (h : Midway text enclosing before (symbol :: symbols)) :
    ∃ seen rest, text = seen ++ symbol.toChar :: rest ∧ Follows enclosing before seen ∧
      rest.filterMap Symbol.ofChar? = symbols := by
  obtain ⟨split, follows, left⟩ := h
  obtain ⟨comments, rest, rfl, hcomments, hrest⟩ := exists_comments left
  exact ⟨_, rest, by rw [split, List.append_assoc], follows.comments hcomments, hrest⟩

lemma command (h : Midway text enclosing before (symbol :: symbols))
    (hopening : symbol.toChar ≠ '[') (hclosing : symbol.toChar ≠ ']')
    (heffect : ∀ {s t u}, before.Executed s t → interpret symbol.toChar t = .ok u →
      before'.Executed s u) :
    Midway text enclosing before' symbols := by
  obtain ⟨seen, rest, split, follows, left⟩ := h.next
  rw [List.append_cons] at split
  exact ⟨split, follows.append (.singleton hopening hclosing) heffect, left⟩

lemma opening (h : Midway text enclosing opened.before (.opening :: symbols)) :
    Midway text (opened :: enclosing) .done symbols := by
  obtain ⟨seen, rest, split, follows, left⟩ := h.next
  rw [List.append_cons] at split
  exact ⟨split, follows.opening, left⟩

lemma closing (h : Midway text (opened :: enclosing) before (.closing :: symbols)) (span : Span) :
    Midway text enclosing (.loop span before.reverse opened.before) symbols := by
  obtain ⟨seen, rest, split, follows, left⟩ := h.next
  rw [List.append_cons] at split
  exact ⟨split, follows.closing span, left⟩

lemma clear (h : Midway text enclosing before (.opening :: .minus :: .closing :: symbols))
    (span : Span) : Midway text enclosing (.act span .clear before) symbols := by
  obtain ⟨seen, _, split, follows, left⟩ := h.next
  obtain ⟨cs, _, rfl, hcs, left⟩ := exists_comments left
  obtain ⟨ds, rest, rfl, hds, left⟩ := exists_comments left
  have hloop := (covers_minus hcs hds).loop
  refine ⟨?_, follows.append hloop fun hst htu => ⟨_, hst, perform_clear htu⟩, left⟩
  simpa [Symbol.toChar] using split

/-- At the end the whole text does what the commands say. -/
lemma covers (h : Midway text [] before []) : Covers before.Executed text := by
  obtain ⟨rfl, follows, left⟩ := h
  cases follows.comments (List.filterMap_eq_nil_iff.mp left) with
  | outermost covers => exact covers

end Midway

/-- What the parser makes of the rest of a text does what the text does. -/
theorem covers_ofTokensFrom {text : List Char} {stop : Nat} {before p : Program}
    {enclosing : List OpenLoop} {tokens : List Token}
    (h : Midway text enclosing before (tokens.map (·.symbol)))
    (hp : Program.ofTokensFrom stop before enclosing tokens = .ok p) :
    Covers (fun s t => p.Runs false s (.halted t)) text := by
  fun_induction Program.ofTokensFrom stop before enclosing tokens with
  | case1 before =>
    cases hp
    exact h.covers.mono fun s t hst => Program.runs_reverseOnto hst .done
  | case2 => cases hp
  | case3 before enclosing start _ _ _ last _ rest ih => exact ih (h.clear _) hp
  | case4 before enclosing token rest _ hsymbol ih =>
    rw [List.map_cons, hsymbol] at h
    exact ih (h.command (by decide) (by decide) (executed_plus token)) hp
  | case5 before enclosing token rest _ hsymbol ih =>
    rw [List.map_cons, hsymbol] at h
    exact ih (h.command (by decide) (by decide) (executed_minus token)) hp
  | case6 before enclosing token rest _ hsymbol ih =>
    rw [List.map_cons, hsymbol] at h
    exact ih (h.command (by decide) (by decide) (executed_right token)) hp
  | case7 before enclosing token rest _ hsymbol ih =>
    rw [List.map_cons, hsymbol] at h
    exact ih (h.command (by decide) (by decide) (executed_left token)) hp
  | case8 before enclosing token rest _ hsymbol ih
  | case9 before enclosing token rest _ hsymbol ih =>
    rw [List.map_cons, hsymbol] at h
    exact ih (h.command (by decide) (by decide) fun hst hstep => ⟨_, hst, hstep⟩) hp
  | case10 before enclosing token rest _ hsymbol ih =>
    rw [List.map_cons, hsymbol] at h
    exact ih (Midway.opening h) hp
  | case11 => cases hp
  | case12 before token rest _ hsymbol opened outer ih =>
    rw [List.map_cons, hsymbol] at h
    exact ih (h.closing _) hp

lemma symbols_ofText (text : String) :
    (Token.ofText text).map (·.symbol) = text.toList.filterMap Symbol.ofChar? := by
  rw [← symbols_commandsFrom 0, ← Token.map_place_ofText, List.map_map]
  rfl

/-- Folding keeps the meaning of a text. Where reading the text one character at a time halts, with
every cell that it uses on the tape, the program halts in the same store and has no other run. -/
theorem ofText_preserves_reading {text : String} {p : Program} (hp : Program.ofText text = .ok p)
    {input : Stream' Int32} {n : Nat} {t : Store}
    (hn : Reading.Halts n ⟨[], text.toList, .blank input⟩ t) (ending : Ending) :
    p.Runs false (.blank input) ending ↔ ending = .halted t := by
  have hstart : Midway text.toList [] .done ((Token.ofText text).map (·.symbol)) :=
    .mk rfl (.outermost .nil) (symbols_ofText text).symm
  have hcovers := covers_ofTokensFrom hstart hp
  rw [← List.append_nil text.toList] at hn
  obtain ⟨u, hruns, m, -, hm⟩ := hcovers.halts hn
  have hu : u = t := by
    cases hm with
    | stop => rfl
    | next step _ => cases step
  subst u
  exact ⟨fun h => h.unique hruns, fun h => h ▸ hruns⟩

/-- Reading counts a cell up to two and down to zero again. -/
lemma halts_countdown {s : Store} (h : s.cell = .ok 0) :
    Reading.Halts 13 ⟨[], "++[ - ].".toList, s⟩ { s with output := s.output ++ [0] } := by
  obtain ⟨one, hone⟩ := Store.exists_write h 1
  have hcell := Store.cell_write hone
  obtain ⟨two, htwo⟩ := Store.exists_write hcell 2
  have hcell' := Store.cell_write htwo
  have hone' : two.write 1 = .ok one := by
    rw [Store.write_write htwo, Store.write_write hone, hone]
  have hzero : one.write 0 = .ok s := by
    rw [Store.write_write hone, Store.write_cell h]
  -- the cell takes the values 0, 1, 2, 1, 0, and the body of the loop is read twice
  repeat
    refine .next (by simp [Reading.step?, interpret, seek, h, hone, hcell, htwo, hcell', hone',
      hzero, bind, Except.bind, pure, Except.pure]; rfl) ?_
  exact .stop

theorem countdown_preserved :
    ∃ p, Program.ofText "++[ - ]." = .ok p ∧
      Reading.Halts 13 ⟨[], "++[ - ].".toList, .blank (Stream'.const (-1))⟩
        { Store.blank (Stream'.const (-1)) with output := [0] } ∧
      ∀ ending, p.Runs false (.blank (Stream'.const (-1))) ending ↔
        ending = .halted { Store.blank (Stream'.const (-1)) with output := [0] } := by
  have hn := halts_countdown (Store.cell_blank (Stream'.const (-1)))
  exact ⟨_, rfl, hn, ofText_preserves_reading rfl hn⟩

end CilAssembly.Brainfuck

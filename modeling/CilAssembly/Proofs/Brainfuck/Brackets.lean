import CilAssembly.Proofs.Brainfuck.Tokens
import Mathlib.Data.List.Infix

/-!
Brackets. A text spells a program exactly where its brackets match; otherwise the error says which
closing bracket comes first that closes nothing, or that the text ends inside a loop.
-/
namespace CilAssembly.Brainfuck

/-- No prefix closes more brackets than it opens. -/
def Nested (cs : List Char) : Prop :=
  ∀ before, before <+: cs → before.count ']' ≤ before.count '['

/-- Every bracket has its partner. -/
structure Balanced (cs : List Char) : Prop where
  nested : Nested cs
  count : cs.count '[' = cs.count ']'

namespace Nested
variable {cs ds : List Char}

lemma append (h : Nested cs) (h' : Nested ds) : Nested (cs ++ ds) := by
  intro before hbefore
  obtain hcs | ⟨more, rfl⟩ :=
    List.prefix_or_prefix_of_prefix hbefore (List.prefix_append cs ds)
  · exact h before hcs
  · have hcs := h cs List.prefix_rfl
    have hmore := h' more ((List.prefix_append_right_inj cs).mp hbefore)
    simp only [List.count_append]
    omega

lemma opening (h : Nested cs) : Nested ('[' :: cs) := by
  intro before hbefore
  obtain rfl | ⟨inner, rfl, hinner⟩ := List.prefix_cons_iff.mp hbefore
  · exact le_rfl
  · have hcount := h inner hinner
    rw [List.count_cons_self, List.count_cons_of_ne (by decide)]
    omega

end Nested

namespace Balanced

lemma nil : Balanced [] := by
  refine ⟨?_, rfl⟩
  intro before hbefore
  rw [List.prefix_nil.mp hbefore]
  exact le_rfl

lemma append {cs ds : List Char} (h : Balanced cs) (h' : Balanced ds) : Balanced (cs ++ ds) := by
  refine ⟨h.nested.append h'.nested, ?_⟩
  rw [List.count_append, List.count_append, h.count, h'.count]

/-- Any other character is balanced. -/
lemma singleton {c : Char} (hopening : c ≠ '[') (hclosing : c ≠ ']') : Balanced [c] := by
  have hopening' : [c].count '[' = 0 := by simp [hopening]
  have hclosing' : [c].count ']' = 0 := by simp [hclosing]
  refine ⟨?_, hopening'.trans hclosing'.symm⟩
  intro before hbefore
  have hcount := hbefore.sublist.count_le ']'
  omega

/-- A loop around a balanced stretch. -/
lemma loop {cs : List Char} (h : Balanced cs) : Balanced ('[' :: cs ++ [']']) := by
  have hcount : ('[' :: cs ++ [']']).count '[' = ('[' :: cs ++ [']']).count ']' := by
    simp [h.count]
  refine ⟨?_, hcount⟩
  intro before hbefore
  obtain rfl | hinner := List.prefix_concat_iff.mp hbefore
  · exact hcount.ge
  · exact h.nested.opening before hinner

end Balanced

/-- A stretch of text leaves the brackets at the given offsets open, the innermost one first. -/
inductive LeavesOpen : List Nat → List Char → Prop
  | none {cs} (balanced : Balanced cs) : LeavesOpen [] cs
  | inside {opened before after} (outer : LeavesOpen opened before) (balanced : Balanced after) :
      LeavesOpen (byteLength before :: opened) (before ++ '[' :: after)

namespace LeavesOpen
variable {opened : List Nat} {cs ds : List Char}

lemma append (h : LeavesOpen opened cs) (h' : Balanced ds) : LeavesOpen opened (cs ++ ds) := by
  cases h with
  | none balanced => exact .none (balanced.append h')
  | inside outer balanced =>
    rw [List.append_assoc, List.cons_append]
    exact .inside outer (balanced.append h')

lemma opening (h : LeavesOpen opened cs) : LeavesOpen (byteLength cs :: opened) (cs ++ ['[']) :=
  .inside h .nil

lemma closing {start : Nat} (h : LeavesOpen (start :: opened) cs) :
    LeavesOpen opened (cs ++ [']']) := by
  cases h with
  | inside outer balanced =>
    rw [List.append_assoc]
    exact outer.append balanced.loop

lemma nested (h : LeavesOpen opened cs) : Nested cs := by
  induction h with
  | none balanced => exact balanced.nested
  | inside outer balanced ih => exact ih.append balanced.nested.opening

lemma count (h : LeavesOpen opened cs) : cs.count '[' = cs.count ']' + opened.length := by
  induction h with
  | none balanced => exact balanced.count
  | inside outer balanced ih =>
    have hafter := balanced.count
    simp only [List.count_append, List.count_cons_self, List.length_cons,
      List.count_cons_of_ne (show '[' ≠ ']' by decide)]
    omega

end LeavesOpen

/-- The brackets that commands leave open, innermost first, or the first closing bracket that closes
nothing. -/
def openBrackets (opened : List Nat) : List (Nat × Symbol) → Except Nat (List Nat)
  | [] => .ok opened
  | (start, symbol) :: rest =>
    match symbol, opened with
    | .opening, _ => openBrackets (start :: opened) rest
    | .closing, _ :: outer => openBrackets outer rest
    | .closing, [] => .error start
    | _, _ => openBrackets opened rest

/-- The error that brackets come to in a text that ends at `stop`. -/
def bracketError? (stop : Nat) : Except Nat (List Nat) → Option SyntaxError
  | .error start => some ⟨.unmatchedClose, ⟨start, start + 1⟩⟩
  | .ok [] => none
  | .ok (_ :: _) => some ⟨.unclosedLoop, ⟨stop, stop⟩⟩

/-- The error of a result that has one. -/
def failure? {ε α : Type} : Except ε α → Option ε
  | .ok _ => none
  | .error e => some e

/-- The parser fails on brackets only. -/
lemma failure?_ofTokensFrom (stop : Nat) (before : Program) (enclosing : List OpenLoop)
    (tokens : List Token) :
    failure? (Program.ofTokensFrom stop before enclosing tokens) =
      bracketError? stop (openBrackets (enclosing.map (·.start)) (tokens.map Token.place)) := by
  fun_induction Program.ofTokensFrom stop before enclosing tokens with
  | case1 => rfl
  | case2 => rfl
  | case3 before enclosing start _ _ _ last _ rest ih => exact ih
  | case4 before enclosing token rest _ hsymbol ih
  | case5 before enclosing token rest _ hsymbol ih
  | case6 before enclosing token rest _ hsymbol ih
  | case7 before enclosing token rest _ hsymbol ih
  | case8 before enclosing token rest _ hsymbol ih
  | case9 before enclosing token rest _ hsymbol ih
  | case10 before enclosing token rest _ hsymbol ih =>
    rw [ih]
    simp [openBrackets, Token.place, hsymbol]
  | case11 before token rest _ hsymbol =>
    simp [openBrackets, Token.place, hsymbol, failure?, bracketError?]
  | case12 before token rest _ hsymbol opened outer ih =>
    rw [ih]
    simp [openBrackets, Token.place, hsymbol]

/-- Where no bracket closes nothing, the brackets left open are the open ones. -/
lemma foldl_openAfter {opened final : List Nat} {tokens : List Token}
    (h : openBrackets opened (tokens.map Token.place) = .ok final) :
    tokens.foldl openAfter opened = final := by
  induction tokens generalizing opened with
  | nil => exact Except.ok.inj h
  | cons token rest ih =>
    obtain ⟨symbol, start, stop⟩ := token
    cases symbol with
    | closing =>
      cases opened with
      | nil => cases h
      | cons start outer => exact ih h
    | _ => exact ih h

/-- Characters other than brackets are passed over. -/
lemma openBrackets_other {c : Char} (hopening : c ≠ '[') (hclosing : c ≠ ']') (opened : List Nat)
    (offset : Nat) (rest : List Char) :
    openBrackets opened (commandsFrom offset (c :: rest)) =
      openBrackets opened (commandsFrom (offset + c.utf8Size) rest) := by
  cases h : Symbol.ofChar? c with
  | none => simp only [commandsFrom, h]
  | some symbol =>
    cases symbol with
    | opening => exact absurd (Symbol.toChar_of_ofChar? h).symm hopening
    | closing => exact absurd (Symbol.toChar_of_ofChar? h).symm hclosing
    | _ => simp only [commandsFrom, h, openBrackets]

lemma failure?_eq_none {ε α : Type} {r : Except ε α} (h : failure? r = none) : ∃ a, r = .ok a := by
  cases r with
  | ok a => exact ⟨a, rfl⟩
  | error e => cases h

lemma failure?_eq_some {ε α : Type} {r : Except ε α} {e : ε} (h : failure? r = some e) :
    r = .error e := by
  cases r with
  | ok a => cases h
  | error e' => exact congrArg Except.error (Option.some.inj h)

/-- What the brackets of a text come to: `seen` was read and `rest` is left. -/
lemma openBrackets_commandsFrom {opened : List Nat} {seen : List Char} (h : LeavesOpen opened seen)
    (rest : List Char) :
    match openBrackets opened (commandsFrom (byteLength seen) rest) with
    | .ok final => LeavesOpen final (seen ++ rest)
    | .error start => ∃ before after, seen ++ rest = before ++ ']' :: after ∧ Balanced before ∧
        start = byteLength before := by
  induction rest generalizing opened seen with
  | nil => simpa [commandsFrom, openBrackets] using h
  | cons c rest ih =>
    by_cases hopening : c = '['
    · subst c
      have hrest := ih h.opening
      simpa [commandsFrom, Symbol.ofChar?, openBrackets] using hrest
    by_cases hclosing : c = ']'
    · subst c
      cases opened with
      | nil =>
        cases h with
        | none balanced => exact ⟨seen, rest, rfl, balanced, rfl⟩
      | cons start outer =>
        have hrest := ih h.closing
        simpa [commandsFrom, Symbol.ofChar?, openBrackets] using hrest
    · have hrest := ih (h.append (.singleton hopening hclosing))
      rw [openBrackets_other hopening hclosing]
      simpa using hrest

lemma failure?_ofText (text : String) :
    failure? (Program.ofText text) =
      bracketError? text.utf8ByteSize (openBrackets [] (commandsFrom 0 text.toList)) := by
  rw [Program.ofText, failure?_ofTokensFrom, Token.map_place_ofText]
  rfl

lemma unclosedBracket_eq {text : String} {final : List Nat}
    (h : openBrackets [] (commandsFrom 0 text.toList) = .ok final) :
    unclosedBracket text = final.head? := by
  rw [← Token.map_place_ofText] at h
  rw [unclosedBracket, foldl_openAfter h]

/-- What parsing a text comes to, with the brackets that tell why. -/
inductive Verdict (text : String) : Except SyntaxError Program → Prop
  | accepted {p} (balanced : Balanced text.toList) (unclosed : unclosedBracket text = none) :
      Verdict text (.ok p)
  | unmatched {before after} (split : text.toList = before ++ ']' :: after)
      (balanced : Balanced before) :
      Verdict text (.error ⟨.unmatchedClose, ⟨byteLength before, byteLength before + 1⟩⟩)
  | unclosed {before after} (split : text.toList = before ++ '[' :: after) (nested : Nested before)
      (balanced : Balanced after) (unclosed : unclosedBracket text = some (byteLength before)) :
      Verdict text (.error ⟨.unclosedLoop, ⟨text.utf8ByteSize, text.utf8ByteSize⟩⟩)

theorem verdict_ofText (text : String) : Verdict text (Program.ofText text) := by
  have hfailure := failure?_ofText text
  have hbrackets := openBrackets_commandsFrom (.none .nil) text.toList
  rw [byteLength_nil, List.nil_append] at hbrackets
  cases hopen : openBrackets [] (commandsFrom 0 text.toList) with
  | error start =>
    rw [hopen] at hfailure hbrackets
    obtain ⟨before, after, hsplit, hbalanced, rfl⟩ := hbrackets
    rw [failure?_eq_some hfailure]
    exact .unmatched hsplit hbalanced
  | ok final =>
    have hunclosed := unclosedBracket_eq hopen
    rw [hopen] at hfailure hbrackets
    generalize htext : text.toList = cs at hbrackets
    cases hbrackets with
    | none balanced =>
      obtain ⟨p, hp⟩ := failure?_eq_none hfailure
      rw [hp]
      exact .accepted (htext ▸ balanced) hunclosed
    | inside outer balanced =>
      rw [failure?_eq_some hfailure]
      exact .unclosed htext outer.nested balanced hunclosed

/-- A closing bracket after a balanced stretch closes nothing. -/
lemma not_nested_of_closing {before after : List Char} (h : Balanced before) :
    ¬Nested (before ++ ']' :: after) := by
  intro hnested
  have hcount := hnested (before ++ [']']) ⟨after, by simp⟩
  have hbefore := h.count
  simp only [List.count_append, List.count_singleton_self,
    List.count_cons_of_ne (show ']' ≠ '[' by decide), List.count_nil] at hcount
  omega

/-- An opening bracket before a balanced stretch is never closed. -/
lemma count_ne_of_opening {before after : List Char} (h : Nested before) (h' : Balanced after) :
    (before ++ '[' :: after).count '[' ≠ (before ++ '[' :: after).count ']' := by
  have hbefore := h before List.prefix_rfl
  have hafter := h'.count
  simp only [List.count_append, List.count_cons_self,
    List.count_cons_of_ne (show '[' ≠ ']' by decide)]
  omega

end CilAssembly.Brainfuck

import CilAssembly.Brainfuck.Parser
import Mathlib.Tactic.Common

/-! The tokens of a text: its command characters in order, each at its byte offset. -/
namespace CilAssembly.Brainfuck

namespace Symbol

/-- The character of a command. -/
def toChar : Symbol → Char
  | .plus => '+'
  | .minus => '-'
  | .right => '>'
  | .left => '<'
  | .dot => '.'
  | .comma => ','
  | .opening => '['
  | .closing => ']'

lemma toChar_of_ofChar? {c : Char} {symbol : Symbol} (h : ofChar? c = some symbol) :
    symbol.toChar = c := by
  unfold ofChar? at h
  split at h <;> cases h <;> rfl

lemma ofChar?_toChar (symbol : Symbol) : ofChar? symbol.toChar = some symbol := by
  cases symbol <;> rfl

end Symbol

/-- The number of bytes of a stretch of text. -/
def byteLength (cs : List Char) : Nat :=
  (String.ofList cs).utf8ByteSize

@[simp] lemma byteLength_nil : byteLength [] = 0 := rfl

@[simp] lemma byteLength_append (cs ds : List Char) :
    byteLength (cs ++ ds) = byteLength cs + byteLength ds := by
  rw [byteLength, String.ofList_append, String.utf8ByteSize_append]
  rfl

@[simp] lemma byteLength_singleton (c : Char) : byteLength [c] = c.utf8Size :=
  String.utf8ByteSize_singleton

@[simp] lemma byteLength_cons (c : Char) (cs : List Char) :
    byteLength (c :: cs) = c.utf8Size + byteLength cs := by
  rw [← List.singleton_append, byteLength_append, byteLength_singleton]

/-- The command characters of a stretch of text that starts at an offset. -/
def commandsFrom (offset : Nat) : List Char → List (Nat × Symbol)
  | [] => []
  | c :: rest =>
    match Symbol.ofChar? c with
    | some symbol => (offset, symbol) :: commandsFrom (offset + c.utf8Size) rest
    | none => commandsFrom (offset + c.utf8Size) rest

lemma symbols_commandsFrom (offset : Nat) (cs : List Char) :
    (commandsFrom offset cs).map Prod.snd = cs.filterMap Symbol.ofChar? := by
  induction cs generalizing offset with
  | nil => rfl
  | cons c rest ih => cases h : Symbol.ofChar? c <;> simp [commandsFrom, h, ih]

namespace Token

/-- A token without the end of the comment after it. -/
def place (token : Token) : Nat × Symbol :=
  (token.start, token.symbol)

lemma symbolsOnto_eq (found : List (Nat × Symbol)) (offset : Nat) (cs : List Char) :
    symbolsOnto found offset cs =
      ((commandsFrom offset cs).reverse ++ found, offset + byteLength cs) := by
  induction cs generalizing found offset with
  | nil => rfl
  | cons c rest ih =>
    cases h : Symbol.ofChar? c <;> simp [symbolsOnto, commandsFrom, h, ih, Nat.add_assoc]

lemma map_place_ofSymbolsOnto (tokens : List Token) (stop : Nat) (symbols : List (Nat × Symbol)) :
    (ofSymbolsOnto tokens stop symbols).map place = symbols.reverse ++ tokens.map place := by
  induction symbols generalizing tokens stop with
  | nil => rfl
  | cons s rest ih => simp [ofSymbolsOnto, ih, place]

/-- The tokens of a text are its command characters. -/
theorem map_place_ofText (text : String) :
    (Token.ofText text).map place = commandsFrom 0 text.toList := by
  simp [ofText, symbolsOnto_eq, map_place_ofSymbolsOnto]

end Token

lemma exists_token {symbol : Symbol} {symbols : List Symbol} {tokens : List Token}
    (h : symbol :: symbols = tokens.map (·.symbol)) :
    ∃ start stop rest, tokens = ⟨symbol, start, stop⟩ :: rest ∧ symbols = rest.map (·.symbol) := by
  obtain ⟨⟨_, start, stop⟩, rest, rfl, rfl, hrest⟩ := List.map_eq_cons_iff.mp h.symm
  exact ⟨start, stop, rest, rfl, hrest.symm⟩

/-- An opening bracket is followed by something else than a step down and a closing bracket where the
parser does not take them for one command. -/
lemma not_clear {token : Token} {rest : List Token} (hsymbol : token.symbol = .opening)
    (h : ∀ start next minus next' last next'' more, token = ⟨.opening, start, next⟩ →
      rest = ⟨.minus, minus, next'⟩ :: ⟨.closing, last, next''⟩ :: more → False) :
    ¬[.minus, .closing] <+: rest.map (·.symbol) := by
  rintro ⟨symbols, hsymbols⟩
  obtain ⟨_, _, _, rfl, hclosing⟩ := exists_token hsymbols
  obtain ⟨_, _, _, rfl, -⟩ := exists_token hclosing
  obtain ⟨_, start, next⟩ := token
  cases hsymbol
  exact h _ _ _ _ _ _ _ rfl rfl

end CilAssembly.Brainfuck

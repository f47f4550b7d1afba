import CilAssembly.Brainfuck.Program
import CilAssembly.Brainfuck.SyntaxError

/-!
From text to program. Eight characters are commands and all others are comments. Brackets have to
match; nothing else can go wrong.
-/
namespace CilAssembly.Brainfuck

/-- A command character. -/
inductive Symbol
  | plus | minus | right | left | dot | comma | opening | closing
  deriving DecidableEq, Repr, Inhabited

namespace Symbol

def ofChar? : Char → Option Symbol
  | '+' => some .plus
  | '-' => some .minus
  | '>' => some .right
  | '<' => some .left
  | '.' => some .dot
  | ',' => some .comma
  | '[' => some .opening
  | ']' => some .closing
  | _ => none

end Symbol

/-- A command character at `start`; `stop` is where the comment after it ends. -/
structure Token where
  symbol : Symbol
  start : Nat
  stop : Nat
  deriving DecidableEq, Repr, Inhabited

namespace Token

/-- The command characters with their byte offsets, in reverse order and in front of others, and the
offset of the end of the text. -/
def symbolsOnto (found : List (Nat × Symbol)) (offset : Nat) :
    List Char → List (Nat × Symbol) × Nat
  | [] => (found, offset)
  | c :: rest =>
    let found := match Symbol.ofChar? c with
      | some symbol => (offset, symbol) :: found
      | none => found
    symbolsOnto found (offset + c.utf8Size) rest

/-- The tokens of reversed command characters, in front of others; the last comment ends at `stop`. -/
def ofSymbolsOnto (tokens : List Token) (stop : Nat) : List (Nat × Symbol) → List Token
  | [] => tokens
  | (start, symbol) :: rest => ofSymbolsOnto (⟨symbol, start, stop⟩ :: tokens) start rest

/-- The tokens of a text. -/
def ofText (text : String) : List Token :=
  let (symbols, stop) := symbolsOnto [] 0 text.toList
  ofSymbolsOnto [] stop symbols

end Token

/-- A loop that is still open: where it starts, and the commands before it, newest first. -/
structure OpenLoop where
  start : Nat
  before : Program
  deriving DecidableEq, Repr, Inhabited

namespace Program

/-- Adds a step on the current cell after commands that stand newest first. Steps that follow one
another are one command. -/
def addStep (token : Token) (step : Int32) : Program → Program
  | .act span (.add amount) before => .act ⟨span.start, token.stop⟩ (.add (amount + step)) before
  | before => .act ⟨token.start, token.stop⟩ (.add step) before

/-- Adds a step of the pointer after commands that stand newest first. Steps that follow one another
are one command. -/
def shiftStep (token : Token) (step : Int32) : Program → Program
  | .act span (.shift offset) before => .act ⟨span.start, token.stop⟩ (.shift (offset + step)) before
  | before => .act ⟨token.start, token.stop⟩ (.shift step) before

/-- Reads the remaining tokens. `before` holds the commands read since the innermost open loop,
newest first, `enclosing` the open loops from the innermost on, `stop` is the end of the text. -/
def ofTokensFrom (stop : Nat) (before : Program) (enclosing : List OpenLoop) :
    List Token → Except SyntaxError Program
  | [] =>
    match enclosing with
    | [] => .ok before.reverse
    | _ :: _ => .error ⟨.unclosedLoop, ⟨stop, stop⟩⟩
  | ⟨.opening, start, _⟩ :: ⟨.minus, _, _⟩ :: ⟨.closing, last, _⟩ :: rest =>
    ofTokensFrom stop (.act ⟨start, last + 1⟩ .clear before) enclosing rest
  | token :: rest =>
    match token.symbol with
    | .plus => ofTokensFrom stop (before.addStep token 1) enclosing rest
    | .minus => ofTokensFrom stop (before.addStep token (-1)) enclosing rest
    | .right => ofTokensFrom stop (before.shiftStep token 1) enclosing rest
    | .left => ofTokensFrom stop (before.shiftStep token (-1)) enclosing rest
    | .dot =>
      ofTokensFrom stop (.act ⟨token.start, token.start + 1⟩ .output before) enclosing rest
    | .comma =>
      ofTokensFrom stop (.act ⟨token.start, token.start + 1⟩ .input before) enclosing rest
    | .opening => ofTokensFrom stop .done (⟨token.start, before⟩ :: enclosing) rest
    | .closing =>
      match enclosing with
      | [] => .error ⟨.unmatchedClose, ⟨token.start, token.start + 1⟩⟩
      | opened :: outer =>
        ofTokensFrom stop (.loop ⟨opened.start, token.start + 1⟩ before.reverse opened.before) outer
          rest

/-- The program that a text spells. -/
def ofText (text : String) : Except SyntaxError Program :=
  ofTokensFrom text.utf8ByteSize .done [] (Token.ofText text)

end Program

/-- The positions of the brackets still open after a token, innermost first. A closing bracket
without an opening one is passed over. -/
def openAfter (opened : List Nat) (token : Token) : List Nat :=
  match token.symbol with
  | .opening => token.start :: opened
  | .closing => opened.tail
  | _ => opened

/-- The innermost bracket that a text leaves open. -/
def unclosedBracket (text : String) : Option Nat :=
  ((Token.ofText text).foldl openAfter []).head?

end CilAssembly.Brainfuck

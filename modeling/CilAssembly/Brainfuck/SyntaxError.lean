import CilAssembly.Source.Span

/-! Syntax errors and the reports made of them. Only brackets can be wrong. -/
namespace CilAssembly.Brainfuck

inductive SyntaxErrorKind
  /-- A closing bracket without an opening one. -/
  | unmatchedClose
  /-- An opening bracket that is never closed. -/
  | unclosedLoop
  deriving DecidableEq, Repr, Inhabited

namespace SyntaxErrorKind

def code : SyntaxErrorKind → Nat
  | .unmatchedClose => 1
  | .unclosedLoop => 2

def message : SyntaxErrorKind → String
  | .unmatchedClose => "unmatched ']'"
  | .unclosedLoop => "unclosed '['"

end SyntaxErrorKind

structure SyntaxError where
  kind : SyntaxErrorKind
  span : Span
  deriving DecidableEq, Repr, Inhabited

/-- What is shown of an error: the message with its number, the place it is shown at, and the notes
on the source text. -/
structure Report where
  header : String
  location : String
  notes : List String
  deriving DecidableEq, Repr, Inhabited

namespace Report

/-- The characters that end a line of a shown text. -/
def isLineEnd (c : Char) : Bool :=
  c == '\n' || c == '\x0b' || c == '\x0c' || c == '\r' || c == '\u0085' || c == '\u2028' ||
    c == '\u2029'

/-- The line and the column of a position, both counted from one, where the text from `index` on is
left, the current line is number `line` and starts at `start`. A carriage return and a line feed end
a line together, and a line end that closes the text opens no further line. -/
def lineColumnFrom (position line start index : Nat) : List Char → Nat × Nat
  | [] => (line, position - start + 1)
  | '\r' :: '\n' :: rest =>
    if index + 2 ≤ position && !rest.isEmpty then
      lineColumnFrom position (line + 1) (index + 2) (index + 2) rest
    else lineColumnFrom position line start (index + 2) rest
  | c :: rest =>
    if isLineEnd c && index + 1 ≤ position && !rest.isEmpty then
      lineColumnFrom position (line + 1) (index + 1) (index + 1) rest
    else lineColumnFrom position line start (index + 1) rest

/-- The line and the column of a character position; past the end of the text there is none. -/
def lineColumn (text : String) (position : Nat) : Option (Nat × Nat) :=
  if text.length < position then none
  else some (lineColumnFrom position 1 0 0 text.toList)

/-- The report as plain lines. -/
def render (r : Report) : String :=
  r.header ++ "\n  at " ++ r.location ++ "\n" ++
    String.join (r.notes.map fun note => "  " ++ note ++ "\n")

end Report

namespace SyntaxError

/-- The notes on an error with the stretches they stand under. `opening` is the position of the
bracket that is never closed, where it is known. -/
def notes (error : SyntaxError) (opening : Option Nat) : List (Spanned String) :=
  match error.kind with
  | .unmatchedClose => [⟨error.span, "this ']' does not close any loop"⟩]
  | .unclosedLoop =>
    ⟨error.span, "the program ends here"⟩ ::
      (opening.map fun position =>
        (⟨⟨position, position + 1⟩, "this loop is never closed"⟩ : Spanned String)).toList

/-- Where the report of an error stands. A place is shown if some note starts inside the text or at
its end. -/
def location (error : SyntaxError) (file text : String) (opening : Option Nat) : String :=
  if (error.notes opening).any (·.span.start ≤ text.length) then
    match Report.lineColumn text error.span.start with
    | some (line, column) => file ++ ":" ++ toString line ++ ":" ++ toString column
    | none => file ++ ":?:?"
  else ""

/-- The report of an error. Offsets count characters here, and a note is shown if all of its stretch
lies in the text. -/
def report (error : SyntaxError) (file text : String) (opening : Option Nat) : Report :=
  { header := "[0" ++ toString error.kind.code ++ "] Error: " ++ error.kind.message
    location := error.location file text opening
    notes :=
      ((error.notes opening).filter (·.span.stop ≤ text.length)).map (·.item) }

end SyntaxError

end CilAssembly.Brainfuck

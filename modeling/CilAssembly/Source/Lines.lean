import CilAssembly.Source.Span

/-! Offsets, lines and locations in a source text. -/
namespace CilAssembly

namespace Source

/-- The start offsets of the lines after the first, for a text that begins at `offset`. Accumulates
in reverse. -/
def lineStartsFrom (starts : List Nat) (offset : Nat) : List Char → List Nat
  | [] => starts
  | c :: rest =>
    let next := offset + c.utf8Size
    lineStartsFrom (if c == '\n' then next :: starts else starts) next rest

end Source

/-- The byte offsets at which the lines of a text start, in increasing order from zero. -/
structure LineIndex where
  starts : Array Nat
  deriving DecidableEq, Repr, Inhabited

namespace LineIndex

def ofText (text : String) : LineIndex :=
  ⟨(Source.lineStartsFrom [0] 0 text.toList).reverse.toArray⟩

/-- The number of entries up to `offset`, given that the entries below `low` are up to it and those
from `high` on are beyond it. -/
def countUpTo (starts : Array Nat) (offset low high : Nat) : Nat :=
  if h : low < high then
    let middle := (low + high) / 2
    if starts.getD middle 0 ≤ offset then countUpTo starts offset (middle + 1) high
    else countUpTo starts offset low middle
  else low
termination_by high - low

/-- The number of the line that holds a byte offset, counted from one. Offsets past the end belong to
the last line. -/
def lineOf (index : LineIndex) (offset : Nat) : Nat :=
  countUpTo index.starts offset 0 index.starts.size

end LineIndex

/-- A file and a line number counted from one. Line zero is unknown. -/
structure Location where
  file : String
  line : Nat
  deriving DecidableEq, Repr, Inhabited

namespace Location

/-- The location of what comes from no source file. -/
def unknown : Location := ⟨"<unknown>", 0⟩

def render (location : Location) : String :=
  location.file ++ ":" ++ toString location.line

def dump (location : Location) : String :=
  Dump.record "Location" [("file", Dump.text location.file), ("line", toString location.line)]

end Location

/-- The location of a span: the line it starts on. -/
def LineIndex.locate (index : LineIndex) (file : String) (span : Span) : Location :=
  ⟨file, index.lineOf span.start⟩

end CilAssembly

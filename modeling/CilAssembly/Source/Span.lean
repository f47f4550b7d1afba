import CilAssembly.Text.Dump

/-! Stretches of a source text, given by UTF-8 byte offsets. -/
namespace CilAssembly

/-- The bytes from `start` up to but not including `stop`. -/
structure Span where
  start : Nat
  stop : Nat
  deriving DecidableEq, Repr, Inhabited

namespace Span

/-- The span of what comes from no source text. -/
def nowhere : Span := ⟨0, 0⟩

def dump (span : Span) : String :=
  toString span.start ++ ".." ++ toString span.stop

end Span

/-- An item with the stretch of source text it comes from. -/
structure Spanned (α : Type) where
  span : Span
  item : α
  deriving DecidableEq, Repr, Inhabited

namespace Spanned

variable {α : Type}

def nowhere (item : α) : Spanned α :=
  ⟨.nowhere, item⟩

/-- Exchanges the item and keeps the span. -/
def withItem (s : Spanned α) (item : α) : Spanned α :=
  { s with item }

/-- The structural dump, given that of the item. -/
def dump (dumpItem : α → String) (s : Spanned α) : String :=
  Dump.record "Spanned" [("span", s.span.dump), ("item", dumpItem s.item)]

end Spanned

end CilAssembly

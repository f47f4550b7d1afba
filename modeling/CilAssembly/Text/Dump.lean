import CilAssembly.Text.Unprintable

/-!
Structural dumps: one-line texts that spell a value out constructor by constructor. Records are
written `Name { field: value }`, constructors with arguments `Name(value, value)`, lists in square
brackets and texts in double quotes.
-/
namespace CilAssembly.Dump

/-- A character as it stands between the quotes of a dumped text. -/
def escapeChar (c : Char) : String :=
  match c with
  | '"' => "\\\""
  | '\\' => "\\\\"
  | '\n' => "\\n"
  | '\r' => "\\r"
  | '\t' => "\\t"
  | '\x00' => "\\0"
  | c =>
    if Text.isUnprintable c then
      "\\u\x7b" ++ String.ofList (Nat.toDigits 16 c.toNat) ++ "\x7d"
    else c.toString

def text (s : String) : String :=
  "\"" ++ String.join (s.toList.map escapeChar) ++ "\""

def bool (b : Bool) : String :=
  if b then "true" else "false"

def list (items : List String) : String :=
  "[" ++ ", ".intercalate items ++ "]"

/-- A constructor applied to its arguments. -/
def apply (name : String) (arguments : List String) : String :=
  name ++ "(" ++ ", ".intercalate arguments ++ ")"

def record (name : String) (fields : List (String × String)) : String :=
  name ++ " \x7b " ++ ", ".intercalate (fields.map fun (field, value) => field ++ ": " ++ value) ++
    " \x7d"

def option (value : Option String) : String :=
  match value with
  | none => "None"
  | some value => apply "Some" [value]

end CilAssembly.Dump

import CilAssembly.Text.Digits

/-!
String literals in assembly text. A literal spells the UTF-8 bytes of its string: quotes and
backslashes after a backslash, other printable ASCII bytes as themselves, all remaining bytes as a
backslash and three octal digits.
-/
namespace CilAssembly.StringLiteral

/-- One byte as it stands between the quotes of a literal. -/
def escapeByte (byte : UInt8) : List Char :=
  let c := Char.ofNat byte.toNat
  if c == '"' || c == '\\' then ['\\', c]
  else if 0x20 ≤ byte && byte ≤ 0x7e then [c]
  else '\\' :: Text.fixedDigits 8 3 byte.toNat

/-- The bytes between the quotes of a literal. -/
def escape (bytes : List UInt8) : List Char :=
  bytes.flatMap escapeByte

/-- The literal of a string, with its quotes. -/
def render (s : String) : String :=
  "\"" ++ String.ofList (escape s.toUTF8.data.toList) ++ "\""

end CilAssembly.StringLiteral

/-! Numbers written with a fixed count of digits. -/
namespace CilAssembly.Text

/-- The last `width` digits of a number in a base up to sixteen, most significant first. -/
def fixedDigits (base : Nat) : (width : Nat) → Nat → List Char
  | 0, _ => []
  | width + 1, n => fixedDigits base width (n / base) ++ [Nat.digitChar (n % base)]

@[simp] theorem fixedDigits_length (base width n : Nat) :
    (fixedDigits base width n).length = width := by
  induction width generalizing n with
  | zero => rfl
  | succ width ih => simp [fixedDigits, ih]

/-- Lower-case hexadecimal digits. -/
def hexLower (width n : Nat) : String :=
  String.ofList (fixedDigits 16 width n)

/-- Upper-case hexadecimal digits. -/
def hexUpper (width n : Nat) : String :=
  String.ofList ((fixedDigits 16 width n).map Char.toUpper)

end CilAssembly.Text

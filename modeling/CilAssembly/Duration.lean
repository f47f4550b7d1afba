import CilAssembly.Text.Digits

/-!
Durations for human readers. A duration is counted in nanoseconds and written in the largest unit
that it fills, as a double precision quotient with three decimals; a half goes to the even neighbour.
-/
namespace CilAssembly.Duration

/-- The integer nearest to a quotient; a half goes to the even neighbour. -/
def roundHalfEven (numerator denominator : Nat) : Nat :=
  let quotient := numerator / denominator
  let remainder := numerator % denominator
  if 2 * remainder < denominator then quotient
  else if denominator < 2 * remainder then quotient + 1
  else quotient + quotient % 2

/-- A quotient times a power of two, again as a quotient. -/
def scale (numerator denominator : Nat) (exponent : Int) : Nat × Nat :=
  (numerator <<< exponent.toNat, denominator <<< (-exponent).toNat)

/-- The quotient of 53 significant bits nearest to a quotient; a half goes to the even neighbour. -/
def roundTo53Bits (numerator denominator : Nat) : Nat × Nat :=
  if numerator = 0 then (0, 1)
  else
    -- scaled by this exponent the quotient lies above 2 ^ 52 and below 2 ^ 54
    let exponent : Int := 53 - (numerator.log2 - denominator.log2 : Int)
    let (n, d) := scale numerator denominator exponent
    let exponent := if n / d < 1 <<< 53 then exponent else exponent - 1
    let (n, d) := scale numerator denominator exponent
    scale (roundHalfEven n d) 1 (-exponent)

/-- A quotient with three decimals. -/
def threeDecimals (numerator denominator : Nat) : String :=
  let thousandths := roundHalfEven (numerator * 1000) denominator
  toString (thousandths / 1000) ++ "." ++
    String.ofList (Text.fixedDigits 10 3 (thousandths % 1000))

/-- A number of nanoseconds in a unit of that many. -/
def inUnit (nanos unit : Nat) : String :=
  let (n, d) := roundTo53Bits nanos 1
  let (n, d) := roundTo53Bits n (d * unit)
  threeDecimals n d

/-- The text of a duration. -/
def render (nanos : Nat) : String :=
  if 1000000000 ≤ nanos then inUnit nanos 1000000000 ++ " s"
  else if 1000000 ≤ nanos then inUnit nanos 1000000 ++ " ms"
  else if 1000 ≤ nanos then inUnit nanos 1000 ++ " µs"
  else toString nanos ++ " ns"

end CilAssembly.Duration

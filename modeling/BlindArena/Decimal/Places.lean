import BlindArena.Decimal.Dyadic

/-!
# Fixed places

A number with a fixed count of places is its exact value rounded to that grid, a half going to the
even neighbour. The sign is kept, also before a zero.
-/

namespace BlindArena

/-- The whole number nearest to `num / den`; a half goes to the even neighbour. -/
def roundToEven (num den : Nat) : Nat :=
  let quotient := num / den
  match compare (2 * (num % den)) den with
  | .lt => quotient
  | .gt => quotient + 1
  | .eq => quotient + quotient % 2

namespace Dyadic

/-- The value in units of the last of `places` places, rounded. -/
def inPlaces (d : Dyadic) (places : Nat) : Nat :=
  roundToEven (d.mantissa * d.up * Nat.pow 10 places) d.down

end Dyadic

def fixedPlaces (places : Nat) (x : Float32) : String :=
  let sign := if isNegative x.toBits then "-" else ""
  if isFinite x.toBits then
    let units := (Dyadic.ofBits x.toBits).inPlaces places
    let fraction := Nat.toDigits 10 (units % Nat.pow 10 places)
    let padded := List.replicate (places - fraction.length) '0' ++ fraction
    sign ++ toString (units / Nat.pow 10 places) ++ "." ++ String.ofList padded
  else if x == x then sign ++ "inf"
  else "NaN"

end BlindArena

import CoinToss.Decimal.Shortest

/-!
# CoinToss.Decimal.Fixed

Doubles with a fixed number of decimal places: as text, and rounded to such a decimal.

Both start from the exact value, so a tie is a tie of the double itself and goes to the even
neighbour.
-/

namespace CoinToss.Decimal

/-- `m · 2 ^ e` in units of the last of `places` decimal places. -/
def inPlaces (places m : Nat) (e : Int) : Nat := roundScaled (m * Nat.pow 10 places) 1 e

/-- Puts a point in front of the last `places` digits. -/
def placePoint (places units : Nat) : List Char :=
  let ds := natDigits units
  let padded := List.replicate (places + 1 - ds.length) '0' ++ ds
  let whole := padded.length - places
  if places = 0 then padded else padded.take whole ++ '.' :: padded.drop whole

/-- The text of a double with a fixed number of decimal places. -/
def fixedText (places : Nat) (x : Float) : String :=
  match datum x with
  | .notANumber => "nan"
  | .infinite negative => if negative then "-inf" else "inf"
  | .finite negative m e =>
    let body := placePoint places (inPlaces places m e)
    String.ofList (if negative then '-' :: body else body)

/-- The double nearest to a double rounded to `places` decimal places. -/
def roundPlaces (places : Nat) (x : Float) : Float :=
  match datum x with
  | .finite negative m e => nearestDouble negative (inPlaces places m e) (Nat.pow 10 places)
  | _ => x

/-- A percentage: the hundredfold with a fixed number of places and a percent sign. -/
def percentText (places : Nat) (x : Float) : String := fixedText places (x * 100) ++ "%"

end CoinToss.Decimal

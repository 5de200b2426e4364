import CoinToss.Decimal.Fixed

/-!
# CoinToss.Decimal.Significant

Doubles with a fixed number of significant digits.

* `significant` — the digits and the place of the first one, from the exact value;
* `exponentText` — one digit before the point and an exponent;
* `generalText` — whichever of the two ways to write the digits suits their place.
-/

namespace CoinToss.Decimal

/-- The decimal place of the leading digit of `m · 2 ^ e`, for a positive `m`. -/
def leadingPlace (m : Nat) (e : Int) : Int :=
  if 0 ≤ e then (natDigits (m * Nat.pow 2 e.toNat)).length - 1
  else (natDigits (m * Nat.pow 5 (-e).toNat)).length - 1 + e

/-- The first `n` digits of `m · 2 ^ e`, rounded, with the place of the first one; ties go to the
even neighbour. -/
def significant (n m : Nat) (e : Int) : List Char × Int :=
  if m = 0 then (List.replicate n '0', 0)
  else
    let place := leadingPlace m e
    let shift := (n : Int) - 1 - place
    let units := roundScaled (m * Nat.pow 10 shift.toNat) (Nat.pow 10 (-shift).toNat) e
    let ds := natDigits units
    if n < ds.length then (ds.take n, place + 1) else (ds, place)

/-- Digits with a point behind the first one; a point that nothing follows is left out unless it
is kept. -/
def pointed (keepPoint : Bool) : List Char → List Char
  | [] => []
  | [d] => if keepPoint then [d, '.'] else [d]
  | d :: ds => d :: '.' :: ds

/-- An exponent: the letter, a sign and two digits at least. -/
def exponentPart (place : Int) : List Char :=
  let ds := natDigits place.natAbs
  'e' :: (if place < 0 then '-' else '+') :: (List.replicate (2 - ds.length) '0' ++ ds)

/-- `m · 2 ^ e` with one digit before the point, `places` behind it and an exponent. -/
def exponentText (keepPoint : Bool) (places m : Nat) (e : Int) : List Char :=
  let (ds, place) := significant (places + 1) m e
  pointed keepPoint ds ++ exponentPart place

/-- Drops zeros at the end. -/
def dropZeros (ds : List Char) : List Char := (ds.reverse.dropWhile (· == '0')).reverse

/-- Digits of which the first has a place, written out. -/
def positional (keepPoint : Bool) (ds : List Char) (place : Int) : List Char :=
  if place < 0 then
    '0' :: (if ds.isEmpty && !keepPoint then [] else ['.']) ++
      (if ds.isEmpty then [] else List.replicate (-place - 1).toNat '0' ++ ds)
  else
    let whole := (place + 1).toNat
    let head := ds.take whole ++ List.replicate (whole - ds.length) '0'
    let tail := ds.drop whole
    head ++ (if tail.isEmpty && !keepPoint then [] else '.' :: tail)

/-- `m · 2 ^ e` with `digits` significant digits, written out from `1e-4` up to the last of them
and with an exponent elsewhere.  Zeros at the end are dropped unless all is kept. -/
def generalText (keepAll : Bool) (digits m : Nat) (e : Int) : List Char :=
  let digits := max 1 digits
  let (ds, place) := significant digits m e
  let kept := if keepAll then ds else dropZeros ds
  if -4 ≤ place ∧ place < digits then
    if kept.isEmpty then ['0'] else positional keepAll kept place
  else pointed keepAll (if kept.isEmpty then ['0'] else kept) ++ exponentPart place

end CoinToss.Decimal

/-!
# CoinToss.Decimal.Binary64

Doubles as exact numbers.

`Float.datum` reads a double as `± significand · 2 ^ exponent`, an infinity or a NaN, and
`nearestDouble` goes back: the double nearest to a ratio of naturals, ties to an even
significand.  Everything exact that is asked of a double (rounding, truncation, decimal text) is
natural arithmetic on these two.

* `two_mul_roundDiv_le`, `le_two_mul_roundDiv` — rounding a quotient is within half a unit;
* `roundDiv_mul` — an exact quotient is left alone.
-/

namespace CoinToss.Decimal

/-! ## rounding a quotient -/

/-- The integer nearest to `n / d`; a tie goes to the even neighbour. -/
def roundDiv (n d : Nat) : Nat :=
  let low := n / d
  let rest := n % d
  if 2 * rest < d then low else if d < 2 * rest then low + 1 else low + low % 2

/-- A rounded quotient exceeds the quotient by half a unit at most. -/
theorem two_mul_roundDiv_le (n d : Nat) (hd : 0 < d) : 2 * d * roundDiv n d ≤ 2 * n + d := by
  have hdiv := Nat.div_add_mod n d
  have hmod := Nat.mod_lt n hd
  have hodd := Nat.mod_lt (n / d) (show 0 < 2 by decide)
  unfold roundDiv
  simp only
  generalize n / d = low at *
  generalize n % d = rest at *
  split
  · rw [Nat.mul_assoc]; omega
  · split
    · rw [Nat.mul_assoc, Nat.mul_add]; omega
    · rw [Nat.mul_assoc, Nat.mul_add]
      have : d * (low % 2) ≤ d * 1 := Nat.mul_le_mul_left d (by omega)
      omega

/-- A rounded quotient falls short of the quotient by half a unit at most. -/
theorem le_two_mul_roundDiv (n d : Nat) (hd : 0 < d) : 2 * n ≤ 2 * d * roundDiv n d + d := by
  have hdiv := Nat.div_add_mod n d
  have hmod := Nat.mod_lt n hd
  unfold roundDiv
  simp only
  generalize n / d = low at *
  generalize n % d = rest at *
  split
  · rw [Nat.mul_assoc]; omega
  · split
    · rw [Nat.mul_assoc, Nat.mul_add]; omega
    · rw [Nat.mul_assoc, Nat.mul_add]; omega

/-- An exact quotient is left alone. -/
theorem roundDiv_mul (n d : Nat) (hd : 0 < d) : roundDiv (n * d) d = n := by
  simp [roundDiv, Nat.mul_div_cancel n hd, hd]

/-! ## doubles -/

/-- What a double stands for. -/
inductive Datum where
  | notANumber
  | infinite (negative : Bool)
  /-- The number `± significand · 2 ^ exponent`; a zero keeps its sign. -/
  | finite (negative : Bool) (significand : Nat) (exponent : Int)
  deriving DecidableEq, Repr

/-- Reads the sign, exponent and fraction fields. -/
def datum (x : Float) : Datum :=
  let bits := x.toBits.toNat
  let negative := bits / Nat.pow 2 63 % 2 == 1
  let field : Nat := bits / Nat.pow 2 52 % Nat.pow 2 11
  let fraction : Nat := bits % Nat.pow 2 52
  if field = 2047 then
    if fraction = 0 then .infinite negative else .notANumber
  else if field = 0 then .finite negative fraction (-1074)
  else .finite negative (Nat.pow 2 52 + fraction) ((field : Int) - 1075)

/-- The double with a sign and the other 63 bits. -/
def ofFields (negative : Bool) (rest : Nat) : Float :=
  Float.ofBits (UInt64.ofNat (if negative then Nat.pow 2 63 + rest else rest))

/-- Positive and negative infinity. -/
def infinity (negative : Bool) : Float := ofFields negative (2047 * Nat.pow 2 52)

/-- The double that is not a number. -/
def notANumber : Float := Float.ofBits 0x7ff8000000000000

/-- `n · 2 ^ e / d` as a rounded natural. -/
def roundScaled (n d : Nat) (e : Int) : Nat :=
  if 0 ≤ e then roundDiv (n * Nat.pow 2 e.toNat) d
  else roundDiv n (d * Nat.pow 2 (-e).toNat)

/-- The exponent of the leading bit of `n / d`, for positive `n` and `d`. -/
def leadingExponent (n d : Nat) : Int :=
  let guess : Int := (n.log2 : Int) - d.log2
  let reaches :=
    if 0 ≤ guess then d * Nat.pow 2 guess.toNat ≤ n else d ≤ n * Nat.pow 2 (-guess).toNat
  if reaches then guess else guess - 1

/-- The double nearest to `± n / d`, ties to an even significand; an infinity from the middle
between the largest double and the next power of two on. -/
def nearestDouble (negative : Bool) (n d : Nat) : Float :=
  if n = 0 then ofFields negative 0
  else
    let lead := leadingExponent n d
    if 1024 ≤ lead then infinity negative
    else
      let e := max (lead - 52) (-1074)
      let rest := (e + 1074).toNat * Nat.pow 2 52 + roundScaled n d (-e)
      if 2047 * Nat.pow 2 52 ≤ rest then infinity negative else ofFields negative rest

/-- The double nearest to an integer. -/
def nearestInt (n : Int) : Float := nearestDouble (n < 0) n.natAbs 1

/-- The double nearest to `± digits · 10 ^ exponent`.  Exponents far outside the range of doubles
are answered at once. -/
def nearestDecimal (negative : Bool) (digits : Nat) (exponent : Int) : Float :=
  if digits = 0 then ofFields negative 0
  else
    let size : Int := exponent + (digits.log2 / 3 : Nat)
    if 400 < exponent then infinity negative
    else if size < -400 then ofFields negative 0
    else if 0 ≤ exponent then nearestDouble negative (digits * Nat.pow 10 exponent.toNat) 1
    else nearestDouble negative digits (Nat.pow 10 (-exponent).toNat)

/-! ## integers of a double -/

/-- Why an integer and a double do not meet. -/
inductive NumberFault where
  /-- An infinity has no integer. -/
  | infinite
  /-- A NaN has no integer. -/
  | notANumber
  /-- An integer beyond the doubles meets a double. -/
  | tooLarge
  /-- A quotient of integers is beyond the doubles. -/
  | quotientTooLarge
  deriving DecidableEq, Repr

/-- What is told of a fault. -/
def NumberFault.message : NumberFault → String
  | .infinite => "cannot convert float infinity to integer"
  | .notANumber => "cannot convert float NaN to integer"
  | .tooLarge => "int too large to convert to float"
  | .quotientTooLarge => "integer division result too large for a float"

/-- Integer of a sign and a size. -/
def signed (negative : Bool) (n : Nat) : Int := if negative then -(n : Int) else n

/-- The nearest integer, ties to even. -/
def roundInt (x : Float) : Except NumberFault Int :=
  match datum x with
  | .notANumber => .error .notANumber
  | .infinite _ => .error .infinite
  | .finite negative m e => .ok (signed negative (roundScaled m 1 e))

/-- The integer left after dropping the fraction. -/
def truncInt (x : Float) : Except NumberFault Int :=
  match datum x with
  | .notANumber => .error .notANumber
  | .infinite _ => .error .infinite
  | .finite negative m e =>
    .ok (signed negative (if 0 ≤ e then m * Nat.pow 2 e.toNat else m / Nat.pow 2 (-e).toNat))

/-- The nearest natural of the size of a double, a half going up; zero where there is none. -/
def roundHalfUp (x : Float) : Nat :=
  match datum x with
  | .finite _ m e =>
    if 0 ≤ e then m * Nat.pow 2 e.toNat
    else (2 * m + Nat.pow 2 (-e).toNat) / (2 * Nat.pow 2 (-e).toNat)
  | _ => 0

/-- The value of a double without a fraction. -/
def integral? (x : Float) : Option Int :=
  match datum x with
  | .finite negative m e =>
    if 0 ≤ e then some (signed negative (m * Nat.pow 2 e.toNat))
    else if m % Nat.pow 2 (-e).toNat = 0 then some (signed negative (m / Nat.pow 2 (-e).toNat))
    else none
  | _ => none

/-- An integer as a double, refused when it rounds beyond the largest one. -/
def ofInt (n : Int) : Except NumberFault Float :=
  let x := nearestInt n
  match datum x with
  | .infinite _ => .error .tooLarge
  | _ => .ok x

/-- The double nearest to the quotient of two integers, the second one not zero; zero has the sign of
the quotient, too. -/
def quotient (n d : Int) : Except NumberFault Float :=
  let x := nearestDouble (decide (n < 0) != decide (d < 0)) n.natAbs d.natAbs
  match datum x with
  | .infinite _ => .error .quotientTooLarge
  | _ => .ok x

end CoinToss.Decimal

import CoinToss.Decimal.Binary64

/-!
# CoinToss.Decimal.Quantity

The numbers that odds, weights and percentages are computed with.

In play they are doubles.  The same definitions read over the rationals say what is meant exactly,
without rounding and without faults.

* `least`, `greatest` — the smaller and the larger of two, the first one where neither is;
* `clamp` — brings a number between two bounds.
-/

namespace CoinToss.Decimal

/-- A kind of numbers with the arithmetic of odds. -/
class Quantity (α : Type) extends Add α, Mul α, Neg α, Div α where
  /-- The number nearest to a ratio. -/
  ofRatio : Int → Nat → α
  lt : α → α → Bool
  le : α → α → Bool
  isNaN : α → Bool
  isInfinite : α → Bool
  ofInt : Int → Except NumberFault α
  /-- The quotient of two integers, the second one not zero. -/
  quotient : Int → Int → Except NumberFault α
  /-- The nearest integer, ties to even. -/
  round : α → Except NumberFault Int
  /-- The integer left after dropping the fraction. -/
  truncate : α → Except NumberFault Int

instance : Quantity Float where
  ofRatio n d := nearestDouble (n < 0) n.natAbs d
  lt a b := decide (a < b)
  le a b := decide (a ≤ b)
  isNaN x := x.isNaN
  isInfinite x := x.isInf
  ofInt := Decimal.ofInt
  quotient := Decimal.quotient
  round := roundInt
  truncate := truncInt

instance : Quantity Rat where
  ofRatio n d := n / (d : Int)
  lt a b := decide (a < b)
  le a b := decide (a ≤ b)
  isNaN _ := false
  isInfinite _ := false
  ofInt n := .ok n
  quotient n d := .ok (n / d)
  round x := .ok (signed (decide (x.num < 0)) (roundDiv x.num.natAbs x.den))
  truncate x := .ok (x.num.tdiv x.den)

variable {α : Type} [Quantity α]

/-- The smaller of two numbers: the second only if it is less than the first. -/
def least (a b : α) : α := if Quantity.lt b a then b else a

/-- The larger of two numbers: the second only if it is greater than the first. -/
def greatest (a b : α) : α := if Quantity.lt a b then b else a

/-- A number brought between two bounds; the fallback for no number. -/
def clamp (low high fallback x : α) : α :=
  if Quantity.isNaN x then fallback else least high (greatest low x)

end CoinToss.Decimal

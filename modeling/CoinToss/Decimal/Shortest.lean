import CoinToss.Decimal.Binary64

/-!
# CoinToss.Decimal.Shortest

The shortest decimal that reads back as a given double.

The decimals that round to a double fill an interval around it.  Going from coarse decimal grids
to finer ones, `shortest` takes the first grid with a point in that interval and of two such
points the nearer (of two equally near ones the even).  If a grid has a point in the interval,
one of the double's two neighbours on that grid is in it, so looking at these two is enough.

* `gridPoints_fit` — a chosen point lies in the interval.
-/

namespace CoinToss.Decimal

/-- The positive reals that round to one double, in units of a quarter of its last place.  The
ends belong to it when the significand is even. -/
structure Interval where
  low : Nat
  high : Nat
  closed : Bool
  deriving Repr

namespace Interval

/-- Below a power of two the doubles lie twice as close. -/
def ofSignificand (m : Nat) (e : Int) : Interval where
  low := if m = Nat.pow 2 52 ∧ -1074 < e then 4 * m - 1 else 4 * m - 2
  high := 4 * m + 2
  closed := m % 2 = 0

/-- Whether the ratio `n / d` lies in the interval. -/
def contains (i : Interval) (n d : Nat) : Bool :=
  if i.closed then decide (i.low * d ≤ n ∧ n ≤ i.high * d)
  else decide (i.low * d < n ∧ n < i.high * d)

end Interval

/-- A ratio scaled by a power of ten (base 10) or two (base 2). -/
def scaleBy (base : Nat) (e : Int) (r : Nat × Nat) : Nat × Nat :=
  if 0 ≤ e then (r.1 * Nat.pow base e.toNat, r.2)
  else (r.1, r.2 * Nat.pow base (-e).toNat)

/-- The points `digits · 10 ^ p` of one grid next to `m · 2 ^ e` that round to it, the nearer
one first. -/
def gridPoints (m : Nat) (e : Int) (p : Int) : List Nat :=
  let value := scaleBy 10 (-p) (scaleBy 2 e (m, 1))
  let below := value.1 / value.2
  let rest := value.1 % value.2
  let upFirst := decide (value.2 < 2 * rest) || (decide (value.2 = 2 * rest) && below % 2 == 1)
  let interval := Interval.ofSignificand m e
  let fits (d : Nat) : Bool :=
    let q := scaleBy 2 (2 - e) (scaleBy 10 p (d, 1))
    decide (0 < d) && interval.contains q.1 q.2
  (if upFirst then [below + 1, below] else [below, below + 1]).filter fits

/-- Tries ever finer grids. -/
def searchGrids (m : Nat) (e : Int) : Nat → Int → Nat × Int
  | 0, p => (m, p)
  | fuel + 1, p =>
    match gridPoints m e p with
    | d :: _ => (d, p)
    | [] => searchGrids m e fuel (p - 1)

/-- Decimal digits and exponent of the shortest decimal that rounds to `m · 2 ^ e`, for a
positive `m`.  The search starts above the leading digit and seventeen digits always suffice. -/
def shortest (m : Nat) (e : Int) : Nat × Int :=
  let lead := (m.log2 : Int) + e
  let start := if 0 ≤ lead then lead * 30103 / 100000 + 2 else -(-lead * 30102 / 100000) + 2
  searchGrids m e 24 start

/-! ## text -/

/-- Decimal digits of a natural number. -/
def natDigits (n : Nat) : List Char := Nat.toDigits 10 n

/-- Decimal text of an integer. -/
def intText (n : Int) : String :=
  match n with
  | .ofNat k => String.ofList (natDigits k)
  | .negSucc k => String.ofList ('-' :: natDigits (k + 1))

/-- How the shortest digits of a double are written. -/
structure ShortestStyle where
  /-- Numbers from `10 ^ smallest` up to `10 ^ large` are written without an exponent. -/
  smallest : Int
  large : Int
  /-- An exponent has a sign and at least so many digits. -/
  exponentWidth : Nat
  notANumber : String
  infinity : String

/-- Digits of an exponent with its sign. -/
def ShortestStyle.exponentText (s : ShortestStyle) (e : Int) : List Char :=
  let ds := natDigits e.natAbs
  (if e < 0 then '-' else '+') :: (List.replicate (s.exponentWidth - ds.length) '0' ++ ds)

/-- Places the point `point` digits after the first one, if the style writes that out. -/
def ShortestStyle.unsigned (s : ShortestStyle) (digits : List Char) (point : Int) : List Char :=
  if s.smallest ≤ point ∧ point < s.large then
    if point < 0 then
      '0' :: '.' :: (List.replicate (-point - 1).toNat '0' ++ digits)
    else
      let whole := (point + 1).toNat
      let head := digits.take whole ++ List.replicate (whole - digits.length) '0'
      let tail := digits.drop whole
      head ++ '.' :: (if tail.isEmpty then ['0'] else tail)
  else
    let tail := digits.drop 1
    digits.take 1 ++ (if tail.isEmpty then [] else '.' :: tail) ++ 'e' :: s.exponentText point

/-- The text of a double in a style. -/
def ShortestStyle.text (s : ShortestStyle) (x : Float) : String :=
  match datum x with
  | .notANumber => s.notANumber
  | .infinite negative => if negative then "-" ++ s.infinity else s.infinity
  | .finite negative m e =>
    let body :=
      if m = 0 then ['0', '.', '0']
      else
        let (d, p) := shortest m e
        let ds := natDigits d
        s.unsigned ds (ds.length - 1 + p)
    String.ofList (if negative then '-' :: body else body)

/-- A chosen grid point rounds to the double. -/
theorem gridPoints_fit {m : Nat} {e p : Int} {d : Nat} (h : d ∈ gridPoints m e p) :
    let q := scaleBy 2 (2 - e) (scaleBy 10 p (d, 1))
    (Interval.ofSignificand m e).contains q.1 q.2 = true := by
  simp only [gridPoints, List.mem_filter, Bool.and_eq_true] at h
  exact h.2.2

end CoinToss.Decimal

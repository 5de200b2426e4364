import CoinToss.Decimal.Binary64
import CoinToss.Random.Twister

/-!
# CoinToss.Random.Source

Where random draws come from.

A source gives draws one after the other and counts them.  It either goes through a list again
and again or runs the generator of a seed.

* `used_draws` — taking draws moves the count by their number;
* `length_draws` — as many draws are given as were asked for.
-/

namespace CoinToss

/-- What gives the draws. -/
inductive Supply where
  /-- A list gone through again and again. -/
  | cycle (first : Float) (rest : List Float)
  | twister (state : Twister)

/-- A supply and how many draws have been taken from it. -/
structure Source where
  supply : Supply
  used : Nat

namespace Source

/-- Goes through a list again and again; an empty one gives nothing. -/
def ofList? : List Float → Option Source
  | [] => none
  | x :: xs => some ⟨.cycle x xs, 0⟩

/-- The draws of a seed. -/
def ofSeed (seed : Int) : Source := ⟨.twister (.ofSeed seed), 0⟩

/-- Whether the source was made from a seed. -/
def isSeeded (s : Source) : Bool :=
  match s.supply with
  | .twister _ => true
  | .cycle _ _ => false

/-- The next draw. -/
def draw (s : Source) : Float × Source :=
  match s.supply with
  | .cycle x xs => ((x :: xs).getD (s.used % (xs.length + 1)) x, { s with used := s.used + 1 })
  | .twister t =>
    let (x, t) := t.unit
    (x, ⟨.twister t, s.used + 1⟩)

/-- The next draws, in order. -/
def draws (s : Source) : Nat → List Float × Source
  | 0 => ([], s)
  | n + 1 =>
    let (x, s) := s.draw
    let (xs, s) := s.draws n
    (x :: xs, s)

@[simp] theorem used_draw (s : Source) : s.draw.2.used = s.used + 1 := by
  unfold draw; split <;> rfl

/-- As many draws are given as were asked for. -/
@[simp] theorem length_draws (s : Source) (n : Nat) : (s.draws n).1.length = n := by
  induction n generalizing s with
  | zero => rfl
  | succ n ih => simp [draws, ih]

/-- Taking draws moves the count by their number. -/
@[simp] theorem used_draws (s : Source) (n : Nat) : (s.draws n).2.used = s.used + n := by
  induction n generalizing s with
  | zero => rfl
  | succ n ih => simp [draws, ih]; omega

/-- Draws taken in two goes are the same draws. -/
theorem draws_add (s : Source) (m n : Nat) :
    s.draws (m + n) =
      ((s.draws m).1 ++ ((s.draws m).2.draws n).1, ((s.draws m).2.draws n).2) := by
  induction m generalizing s with
  | zero => simp [draws]
  | succ m ih => simp [Nat.succ_add, draws, ih]

/-- A draw from a number below a million million, as secure sources give them. -/
def unitOfBelow (n : Int) : Except Decimal.NumberFault Float := Decimal.quotient n 1000000000000

end Source

end CoinToss

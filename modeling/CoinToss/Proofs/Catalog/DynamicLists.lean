import CoinToss.Proofs.Catalog.Audit
import CoinToss.Proofs.Catalog.Kept

/-!
# CoinToss.Proofs.Catalog.DynamicLists

What the dynamic lists of a catalog hold.

A dynamic list stands for all other coins that can be unlocked.  Making a catalog fills in the list
that is a coin's own goal; a list among the prerequisites is left as it was written, and without
coins it is never reached:

```
dynamic list          in the catalog
a coin's own goal     all other coins that can be unlocked
a prerequisite        the coins that were written
```

* `list_of_dynamic`, `prerequisites_of_mem` — lists that are filled in, and lists that are not;
* `isUnlocked_of_futile_required` — a futile prerequisite keeps a coin locked;
* `dynamic_lists_of_mem` — both kinds of lists, for every list of coins.
-/

namespace CoinToss

namespace Catalog

variable {coins : List Coin} {coin : Coin}

/-- The list that is a coin's own goal names all other coins that can be unlocked, in order. -/
theorem list_of_dynamic (h : coin ∈ (ofCoins coins).coins) {l : CoinList}
    (hgoal : coin.goal = .landOnCoins l) (hdynamic : l.dynamic = true) :
    l.coins = others (ofCoins coins).coins coin.path := by
  obtain ⟨first, -, hcoin⟩ := mem_ofCoins_iff.1 h
  cases hfirst : hasDynamicList first with
  | false =>
      rw [expand_of_fixed _ hfirst] at hcoin
      rw [← hcoin, hasDynamicList, hgoal] at hfirst
      exact absurd (hdynamic.symm.trans hfirst) (by decide)
  | true =>
      obtain ⟨u, written, hu, hug, hwritten⟩ := exists_list_of_dynamic hfirst
      rw [expand_of_dynamic _ hu hug hwritten] at hcoin
      rw [hcoin] at hgoal ⊢
      rw [← Goal.landOnCoins.inj hgoal]

/-- The prerequisites of a coin are those of the first coin of its path. -/
theorem prerequisites_of_mem (h : coin ∈ (ofCoins coins).coins) :
    ∃ first, coins.find? (fun d => d.path == coin.path) = some first ∧
      coin.unlock.map (·.prerequisites) = first.unlock.map (·.prerequisites) := by
  obtain ⟨first, hfirst, hcoin⟩ := mem_ofCoins_iff.1 h
  refine ⟨first, hfirst, ?_⟩
  rw [hcoin]
  exact prerequisites_expand _ first

end Catalog

/-- A futile goal among its prerequisites keeps a coin locked unless it is stamped. -/
theorem Coin.isUnlocked_of_futile_required {c : Catalog} {coin : Coin} {g : Goal}
    (hmem : g ∈ coin.required) (hg : g.Futile c) {p : Progress}
    (hstamp : coin.isStamped p = false) : coin.isUnlocked c.known p = false := by
  have hfutile : coin.Futile c := .inr ⟨g, hmem, .inl hg⟩
  have hunmet : coin.meetsPrerequisites c.known p = false := by
    rw [meetsPrerequisites, List.all_eq_false]
    refine ⟨g, hmem, ?_⟩
    rw [isReached_of_futile hg]
    decide
  rw [isUnlocked_eq hfutile.isSome_unlock hstamp, hunmet, Bool.false_and]

/-- Of a catalog made of any list of coins: a dynamic list that is a coin's own goal holds the
paths, in order, of all other coins with a goal; the prerequisites of a coin, with the lists among
them, are those that the first coin of its path was written with; and a coin with a dynamic list
without coins among its prerequisites is locked on all progress that does not have it stamped. -/
theorem dynamic_lists_of_mem (coins : List Coin) :
    let c := Catalog.ofCoins coins
    ∀ coin ∈ c.coins,
      (∀ l, coin.goal = .landOnCoins l → l.dynamic = true →
        l.coins =
          (c.coins.filter fun d => d.goalKind != .none && d.path != coin.path).map (·.path)) ∧
      (∃ first, coins.find? (fun d => d.path == coin.path) = some first ∧
        coin.unlock.map (·.prerequisites) = first.unlock.map (·.prerequisites)) ∧
      ∀ l, .landOnCoins l ∈ coin.required → l.dynamic = true → l.coins = [] →
        ∀ p, coin.isStamped p = false → coin.isUnlocked c.known p = false := by
  intro c coin hcoin
  refine ⟨fun l hgoal hdynamic => ?_, Catalog.prerequisites_of_mem hcoin, ?_⟩
  · rw [Catalog.list_of_dynamic hcoin hgoal hdynamic, Catalog.others_eq]
  · intro l hl _ hempty p hstamp
    exact Coin.isUnlocked_of_futile_required hl (.noCoins hempty) hstamp

/-- Coins of which the second one waits for all others, and the third one for its first flip once
all others have been landed on. -/
def dynamicCoins : List Coin :=
  [untold "first" (.totalFlips 1) [], untold "all" (.landOnCoins ⟨[], 1, true⟩) [],
    untold "then" (.totalFlips 1) [.landOnCoins ⟨[], 1, true⟩]]

/-- Two flips that have shown the first two of them. -/
def shownBoth : Progress :=
  { Progress.empty with
    totalFlips := 2, landings := (Tally.empty.insert "first" 1).insert "all" 1 }

/-- The list of the second coin is filled in; that of the third one is not, so the coin stays
locked. -/
theorem dynamic_lists_of_mem_shownBoth :
    let c := Catalog.ofCoins dynamicCoins
    (∃ coin ∈ c.coins, ∃ l, coin.goal = .landOnCoins l ∧ l.dynamic = true ∧
        l.coins = ["first", "then"]) ∧
      ∃ coin ∈ c.coins, (∃ l, .landOnCoins l ∈ coin.required ∧ l.dynamic = true ∧ l.coins = []) ∧
        coin.isStamped shownBoth = false ∧ coin.isUnlocked c.known shownBoth = false := by
  intro c
  have hall : untold "all" (.landOnCoins ⟨["first", "then"], 1, true⟩) [] ∈ c.coins :=
    .tail _ (.head _)
  have hthen : untold "then" (.totalFlips 1) [.landOnCoins ⟨[], 1, true⟩] ∈ c.coins :=
    .tail _ (.tail _ (.head _))
  obtain ⟨hlist, -⟩ := dynamic_lists_of_mem dynamicCoins _ hall
  obtain ⟨-, -, hlocked⟩ := dynamic_lists_of_mem dynamicCoins _ hthen
  refine ⟨⟨_, hall, _, rfl, rfl, (hlist _ rfl rfl).trans rfl⟩, _, hthen,
    ⟨_, .head _, rfl, rfl⟩, by decide, ?_⟩
  exact hlocked _ (.head _) rfl rfl shownBoth (by decide)

end CoinToss

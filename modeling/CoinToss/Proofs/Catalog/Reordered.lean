import CoinToss.Proofs.Catalog.Kept
import CoinToss.Unlock.Runs

/-!
# CoinToss.Proofs.Catalog.Reordered

The same coins in another order.

A catalog of the same coins in another order has the same paths, and at each path the same coin,
but that a dynamic list of its own names the other coins in their new order:

```
coins            expand coins coin
  | Perm            | Reordered
more             expand more coin
```

What is decided about a coin asks whether all coins of a list have been landed on, not in which
order they are listed, so coins that are reordered are decided about alike.

* `Goal.Reordered`, `Coin.Reordered`, `Catalog.Reordered` — the same but for the order of lists;
* `Coin.Reordered.isUnlocked` — reordered coins are decided about alike;
* `Catalog.Reordered.matchesLanding` — and landings on them match the same runs;
* `reordered_ofCoins` — coins with different paths may be listed in any order.
-/

namespace CoinToss

/-! ## goals -/

/-- Goals that are the same, but for the order of the coins in a dynamic list. -/
inductive Goal.Reordered : Goal → Goal → Prop
  | same (g : Goal) : Reordered g g
  | list {coins more : List String} (horder : coins.Perm more) (count : Int) :
    Reordered (.landOnCoins ⟨coins, count, true⟩) (.landOnCoins ⟨more, count, true⟩)

namespace Goal.Reordered

variable {g h : Goal}

theorem kind (hgoal : g.Reordered h) : g.kind = h.kind := by
  cases hgoal <;> rfl

/-- Reaching all coins of a list does not depend on their order. -/
theorem isReached (hgoal : g.Reordered h) (known : Known) (owner : String) (p : Progress) :
    g.isReached known owner p = h.isReached known owner p := by
  cases hgoal with
  | same => rfl
  | list horder count =>
      have hempty := List.Perm.isEmpty_eq horder
      simp only [Goal.isReached, hempty, horder.all_eq]

end Goal.Reordered

/-! ## coins -/

/-- Coins that are the same, but for the order of a dynamic list of their own. -/
structure Coin.Reordered (a b : Coin) : Prop where
  goal : a.goal.Reordered b.goal
  rest : b = { a with unlock := a.unlock.map fun u => { u with goal := b.goal } }

namespace Coin.Reordered

variable {a b : Coin}

theorem refl (coin : Coin) : coin.Reordered coin where
  goal := .same _
  rest := by
    obtain ⟨_, _, _, _, unlock, _⟩ := coin
    cases unlock with
    | none => rfl
    | some u =>
        obtain ⟨_, _, _, _, _⟩ := u
        rfl

theorem path (h : a.Reordered b) : a.path = b.path := by rw [h.rest]

theorem effectKind (h : a.Reordered b) : a.effectKind = b.effectKind := by
  rw [h.rest]
  rfl

theorem goalKind (h : a.Reordered b) : a.goalKind = b.goalKind := h.goal.kind

theorem isNone_unlock (h : a.Reordered b) : a.unlock.isNone = b.unlock.isNone := by
  rw [h.rest, Option.isNone_map]

theorem required (h : a.Reordered b) : a.required = b.required := by
  rw [h.rest, Coin.required, Coin.required, Option.map_map]
  rfl

theorem prerequisiteCount (h : a.Reordered b) : a.prerequisiteCount = b.prerequisiteCount := by
  rw [Coin.prerequisiteCount, h.required, Coin.prerequisiteCount]

theorem meetsPrerequisites (h : a.Reordered b) (known : Known) (p : Progress) :
    a.meetsPrerequisites known p = b.meetsPrerequisites known p := by
  rw [Coin.meetsPrerequisites, h.required, h.path, Coin.meetsPrerequisites]

/-- Reordered coins are decided about alike. -/
theorem isUnlocked (h : a.Reordered b) (known : Known) (p : Progress) :
    a.isUnlocked known p = b.isUnlocked known p := by
  have hstamped : a.isStamped p = b.isStamped p := by
    rw [isStamped, h.path, isStamped]
  have hgoal : a.meetsGoal known p = b.meetsGoal known p := by
    rw [meetsGoal, h.goal.isReached, h.path, meetsGoal]
  rw [Coin.isUnlocked, h.isNone_unlock, hstamped, h.meetsPrerequisites, hgoal, Coin.isUnlocked]

end Coin.Reordered

/-! ## catalogs -/

namespace Catalog

/-- Catalogs of the same coins in whatever order. -/
structure Reordered (c d : Catalog) : Prop where
  there : ∀ a ∈ c.coins, ∃ b ∈ d.coins, a.Reordered b
  back : ∀ b ∈ d.coins, ∃ a ∈ c.coins, a.Reordered b

namespace Reordered

variable {c d : Catalog}

/-- At a path there is no coin in either catalog, or the same one in both. -/
theorem get?_cases (h : c.Reordered d) (path : String) :
    c.get? path = none ∧ d.get? path = none ∨
      ∃ a b, c.get? path = some a ∧ d.get? path = some b ∧ a.Reordered b := by
  cases hc : c.get? path with
  | some a =>
      obtain ⟨b, hb, hab⟩ := h.there a (List.mem_of_find?_eq_some hc)
      refine .inr ⟨a, b, rfl, ?_, hab⟩
      rw [← get?_path hc, hab.path]
      exact get?_of_mem hb
  | none =>
      cases hd : d.get? path with
      | none => exact .inl ⟨rfl, rfl⟩
      | some b =>
          obtain ⟨a, ha, hab⟩ := h.back b (List.mem_of_find?_eq_some hd)
          have hfound := get?_of_mem ha
          rw [hab.path, get?_path hd, hc] at hfound
          contradiction

theorem known (h : c.Reordered d) : c.known = d.known := by
  funext path
  obtain ⟨hc, hd⟩ | ⟨a, b, hc, hd, -⟩ := h.get?_cases path
  · rw [Catalog.known, contains, hc, Catalog.known, contains, hd]
  · rw [Catalog.known, contains, hc, Catalog.known, contains, hd]
    rfl

/-- A run counts a coin whichever order its catalog is in. -/
theorem picksIn (h : c.Reordered d) (r : RunRule) (path : Option String) :
    r.picksIn c path = r.picksIn d path := by
  cases path with
  | none => rfl
  | some q =>
      rw [RunRule.picksIn, Option.bind_some, RunRule.picksIn, Option.bind_some]
      obtain ⟨hc, hd⟩ | ⟨a, b, hc, hd, hab⟩ := h.get?_cases q
      · rw [hc, hd]
      · rw [hc, hd]
        simp only [RunRule.picks, Option.any_some, hab.goalKind, hab.effectKind,
          hab.prerequisiteCount]

/-- A landing matches the same runs. -/
theorem matchesLanding (h : c.Reordered d) (r : RunRule) (l : Landing) :
    r.matchesLanding c l = r.matchesLanding d l := by
  simp only [RunRule.matchesLanding, h.picksIn]

end Reordered

/-! ## coins in another order -/

section Perm

variable {coins more : List Coin}

theorem others_perm (horder : coins.Perm more) (path : String) :
    (others coins path).Perm (others more path) := by
  rw [others_eq, others_eq]
  exact (horder.filter _).map _

/-- A coin is filled in alike, but for the order of its list. -/
theorem reordered_expand (horder : coins.Perm more) (coin : Coin) :
    (expand coins coin).Reordered (expand more coin) := by
  cases h : hasDynamicList coin with
  | false =>
      rw [expand_of_fixed coins h, expand_of_fixed more h]
      exact .refl coin
  | true =>
      obtain ⟨u, l, hu, hgoal, hdynamic⟩ := exists_list_of_dynamic h
      rw [expand_of_dynamic coins hu hgoal hdynamic, expand_of_dynamic more hu hgoal hdynamic,
        hdynamic]
      exact ⟨.list (others_perm horder coin.path) l.count, rfl⟩

theorem coins_of_nodup (hpaths : (coins.map (·.path)).Nodup) :
    (ofCoins coins).coins = coins.map (expand coins) := by
  rw [coins_ofCoins, keepFirst_of_nodup hpaths]

/-- The catalogs of coins with different paths in two orders are the same but for the order. -/
theorem reordered_ofCoins (hpaths : (coins.map (·.path)).Nodup) (horder : coins.Perm more) :
    (ofCoins coins).Reordered (ofCoins more) := by
  have hmore : (more.map (·.path)).Nodup := (horder.map _).nodup_iff.1 hpaths
  refine ⟨fun a ha => ?_, fun b hb => ?_⟩
  · rw [coins_of_nodup hpaths] at ha
    obtain ⟨coin, hcoin, rfl⟩ := List.mem_map.1 ha
    refine ⟨expand more coin, ?_, reordered_expand horder coin⟩
    rw [coins_of_nodup hmore]
    exact List.mem_map_of_mem (horder.mem_iff.1 hcoin)
  · rw [coins_of_nodup hmore] at hb
    obtain ⟨coin, hcoin, rfl⟩ := List.mem_map.1 hb
    refine ⟨expand coins coin, ?_, reordered_expand horder coin⟩
    rw [coins_of_nodup hpaths]
    exact List.mem_map_of_mem (horder.mem_iff.2 hcoin)

end Perm

end Catalog

end CoinToss

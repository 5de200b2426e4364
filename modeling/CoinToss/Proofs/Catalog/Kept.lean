import CoinToss.Catalog.Basic

/-!
# CoinToss.Proofs.Catalog.Kept

What a catalog keeps of a list of coins.

Of the coins of one path the first is kept, and a dynamic list that is a coin's own goal is filled
in with the others.  Filling in changes neither paths nor kinds, so what a dynamic list stands for
may be asked of the coins before it or after it:

```
coins  --keepFirst-->  kept  --expand kept-->  (ofCoins coins).coins
                       others kept     =     others (ofCoins coins).coins
```

* `keepFirst_append` — a later coin is kept if its path is new;
* `map_path_keepFirst`, `find?_keepFirst` — paths and coins of what is kept;
* `expand_of_dynamic`, `expand_of_fixed` — what filling in does to a coin;
* `mem_ofCoins_iff` — the coins of a catalog;
* `ofCoins_append` — making a catalog of the coins of one.
-/

namespace CoinToss.Catalog

/-! ## first coins -/

/-- Where a path is not chosen, leaving it out changes nothing. -/
theorem chosen_and_ne {q : String → Bool} {path : String} (h : q path = false) (coin : Coin) :
    (q coin.path && coin.path != path) = q coin.path := by
  by_cases hcoin : coin.path = path
  · rw [hcoin, h, Bool.false_and]
  · rw [bne_iff_ne.2 hcoin, Bool.and_true]

/-- A choice by path may be made before or after. -/
theorem keepFirst_filter (q : String → Bool) (coins : List Coin) :
    keepFirst (coins.filter fun d => q d.path) = (keepFirst coins).filter fun d => q d.path := by
  induction coins with
  | nil => rfl
  | cons c cs ih =>
      rw [keepFirst, List.filter_cons, List.filter_cons, List.filter_filter]
      cases hq : q c.path with
      | true =>
          rw [if_pos rfl, if_pos rfl, keepFirst, ih, List.filter_filter]
          simp only [Bool.and_comm]
      | false =>
          simp only [chosen_and_ne hq]
          exact ih

/-- Of two lists one after the other the second adds the coins with new paths. -/
theorem keepFirst_append (xs ys : List Coin) :
    keepFirst (xs ++ ys) =
      keepFirst xs ++ (keepFirst ys).filter fun d => !(xs.map (·.path)).contains d.path := by
  induction xs with
  | nil => exact (List.filter_eq_self.2 fun _ _ => rfl).symm
  | cons c cs ih =>
      rw [List.cons_append, keepFirst, ih, List.filter_append, List.filter_filter, keepFirst,
        List.cons_append]
      congr 3
      funext d
      rw [List.map_cons, List.contains_cons, Bool.not_or]
      rfl

/-- The paths of the kept coins are those of all coins, each where it comes first. -/
theorem map_path_keepFirst (coins : List Coin) :
    (keepFirst coins).map (·.path) = (coins.map (·.path)).eraseDups := by
  cases coins with
  | nil => rfl
  | cons c cs =>
      rw [keepFirst, ← keepFirst_filter (· != c.path), List.map_cons, List.map_cons,
        List.eraseDups_cons, List.filter_map,
        map_path_keepFirst (cs.filter fun d => d.path != c.path)]
      rfl
termination_by coins.length
decreasing_by
  rw [List.length_cons]
  exact Nat.lt_succ_of_le (List.length_filter_le _ _)

/-- The kept coin of a path is the first of it. -/
theorem find?_keepFirst (coins : List Coin) (path : String) :
    (keepFirst coins).find? (fun d => d.path == path) = coins.find? fun d => d.path == path := by
  induction coins with
  | nil => rfl
  | cons c cs ih =>
      rw [keepFirst, List.find?_cons, List.find?_cons, List.find?_filter, ← ih]
      cases hc : c.path == path with
      | true => rfl
      | false =>
          dsimp only
          congr 1
          funext d
          have hne : c.path ≠ path := beq_eq_false_iff_ne.1 hc
          by_cases hd : d.path = path
          · simp [hd, hne.symm]
          · simp [hd]

/-- Of coins with different paths each is the first of its own. -/
theorem find?_of_nodup {coins : List Coin} (h : (coins.map (·.path)).Nodup) {coin : Coin}
    (hcoin : coin ∈ coins) : coins.find? (fun d => d.path == coin.path) = some coin := by
  induction coins with
  | nil => contradiction
  | cons c cs ih =>
      rw [List.map_cons, List.nodup_cons] at h
      rcases List.mem_cons.1 hcoin with rfl | hcoin
      · rw [List.find?_cons_of_pos (by simp)]
      · have hne : c.path ≠ coin.path := by
          intro he
          exact h.1 (he ▸ List.mem_map_of_mem hcoin)
        rw [List.find?_cons_of_neg (by simpa using hne), ih h.2 hcoin]

/-- Of coins with different paths all are kept. -/
theorem keepFirst_of_nodup {coins : List Coin} (h : (coins.map (·.path)).Nodup) :
    keepFirst coins = coins := by
  induction coins with
  | nil => rfl
  | cons c cs ih =>
      rw [List.map_cons, List.nodup_cons] at h
      rw [keepFirst, ih h.2, List.filter_eq_self.2]
      intro d hd
      rw [bne_iff_ne]
      intro he
      exact h.1 (he ▸ List.mem_map_of_mem hd)

/-! ## filled-in lists -/

section FillIn

variable {coin : Coin} {u : Condition} {l : CoinList}

/-- A dynamic list of its own is filled in. -/
theorem expand_of_dynamic (coins : List Coin) (hu : coin.unlock = some u)
    (hgoal : u.goal = .landOnCoins l) (hdynamic : l.dynamic = true) :
    expand coins coin =
      { coin with
        unlock := some
          { u with goal := .landOnCoins { l with coins := others coins coin.path } } } := by
  rw [expand, hu, Option.map_some, fillIn, hgoal]
  dsimp only
  rw [if_pos hdynamic]

/-- Without one a coin stays as it is. -/
theorem expand_of_fixed (coins : List Coin) (h : hasDynamicList coin = false) :
    expand coins coin = coin := by
  cases hu : coin.unlock with
  | none => rw [expand, hu, Option.map_none, ← hu]
  | some u =>
      have hfill : fillIn coins coin.path u = u := by
        rw [hasDynamicList, Coin.goal, hu] at h
        unfold fillIn
        cases hgoal : u.goal with
        | landOnCoins l =>
            have hfixed : l.dynamic = false := by
              rwa [Option.map_some, Option.getD_some, hgoal] at h
            dsimp only
            rw [hfixed, if_neg Bool.false_ne_true]
        | _ => rfl
      rw [expand, hu, Option.map_some, hfill, ← hu]

/-- A coin with a dynamic list has it as the goal of its condition. -/
theorem exists_list_of_dynamic (h : hasDynamicList coin = true) :
    ∃ u l, coin.unlock = some u ∧ u.goal = .landOnCoins l ∧ l.dynamic = true := by
  unfold hasDynamicList at h
  split at h
  · next l hgoal =>
    obtain ⟨u, hu, hug⟩ : ∃ u, coin.unlock = some u ∧ u.goal = .landOnCoins l := by
      rw [Coin.goal] at hgoal
      cases hu : coin.unlock with
      | none =>
          rw [hu] at hgoal
          contradiction
      | some u =>
          rw [hu] at hgoal
          exact ⟨u, rfl, hgoal⟩
    exact ⟨u, l, hu, hug, h⟩
  · contradiction

/-- Filling in leaves the kind of the goal. -/
theorem goalKind_expand (coins : List Coin) (coin : Coin) :
    (expand coins coin).goalKind = coin.goalKind := by
  cases h : hasDynamicList coin with
  | false => rw [expand_of_fixed coins h]
  | true =>
      obtain ⟨u, l, hu, hgoal, hdynamic⟩ := exists_list_of_dynamic h
      rw [expand_of_dynamic coins hu hgoal hdynamic]
      simp [Coin.goalKind, Coin.goal, hu, hgoal, Goal.kind]

/-- Filling in leaves the prerequisites. -/
theorem prerequisites_expand (coins : List Coin) (coin : Coin) :
    (expand coins coin).unlock.map (·.prerequisites) = coin.unlock.map (·.prerequisites) := by
  cases h : hasDynamicList coin with
  | false => rw [expand_of_fixed coins h]
  | true =>
      obtain ⟨u, l, hu, hgoal, hdynamic⟩ := exists_list_of_dynamic h
      rw [expand_of_dynamic coins hu hgoal hdynamic, hu]
      rfl

/-- A list that has been filled in is filled in anew. -/
theorem expand_expand (coins more : List Coin) (coin : Coin) :
    expand coins (expand more coin) = expand coins coin := by
  have hfill (u : Condition) :
      fillIn coins coin.path (fillIn more coin.path u) = fillIn coins coin.path u := by
    obtain ⟨goal, prerequisites, description, flavorText, rarity⟩ := u
    cases goal with
    | landOnCoins l =>
        obtain ⟨listed, count, dynamic⟩ := l
        cases dynamic <;> rfl
    | _ => rfl
  rw [expand, expand, Option.map_map, expand]
  exact congrArg (Coin.mk _ _ _ _ · _) (Option.map_congr fun u _ => hfill u)

/-- What a dynamic list stands for, coin by coin. -/
theorem others_eq (coins : List Coin) (path : String) :
    others coins path =
      (coins.filter fun d => d.goalKind != .none && d.path != path).map (·.path) := by
  rw [others, unlockable, List.filter_map, List.filter_filter]
  congr 1
  refine List.filter_congr fun d _ => ?_
  exact Bool.and_comm _ _

/-- It is the same after filling in. -/
theorem others_map_expand (coins more : List Coin) (path : String) :
    others (coins.map (expand more)) path = others coins path := by
  rw [others_eq, others_eq, List.filter_map, List.map_map]
  simp only [Function.comp_def, goalKind_expand, expand_path]

/-- Filling in asks only what a list stands for. -/
theorem expand_congr {coins more : List Coin} (h : ∀ path, others coins path = others more path)
    (coin : Coin) : expand coins coin = expand more coin := by
  have hfill : fillIn coins coin.path = fillIn more coin.path := by
    funext u
    rw [fillIn, h, fillIn]
  rw [expand, hfill, expand]

end FillIn

/-! ## catalogs -/

/-- A coin is found at its path. -/
theorem get?_of_mem {c : Catalog} {coin : Coin} (h : coin ∈ c.coins) :
    c.get? coin.path = some coin :=
  find?_of_nodup c.nodup h

/-- Where no coin is found, none has the path. -/
theorem notMem_of_get?_eq_none {c : Catalog} {path : String} (h : c.get? path = none) :
    path ∉ c.coins.map (·.path) := by
  intro hmem
  obtain ⟨coin, hcoin, rfl⟩ := List.mem_map.1 hmem
  rw [get?_of_mem hcoin] at h
  contradiction

/-- Catalogs of the same coins are equal. -/
theorem eq_of_coins_eq {c d : Catalog} (h : c.coins = d.coins) : c = d := by
  cases c
  cases d
  cases h
  rfl

section OfCoins

variable (coins : List Coin)

theorem coins_ofCoins : (ofCoins coins).coins = (keepFirst coins).map (expand (keepFirst coins)) :=
  rfl

theorem paths_ofCoins : (ofCoins coins).paths = (keepFirst coins).map (·.path) := by
  rw [paths, coins_ofCoins, List.map_map]
  rfl

theorem others_ofCoins (path : String) :
    others (ofCoins coins).coins path = others (keepFirst coins) path :=
  others_map_expand _ _ path

variable {coins}

/-- The coins of a catalog are the first ones of their paths, their dynamic lists filled in. -/
theorem mem_ofCoins_iff {coin : Coin} :
    coin ∈ (ofCoins coins).coins ↔
      ∃ first, coins.find? (fun d => d.path == coin.path) = some first ∧
        coin = expand (ofCoins coins).coins first := by
  have hexpand (first : Coin) :
      expand (ofCoins coins).coins first = expand (keepFirst coins) first :=
    expand_congr (others_ofCoins coins) first
  rw [coins_ofCoins, List.mem_map]
  constructor
  · rintro ⟨first, hfirst, rfl⟩
    refine ⟨first, ?_, (hexpand first).symm⟩
    rw [expand_path, ← find?_keepFirst]
    exact find?_of_nodup (keepFirst_nodup coins) hfirst
  · rintro ⟨first, hfirst, he⟩
    rw [← find?_keepFirst] at hfirst
    exact ⟨first, List.mem_of_find?_eq_some hfirst, (he.trans (hexpand first)).symm⟩

/-- A catalog of the coins of a catalog is that catalog, whatever coins of its paths come after
them. -/
theorem ofCoins_append {more : List Coin} (h : ∀ d ∈ more, d.path ∈ (ofCoins coins).paths) :
    ofCoins ((ofCoins coins).coins ++ more) = ofCoins coins := by
  have hkept : keepFirst ((ofCoins coins).coins ++ more) = (ofCoins coins).coins := by
    rw [keepFirst_append, keepFirst_of_nodup (ofCoins coins).nodup, List.filter_eq_nil_iff.2,
      List.append_nil]
    intro d hd
    have hpath : d.path ∈ (ofCoins coins).paths := by
      have hkept : d.path ∈ (keepFirst more).map (·.path) := List.mem_map_of_mem hd
      rw [map_path_keepFirst, List.mem_eraseDups] at hkept
      obtain ⟨e, he, hpath⟩ := List.mem_map.1 hkept
      exact hpath ▸ h e he
    rw [← paths, List.contains_iff_mem.2 hpath]
    decide
  refine eq_of_coins_eq ?_
  rw [coins_ofCoins, hkept, coins_ofCoins, List.map_map]
  refine List.map_congr_left fun coin _ => ?_
  rw [Function.comp_apply, expand_expand]
  exact expand_congr (others_ofCoins coins) coin

end OfCoins

end CoinToss.Catalog

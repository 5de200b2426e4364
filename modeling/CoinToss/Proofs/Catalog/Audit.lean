import CoinToss.Coin.Audit
import CoinToss.Proofs.Unlock.Futile

/-!
# CoinToss.Proofs.Catalog.Audit

Which futile goals an author is told about.

The audit and the evaluation ask different questions of a goal.  The audit asks them of the coin's
own goal and of its prerequisites in turn, and lets a dynamic list do without coins:

```
futile goal                                as the coin's own    as a prerequisite
no coin, or an unknown one                 told                 told
a list with an unknown coin                told                 told
a run of no length                         told                 passed over
a list without coins, not dynamic          told                 passed over
a dynamic list without coins               passed over          passed over
a list with the empty path of a coin       passed over          passed over
```

* `Goal.Dangling` — futile goals told wherever they stand;
* `Goal.Void` — those told as a coin's own;
* `Goal.Overlooked` — those passed over wherever they stand;
* `futile_iff` — there are no others;
* `mistakes_of_dangling_or_void` — the audit tells of a coin that waits for one of the former two.
-/

namespace CoinToss

/-! ## futile goals, as the audit knows them -/

/-- Goals that name no coin of the catalog. -/
inductive Goal.Dangling (c : Catalog) : Goal → Prop
  | noCoin (count : Int) : Dangling c (.landOnCoin Option.none count)
  | unknownCoin {path : String} (h : path = "" ∨ path ∉ c.paths) (count : Int) :
      Dangling c (.landOnCoin (some path) count)
  | unknownCoins {l : CoinList} {path : String} (hmem : path ∈ l.coins) (h : path ∉ c.paths) :
      Dangling c (.landOnCoins l)

/-- Goals that ask for nothing: no coins, or a run of no length. -/
inductive Goal.Void : Goal → Prop
  | noCoins {l : CoinList} (hcoins : l.coins = []) (hfixed : l.dynamic = false) :
      Void (.landOnCoins l)
  | noRun {r : RunRule} (h : r.length ≤ 0) : Void (.run r)

/-- Lists that are futile only once the catalog is made: a dynamic one without coins, and one that
names the empty path where a coin has it. -/
inductive Goal.Overlooked (c : Catalog) : Goal → Prop
  | noOthers {l : CoinList} (hcoins : l.coins = []) (hdynamic : l.dynamic = true) :
      Overlooked c (.landOnCoins l)
  | emptyPath {l : CoinList} (hmem : "" ∈ l.coins) (h : "" ∈ c.paths) :
      Overlooked c (.landOnCoins l)

section Audit

variable {c : Catalog}

/-- Every futile goal is one of these. -/
theorem Goal.futile_iff {g : Goal} : g.Futile c ↔ g.Dangling c ∨ g.Void ∨ g.Overlooked c := by
  constructor
  · intro h
    cases h with
    | noCoin count => exact .inl (.noCoin count)
    | unknownCoin h count => exact .inl (.unknownCoin h count)
    | @noCoins l h =>
        cases hdynamic : l.dynamic with
        | false => exact .inr (.inl (.noCoins h hdynamic))
        | true => exact .inr (.inr (.noOthers h hdynamic))
    | @unknownCoins l path hmem h =>
        by_cases hpath : path ∈ c.paths
        · obtain rfl : path = "" := h.resolve_right (not_not_intro hpath)
          exact .inr (.inr (.emptyPath hmem hpath))
        · exact .inl (.unknownCoins hmem hpath)
    | noRun h => exact .inr (.inl (.noRun h))
  · rintro (h | h | h)
    · cases h with
      | noCoin count => exact .noCoin count
      | unknownCoin h count => exact .unknownCoin h count
      | unknownCoins hmem h => exact .unknownCoins hmem (.inr h)
    · cases h with
      | noCoins h => exact .noCoins h
      | noRun h => exact .noRun h
    · cases h with
      | noOthers h => exact .noCoins h
      | emptyPath hmem => exact .unknownCoins hmem (.inl rfl)

/-! ## what is told of a coin -/

theorem mem_mistakeIf {test : Bool} (m : Mistake) (h : test = true) : m ∈ mistakeIf test m := by
  rw [mistakeIf, if_pos h]
  exact List.mem_singleton_self m

section Coin

variable {coin : Coin} {u : Condition} {known : Option (List String)}

/-- A mistake in its own goal is told. -/
theorem Coin.mem_mistakes_of_goal (hu : coin.unlock = some u) {m : Mistake}
    (hm : m ∈ u.goal.mistakes) : m ∈ coin.mistakes known := by
  rw [mistakes, hu]
  exact List.mem_append_left _ (List.mem_append_left _ hm)

/-- A mistake in a prerequisite is told, whichever number it has. -/
theorem Coin.mistakes_ne_nil_of_prerequisite (hu : coin.unlock = some u) {p : Condition}
    (hp : p ∈ u.prerequisites) (h : ∀ i, p.mistakesAsPrerequisite coin.path i ≠ []) :
    coin.mistakes known ≠ [] := by
  obtain ⟨i, hi⟩ := List.getElem?_of_mem hp
  obtain ⟨m, hm⟩ := List.exists_mem_of_ne_nil _ (h (1 + i))
  have hnumbered : (p, 1 + i) ∈ u.prerequisites.zipIdx 1 :=
    List.mk_add_mem_zipIdx_iff_getElem?.2 hi
  rw [mistakes, hu]
  exact List.ne_nil_of_mem (List.mem_append_left _ (List.mem_append_right _
    (List.mem_flatMap.2 ⟨_, hnumbered, hm⟩)))

/-- A reference to an unknown coin is told, wherever it stands. -/
theorem Coin.mem_mistakes_of_reference (hu : coin.unlock = some u) {g : Goal}
    (hg : g = u.goal ∨ g ∈ u.required) {paths : List String} {path : String}
    (hpath : path ∈ g.references) (h : path ∉ paths) :
    .unknownCoin path ∈ coin.mistakes (some paths) := by
  have hreferences : path ∈ (u.goal :: u.required).flatMap Goal.references :=
    List.mem_flatMap.2 ⟨g, List.mem_cons.2 hg, hpath⟩
  have hunknown : ¬paths.contains path = true := by simpa using h
  rw [mistakes, hu]
  refine List.mem_append_right _ (List.mem_filterMap.2 ⟨path, hreferences, ?_⟩)
  rw [if_neg hunknown]

end Coin

/-! ## what is told of futile goals -/

/-- A goal that dangles names no coin, or refers to an unknown one. -/
theorem Goal.Dangling.cases_references {g : Goal} (h : g.Dangling c) :
    (∃ path count, g = .landOnCoin path count ∧ isUnset path = true) ∨
      ∃ path ∈ g.references, path ∉ c.paths := by
  cases h with
  | noCoin count => exact .inl ⟨_, count, rfl, rfl⟩
  | @unknownCoin path h count =>
      by_cases hpath : path = ""
      · exact .inl ⟨_, count, rfl, decide_eq_true hpath⟩
      · refine .inr ⟨path, ?_, h.resolve_left hpath⟩
        have hset : ¬isUnset (some path) = true := mt of_decide_eq_true hpath
        rw [references, if_neg hset]
        exact List.mem_singleton_self path
  | @unknownCoins l path hmem h => exact .inr ⟨path, hmem, h⟩

/-- A goal that asks for nothing is told as a coin's own. -/
theorem Goal.Void.mistakes_ne_nil {g : Goal} (h : g.Void) : g.mistakes ≠ [] := by
  cases h with
  | @noCoins l hcoins hfixed =>
      have htest : (!l.dynamic && l.coins.isEmpty) = true := by rw [hcoins, hfixed]; rfl
      exact List.ne_nil_of_mem (List.mem_append_right _ (mem_mistakeIf .noCoins htest))
  | @noRun r h =>
      have hlength := mem_mistakeIf .runLength (decide_eq_true h)
      exact List.ne_nil_of_mem
        (List.mem_append_left _ (List.mem_append_left _ (List.mem_append_left _ hlength)))

/-- A goal that dangles is told as a coin's own. -/
theorem Coin.mistakes_of_dangling_goal {coin : Coin} {u : Condition} (hu : coin.unlock = some u)
    (h : u.goal.Dangling c) : coin.mistakes (some c.paths) ≠ [] := by
  obtain ⟨path, count, hgoal, hunset⟩ | ⟨path, hpath, hunknown⟩ := h.cases_references
  · have hm : .noCoin ∈ u.goal.mistakes := by
      rw [hgoal]
      exact List.mem_append_left _ (mem_mistakeIf .noCoin hunset)
    exact List.ne_nil_of_mem (mem_mistakes_of_goal hu hm)
  · exact List.ne_nil_of_mem (mem_mistakes_of_reference hu (.inl rfl) hpath hunknown)

/-- And so it is as a prerequisite. -/
theorem Coin.mistakes_of_dangling_prerequisite {coin : Coin} {u p : Condition}
    (hu : coin.unlock = some u) (hp : p ∈ u.prerequisites) (h : p.goal.Dangling c) :
    coin.mistakes (some c.paths) ≠ [] := by
  obtain ⟨path, count, hgoal, hunset⟩ | ⟨path, hpath, hunknown⟩ := h.cases_references
  · refine mistakes_ne_nil_of_prerequisite hu hp fun i => ?_
    rw [Condition.mistakesAsPrerequisite, hgoal]
    dsimp only
    rw [if_pos hunset]
    exact List.ne_nil_of_mem (List.mem_append_left _ (List.mem_append_left _ (.head _)))
  · have hrequired : p.goal ∈ u.required := List.mem_map_of_mem hp
    exact List.ne_nil_of_mem (mem_mistakes_of_reference hu (.inr hrequired) hpath hunknown)

/-- The audit tells of every coin that waits for a goal that names no coin of the catalog, be it a
prerequisite or its own, or that asks for nothing itself. -/
theorem mistakes_of_dangling_or_void {coin : Coin}
    (h : coin.goal.Dangling c ∨ coin.goal.Void ∨ ∃ g ∈ coin.required, g.Dangling c) :
    coin.mistakes (some c.paths) ≠ [] := by
  cases hu : coin.unlock with
  | none =>
      rw [Coin.goal, Coin.required, hu] at h
      obtain h | h | ⟨g, hg, -⟩ := h
      · cases h
      · cases h
      · contradiction
  | some u =>
      rw [Coin.goal, Coin.required, hu] at h
      obtain h | h | ⟨g, hg, h⟩ := h
      · exact Coin.mistakes_of_dangling_goal hu h
      · obtain ⟨m, hm⟩ := List.exists_mem_of_ne_nil _ h.mistakes_ne_nil
        exact List.ne_nil_of_mem (Coin.mem_mistakes_of_goal hu hm)
      · obtain ⟨p, hp, rfl⟩ := List.mem_map.1 hg
        exact Coin.mistakes_of_dangling_prerequisite hu hp h

end Audit

/-- A coin with a goal and prerequisites of which nothing is told. -/
def untold (path : String) (goal : Goal) (required : List Goal) : Coin where
  path := path
  name := ""
  category := ""
  rarity := none
  unlock := some
    { goal := goal
      prerequisites := required.map fun g => ⟨g, [], "", "", .common⟩
      description := ""
      flavorText := ""
      rarity := .common }
  effect := none

/-- A coin that asks for a landing on a coin that is not there. -/
def astray : Coin := untold "astray" (.totalFlips 1) [.landOnCoins ⟨["elsewhere"], 1, false⟩]

/-- Its author is told of the other coin. -/
theorem mistakes_of_dangling_or_void_astray :
    let c := Catalog.ofCoins [astray]
    (∃ g ∈ astray.required, g.Dangling c) ∧ astray.mistakes (some c.paths) ≠ [] := by
  intro c
  have hrequired : ∃ g ∈ astray.required, g.Dangling c :=
    ⟨_, .head _, .unknownCoins (.head _) (by decide)⟩
  exact ⟨hrequired, mistakes_of_dangling_or_void (.inr (.inr hrequired))⟩

/-- A list of all other coins, of which there is none that can be unlocked. -/
def lastOne : Coin := untold "last" (.landOnCoins ⟨[], 1, true⟩) []

/-- Prerequisites that nothing reaches: no coins, no run, and the path of a coin without a name. -/
def hopeless : List Coin :=
  [untold "no coins" .none [.landOnCoins ⟨[], 1, false⟩],
    untold "no run" .none [.run ⟨.anyEffect, [], none, none, 0, .either, 0⟩],
    untold "" .none [.landOnCoins ⟨[""], 1, false⟩]]

/-- None of these is told. -/
theorem futile_and_untold :
    let c := Catalog.ofCoins (lastOne :: hopeless)
    c.coins = lastOne :: hopeless ∧
      (lastOne.goal.Futile c ∧ lastOne.mistakes (some c.paths) = []) ∧
      ∀ coin ∈ hopeless,
        (∃ g ∈ coin.required, g.Futile c) ∧ coin.mistakes (some c.paths) = [] := by
  intro c
  refine ⟨rfl, ⟨.noCoins rfl, by decide⟩, ?_⟩
  simp only [hopeless, List.forall_mem_cons]
  refine ⟨⟨⟨_, .head _, .noCoins rfl⟩, by decide⟩,
    ⟨⟨_, .head _, .noRun (by decide)⟩, by decide⟩,
    ⟨⟨_, .head _, .unknownCoins (.head _) (.inl rfl)⟩, by decide⟩, ?_⟩
  intro coin hnone
  contradiction

end CoinToss

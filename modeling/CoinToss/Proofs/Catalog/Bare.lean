import CoinToss.Flip.Face
import CoinToss.Session.Play

/-!
# CoinToss.Proofs.Catalog.Bare

Coins without what is only told of them.

A bare coin has no name, no category and no texts, and its prerequisites have no prerequisites of
their own.  Its path, its rarities, its goals and its effect are all there:

```
coin             kept                       left out
coin             path, rarity               name, category
condition        goal, rarity               description, flavor text
prerequisite     goal, rarity               description, flavor text, prerequisites
effect           effect                     description
```

* `Coin.bare`, `Catalog.bare` — what is left of a coin and of a catalog;
* `ofCoins_map_bare` — the catalog of bare coins is the bare catalog;
* `isUnlocked_bare`, `matchesLanding_bare` — a bare coin is decided about alike;
* `showFace_bare`, `faces_bare` — a bare catalog shows the same faces, to the same effect.
-/

namespace CoinToss

open Decimal

/-! ## bare coins -/

/-- A condition for itself: without texts and without prerequisites. -/
def Condition.alone (c : Condition) : Condition :=
  { c with prerequisites := [], description := "", flavorText := "" }

/-- A condition without texts, each of its prerequisites for itself. -/
def Condition.bare (c : Condition) : Condition :=
  { c with
    prerequisites := c.prerequisites.map Condition.alone, description := "", flavorText := "" }

/-- An effect without its text. -/
def CoinEffect.bare (e : CoinEffect) : CoinEffect := { e with description := "" }

/-- A coin without what is only told of it. -/
def Coin.bare (coin : Coin) : Coin :=
  { coin with
    name := ""
    category := ""
    unlock := coin.unlock.map Condition.bare
    effect := coin.effect.map CoinEffect.bare }

namespace Coin

variable (coin : Coin)

@[simp] theorem path_bare : coin.bare.path = coin.path := rfl

@[simp] theorem rarity_bare : coin.bare.rarity = coin.rarity := rfl

@[simp] theorem unlock_bare : coin.bare.unlock = coin.unlock.map Condition.bare := rfl

@[simp] theorem effect_bare : coin.bare.effect = coin.effect.map CoinEffect.bare := rfl

@[simp] theorem goal_bare : coin.bare.goal = coin.goal := by
  rw [goal, unlock_bare, Option.map_map]
  rfl

/-- The goals of the prerequisites are all there. -/
@[simp] theorem required_bare : coin.bare.required = coin.required := by
  have halone (c : Condition) : c.bare.required = c.required := by
    rw [Condition.required, Condition.bare, List.map_map]
    rfl
  rw [required, unlock_bare, Option.map_map, required]
  exact congrArg (Option.getD · []) (Option.map_congr fun c _ => halone c)

@[simp] theorem effectiveRarity_bare : coin.bare.effectiveRarity = coin.effectiveRarity := by
  rw [effectiveRarity, rarity_bare, unlock_bare, Option.map_map]
  rfl

@[simp] theorem isConfigured_bare : coin.bare.isConfigured = coin.isConfigured := by
  simp [isConfigured]

@[simp] theorem goalKind_bare : coin.bare.goalKind = coin.goalKind := by
  rw [goalKind, goal_bare, goalKind]

@[simp] theorem faceEffect_bare : coin.bare.faceEffect = coin.faceEffect := by
  rw [faceEffect, effect_bare, Option.map_map]
  rfl

@[simp] theorem effectKind_bare : coin.bare.effectKind = coin.effectKind := by
  rw [effectKind, faceEffect_bare, effectKind]

@[simp] theorem prerequisiteCount_bare : coin.bare.prerequisiteCount = coin.prerequisiteCount := by
  rw [prerequisiteCount, required_bare, prerequisiteCount]

/-- A bare coin is decided about alike. -/
@[simp] theorem isUnlocked_bare (known : Known) (p : Progress) :
    coin.bare.isUnlocked known p = coin.isUnlocked known p := by
  simp [isUnlocked, isStamped, meetsPrerequisites, meetsGoal]

@[simp] theorem meetsPrerequisites_bare (known : Known) (p : Progress) :
    coin.bare.meetsPrerequisites known p = coin.meetsPrerequisites known p := by
  simp [meetsPrerequisites]

@[simp] theorem weight_bare (table : WeightTable) : coin.bare.weight table = coin.weight table := by
  rw [weight, effectiveRarity_bare, weight]

end Coin

/-! ## bare catalogs -/

namespace Catalog

/-- A catalog of bare coins. -/
def bare (c : Catalog) : Catalog where
  coins := c.coins.map Coin.bare
  nodup := by
    rw [List.map_map]
    exact c.nodup

@[simp] theorem coins_bare (c : Catalog) : c.bare.coins = c.coins.map Coin.bare := rfl

/-- What is asked of bare coins may be asked of the coins. -/
theorem filter_map_bare {q r : Coin → Bool} (h : ∀ coin : Coin, q coin.bare = r coin)
    (coins : List Coin) : (coins.map Coin.bare).filter q = (coins.filter r).map Coin.bare := by
  rw [List.filter_map]
  congr 1
  exact List.filter_congr fun coin _ => h coin

theorem keepFirst_map_bare (coins : List Coin) :
    keepFirst (coins.map Coin.bare) = (keepFirst coins).map Coin.bare := by
  induction coins with
  | nil => rfl
  | cons coin coins ih =>
      rw [List.map_cons, keepFirst, ih, List.filter_map, keepFirst, List.map_cons]
      rfl

theorem others_map_bare (coins : List Coin) (path : String) :
    others (coins.map Coin.bare) path = others coins path := by
  have hunlockable : unlockable (coins.map Coin.bare) = unlockable coins := by
    have hgoal (coin : Coin) : (coin.bare.goalKind != .none) = (coin.goalKind != .none) := by
      rw [Coin.goalKind_bare]
    rw [unlockable, filter_map_bare hgoal, List.map_map, unlockable]
    rfl
  rw [others, hunlockable, others]

theorem fillIn_bare (coins : List Coin) (path : String) (c : Condition) :
    fillIn (coins.map Coin.bare) path c.bare = (fillIn coins path c).bare := by
  obtain ⟨goal, prerequisites, description, flavorText, rarity⟩ := c
  cases goal with
  | landOnCoins l =>
      simp only [fillIn, Condition.bare, others_map_bare]
      split <;> rfl
  | _ => rfl

theorem expand_bare (coins : List Coin) (coin : Coin) :
    expand (coins.map Coin.bare) coin.bare = (expand coins coin).bare := by
  cases hu : coin.unlock with
  | none => simp [expand, Coin.bare, hu]
  | some u => simp [expand, Coin.bare, hu, fillIn_bare]

/-- The catalog of bare coins is the bare catalog: doublets are told by their paths, and dynamic
lists are filled in with paths. -/
theorem ofCoins_map_bare (coins : List Coin) :
    ofCoins (coins.map Coin.bare) = (ofCoins coins).bare := by
  have hcoins : (keepFirst (coins.map Coin.bare)).map (expand (keepFirst (coins.map Coin.bare))) =
      ((keepFirst coins).map (expand (keepFirst coins))).map Coin.bare := by
    rw [keepFirst_map_bare, List.map_map, List.map_map]
    exact List.map_congr_left fun coin _ => expand_bare _ coin
  simp only [ofCoins, bare, hcoins]

@[simp] theorem get?_bare (c : Catalog) (path : String) :
    c.bare.get? path = (c.get? path).map Coin.bare := by
  rw [get?, coins_bare, List.find?_map, get?]
  rfl

@[simp] theorem known_bare (c : Catalog) : c.bare.known = c.known := by
  funext path
  rw [known, contains, get?_bare, Option.isSome_map, known, contains]

/-! ## landings -/

/-- A run counts a coin by what is left of it. -/
theorem picksIn_bare (r : RunRule) (c : Catalog) (path : Option String) :
    r.picksIn c.bare path = r.picksIn c path := by
  have hcoin : path.bind c.bare.get? = (path.bind c.get?).map Coin.bare := by
    cases path with
    | none => rfl
    | some q => exact c.get?_bare q
  rw [RunRule.picksIn, hcoin, RunRule.picksIn]
  generalize path.bind c.get? = coin
  unfold RunRule.picks
  cases r.filter <;> cases coin <;> simp

@[simp] theorem matchesLanding_bare (r : RunRule) (c : Catalog) (l : Landing) :
    r.matchesLanding c.bare l = r.matchesLanding c l := by
  unfold RunRule.matchesLanding
  simp only [picksIn_bare]

/-! ## faces -/

@[simp] theorem faces_bare (c : Catalog) (heads tails : String) :
    c.bare.faces heads tails = c.faces heads tails := by
  have heffect (path : String) : c.bare.effectAt path = c.effectAt path := by
    rw [effectAt, get?_bare, Option.map_map, effectAt]
    congr 2
    funext coin
    exact coin.faceEffect_bare
  rw [faces, heffect, heffect, faces]

theorem selectable_bare (c : Catalog) (p : Progress) :
    c.bare.selectable p = (c.selectable p).map Coin.bare := by
  rw [selectable, coins_bare, known_bare]
  exact filter_map_bare (fun coin => by simp) c.coins

end Catalog

section Pick

variable {α β γ : Type} [Quantity α]

/-- A pick goes by the weights alone. -/
theorem pickShare_map (f : β → γ) (target sum : α) (last : Option β) (candidates : List (β × α)) :
    pickShare target sum (last.map f) (candidates.map fun x => (f x.1, x.2)) =
      (pickShare target sum last candidates).map f := by
  induction candidates generalizing sum last with
  | nil => rfl
  | cons x rest ih =>
      rw [List.map_cons, pickShare, pickShare, ih, ← Option.map_some, ih]
      split
      · rfl
      · split <;> rfl

theorem totalWeight_map (f : β → γ) (candidates : List (β × α)) :
    totalWeight (candidates.map fun x => (f x.1, x.2)) = totalWeight candidates := by
  rw [totalWeight, List.foldl_map, totalWeight]

end Pick

theorem weighed_map_bare (table : WeightTable) (coins : List Coin) :
    weighed table (coins.map Coin.bare) =
      (weighed table coins).map fun x => (x.1.bare, x.2) := by
  simp [weighed]

theorem pickWeighted_map_bare (table : WeightTable) (coins : List Coin) (source : Source) :
    pickWeighted table (coins.map Coin.bare) source =
      ((pickWeighted table coins source).1.map Coin.bare, (pickWeighted table coins source).2) := by
  have hweight : hasWeight (weighed table (coins.map Coin.bare)) =
      hasWeight (weighed table coins) := by
    rw [hasWeight, weighed_map_bare, totalWeight_map, hasWeight]
  have hpick (draw : Float) : pickByDraw (weighed table (coins.map Coin.bare)) draw =
      (pickByDraw (weighed table coins) draw).map Coin.bare := by
    rw [pickByDraw, weighed_map_bare, totalWeight_map]
    exact pickShare_map Coin.bare _ _ none _
  simp only [pickWeighted, hweight, hpick]
  by_cases h : hasWeight (weighed table coins) = true
  · rw [if_pos h, if_pos h]
  · rw [if_neg h, if_neg h, Option.map_none]

/-- A bare catalog shows the same faces and takes the same draws for it. -/
@[simp] theorem showFace_bare (c : Catalog) (p : Progress) (table : WeightTable) (chosen : String)
    (isRandom : Bool) (source : Source) :
    showFace c.bare p table chosen isRandom source =
      showFace c p table chosen isRandom source := by
  unfold showFace
  split
  · simp only [Catalog.selectable_bare, pickWeighted_map_bare, Option.map_map]
    rfl
  · rfl

end CoinToss

import CoinToss.Decimal.Quantity
import CoinToss.Random.Source
import CoinToss.Unlock.Evaluation

/-!
# CoinToss.Flip.Face

Which coin a face shows.

A face shows the coin chosen for it, or a random one among the unlocked coins that have a
condition or an effect.  Rarer coins weigh less.  A weighted pick walks along the weights until
their sum reaches the drawn share of the total; coins without weight are stepped over, and where
rounding leaves the share beyond the last sum, the last coin is taken.

* `pickShare_mem` — a pick is one of the candidates.
-/

namespace CoinToss

open Decimal Schema

/-! ## weights -/

/-- Weights by the name of a rarity. -/
abbrev WeightTable := List (String × Float)

/-- The weights used where none are given. -/
def standardWeights : WeightTable :=
  [("Common", 1), ("Uncommon", 0.5), ("Rare", 0.25), ("Legendary", 0.1)]

/-- The weight of a rarity in a table; one that is not there weighs nothing. -/
def WeightTable.weight (table : WeightTable) (r : Rarity) : Float :=
  (Tally.find? (Named.name r) table).getD 0

/-- The table in force: an empty one stands for the standard one. -/
def WeightTable.orStandard (table : WeightTable) : WeightTable :=
  if table.isEmpty then standardWeights else table

/-- The weight of a coin; only a positive one counts. -/
def Coin.weight (table : WeightTable) (coin : Coin) : Float :=
  let w := table.orStandard.weight coin.effectiveRarity
  if 0 < w then w else 0

/-! ## picking -/

section Pick

variable {α β : Type} [Quantity α]

/-- The sum of weights, from left to right. -/
def totalWeight (candidates : List (β × α)) : α :=
  candidates.foldl (fun sum c => sum + c.2) (Quantity.ofRatio 0 1)

/-- The first candidate whose summed weight reaches the target, else the last one with a
weight. -/
def pickShare (target : α) (sum : α) (last : Option β) : List (β × α) → Option β
  | [] => last
  | (b, w) :: rest =>
    if Quantity.le w (Quantity.ofRatio 0 1) then pickShare target sum last rest
    else if Quantity.le target (sum + w) then some b
    else pickShare target (sum + w) (some b) rest

/-- Whether there is anything to pick from. -/
def hasWeight (candidates : List (β × α)) : Bool :=
  !Quantity.le (totalWeight candidates) (Quantity.ofRatio 0 1)

/-- The candidate that a draw picks. -/
def pickByDraw (candidates : List (β × α)) (draw : α) : Option β :=
  pickShare (draw * totalWeight candidates) (Quantity.ofRatio 0 1) none candidates

/-- A pick is one of the candidates, or the one at hand. -/
theorem pickShare_mem {target sum : α} {last : Option β} {candidates : List (β × α)} {b : β}
    (h : pickShare target sum last candidates = some b) :
    last = some b ∨ ∃ w, (b, w) ∈ candidates := by
  induction candidates generalizing sum last with
  | nil => exact .inl h
  | cons c rest ih =>
    obtain ⟨d, w⟩ := c
    simp only [pickShare] at h
    split at h
    · rcases ih h with e | ⟨v, hv⟩
      · exact .inl e
      · exact .inr ⟨v, List.mem_cons_of_mem _ hv⟩
    · split at h
      · cases h; exact .inr ⟨w, by simp⟩
      · rcases ih h with e | ⟨v, hv⟩
        · cases e; exact .inr ⟨w, by simp⟩
        · exact .inr ⟨v, List.mem_cons_of_mem _ hv⟩

end Pick

/-- Coins with their weights. -/
def weighed (table : WeightTable) (coins : List Coin) : List (Coin × Float) :=
  coins.map fun coin => (coin, coin.weight table)

/-- A weighted pick; without any weight there is none and nothing is drawn. -/
def pickWeighted (table : WeightTable) (coins : List Coin) (source : Source) :
    Option Coin × Source :=
  let candidates := weighed table coins
  if hasWeight candidates then
    let (draw, source) := source.draw
    (pickByDraw candidates draw, source)
  else (none, source)

/-- Nothing can be picked: a path is that of no coin. -/
structure NoCoin where
  path : String
  deriving DecidableEq, Repr

/-- What is told of a path that is that of no coin. -/
def NoCoin.message (_ : NoCoin) : String :=
  "'NoneType' object has no attribute 'effective_rarity'"

/-- The coins at some paths, which all have to be there. -/
def Catalog.named (c : Catalog) (paths : List String) : Except NoCoin (List Coin) :=
  paths.mapM fun path =>
    match c.get? path with
    | some coin => .ok coin
    | none => .error ⟨path⟩

/-! ## faces -/

/-- The coins that a random face chooses from. -/
def Catalog.selectable (c : Catalog) (p : Progress) : List Coin :=
  c.coins.filter fun coin => coin.isConfigured && coin.isUnlocked c.known p

/-- The path a face shows: the chosen one, or a random pick if there is any. -/
def showFace (c : Catalog) (p : Progress) (table : WeightTable) (chosen : String)
    (isRandom : Bool) (source : Source) : String × Source :=
  if isRandom then
    let (picked, source) := pickWeighted table (c.selectable p) source
    ((picked.map (·.path)).getD chosen, source)
  else (chosen, source)

end CoinToss

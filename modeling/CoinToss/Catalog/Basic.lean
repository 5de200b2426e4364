import CoinToss.Coin.Basic

/-!
# CoinToss.Catalog.Basic

Catalogs: coins in order, no two of one path.

`Catalog.ofCoins` drops a coin whose path has been seen and fills in the dynamic coin lists, so
that whoever asks a catalog sees lists of paths only.

* `keepFirst_nodup` — the kept coins have different paths;
* `get?_path`, `contains_iff` — what a look-up finds.
-/

namespace CoinToss

/-- Coins in order, each of its own path. -/
structure Catalog where
  coins : List Coin
  nodup : (coins.map (·.path)).Nodup := by simp

namespace Catalog

/-! ## construction -/

/-- The first coin of each path. -/
def keepFirst : List Coin → List Coin
  | [] => []
  | c :: cs => c :: (keepFirst cs).filter fun d => d.path != c.path

/-- The paths of the coins that come after one of the same path. -/
def repeated (seen : List String) : List Coin → List String
  | [] => []
  | c :: cs =>
    if seen.contains c.path then c.path :: repeated seen cs else repeated (c.path :: seen) cs

/-- Coins that can be unlocked: those with a goal. -/
def unlockable (coins : List Coin) : List String :=
  (coins.filter fun c => c.goalKind != .none).map (·.path)

/-- The coins that a dynamic list of the coin at a path stands for. -/
def others (coins : List Coin) (path : String) : List String :=
  (unlockable coins).filter (· != path)

/-- A coin's condition with its dynamic list filled in. -/
def fillIn (coins : List Coin) (path : String) (c : Condition) : Condition :=
  match c.goal with
  | .landOnCoins l =>
    if l.dynamic then { c with goal := .landOnCoins { l with coins := others coins path } } else c
  | _ => c

/-- A coin with its dynamic list filled in. -/
def expand (coins : List Coin) (coin : Coin) : Coin :=
  { coin with unlock := coin.unlock.map (fillIn coins coin.path) }

/-- Whether the coin's own list is dynamic. -/
def hasDynamicList (coin : Coin) : Bool :=
  match coin.goal with
  | .landOnCoins l => l.dynamic
  | _ => false

theorem keepFirst_nodup (coins : List Coin) : ((keepFirst coins).map (·.path)).Nodup := by
  induction coins with
  | nil => simp [keepFirst]
  | cons c cs ih =>
    simp only [keepFirst, List.map_cons, List.nodup_cons, List.mem_map, List.mem_filter]
    refine ⟨?_, ih.sublist (List.filter_sublist.map _)⟩
    rintro ⟨d, ⟨_, hd⟩, e⟩
    simp [e] at hd

@[simp] theorem expand_path (coins : List Coin) (coin : Coin) :
    (expand coins coin).path = coin.path := rfl

/-- The catalog of a list of coins. -/
def ofCoins (coins : List Coin) : Catalog where
  coins := (keepFirst coins).map (expand (keepFirst coins))
  nodup := by
    rw [List.map_map]
    exact keepFirst_nodup coins

/-- The catalog without coins. -/
def empty : Catalog := ⟨[], by simp⟩

instance : Inhabited Catalog := ⟨empty⟩

/-! ## looking up -/

/-- The paths, in order. -/
def paths (c : Catalog) : List String := c.coins.map (·.path)

/-- How many coins there are. -/
def size (c : Catalog) : Nat := c.coins.length

/-- The coin at a path. -/
def get? (c : Catalog) (path : String) : Option Coin := c.coins.find? fun coin => coin.path == path

/-- Whether a path names a coin. -/
def contains (c : Catalog) (path : String) : Bool := (c.get? path).isSome

/-- The coins with a goal of a kind, in order. -/
def ofKind (c : Catalog) (kind : GoalKind) : List Coin :=
  c.coins.filter fun coin => coin.goalKind == kind

/-- The coin found at a path has that path. -/
theorem get?_path {c : Catalog} {path : String} {coin : Coin} (h : c.get? path = some coin) :
    coin.path = path := by
  simpa using List.find?_some h

/-- A path names a coin exactly when it is one of the paths. -/
theorem contains_iff (c : Catalog) (path : String) : c.contains path = true ↔ path ∈ c.paths := by
  simp [contains, get?, paths, List.find?_isSome, List.mem_map]

end Catalog

end CoinToss

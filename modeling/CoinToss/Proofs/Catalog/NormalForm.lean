import CoinToss.Proofs.Catalog.Kept
import Mathlib.Data.List.Perm.Lattice
import Mathlib.Data.List.Nodup

/-!
# CoinToss.Proofs.Catalog.NormalForm

A catalog as the normal form of a list of coins.

The catalog of a list is told by five laws, which mention neither how doublets are dropped nor how
lists are filled in.  By the last one making a catalog is a projection: a catalog is the catalog of
its own coins.

* `Catalog.IsNormalForm` — the laws;
* `sublist_ofKind`, `mem_ofKind_iff`, `perm_flatMap_ofKind` — the kinds take a catalog apart;
* `get?_eq_some_iff` — what a look-up finds;
* `isNormalForm_ofCoins` — every list of coins.
-/

namespace CoinToss.Catalog

open Schema

/-- A catalog is the normal form of a list of coins. -/
structure IsNormalForm (coins : List Coin) (c : Catalog) : Prop where
  /-- Each path is there once, where it comes first. -/
  paths_eq : c.paths.Nodup ∧ c.paths = (coins.map (·.path)).eraseDups
  /-- Looking up, asking for and listing paths agree. -/
  lookup : ∀ path,
    (c.contains path = true ↔ path ∈ c.paths) ∧ ((c.get? path).isSome = true ↔ path ∈ c.paths) ∧
      ∀ coin, c.get? path = some coin ↔ coin ∈ c.coins ∧ coin.path = path
  /-- Each coin is of one kind, and those of a kind are in order. -/
  kinds : (Named.all.flatMap c.ofKind).Perm c.coins ∧ ∀ kind,
    (c.ofKind kind).Sublist c.coins ∧
      ∀ coin, coin ∈ c.ofKind kind ↔ coin ∈ c.coins ∧ coin.goalKind = kind
  /-- A coin is the first one of its path, but that a dynamic list of its own holds the paths of all
  other coins with a goal. -/
  first : ∀ coin ∈ c.coins, ∃ first,
    coins.find? (fun d => d.path == coin.path) = some first ∧
      ((∀ l, first.goal = .landOnCoins l → l.dynamic = false) → coin = first) ∧
      ∀ u l, first.unlock = some u → u.goal = .landOnCoins l → l.dynamic = true →
        let rest :=
          (c.coins.filter fun d => d.goalKind != .none && d.path != coin.path).map (·.path)
        coin = { first with
            unlock := some { u with goal := .landOnCoins { l with coins := rest } } } ∧
          coin.path ∉ rest ∧ ∀ path ∈ rest, path ∈ c.paths
  /-- The catalog of its coins, and of any coins of the same paths after them, is the same. -/
  again : ofCoins c.coins = c ∧
    ∀ more, (∀ d ∈ more, d.path ∈ c.paths) → ofCoins (c.coins ++ more) = c

/-! ## looking up -/

section LookUp

variable (c : Catalog)

/-- A coin is found at a path exactly if it has that path. -/
theorem get?_eq_some_iff (path : String) (coin : Coin) :
    c.get? path = some coin ↔ coin ∈ c.coins ∧ coin.path = path := by
  constructor
  · intro h
    exact ⟨List.mem_of_find?_eq_some h, get?_path h⟩
  · rintro ⟨h, rfl⟩
    exact get?_of_mem h

/-! ## kinds -/

theorem sublist_ofKind (kind : GoalKind) : (c.ofKind kind).Sublist c.coins := List.filter_sublist

theorem mem_ofKind_iff (kind : GoalKind) (coin : Coin) :
    coin ∈ c.ofKind kind ↔ coin ∈ c.coins ∧ coin.goalKind = kind := by
  rw [ofKind, List.mem_filter, beq_iff_eq]

/-- The kinds take a catalog apart. -/
theorem perm_flatMap_ofKind : (Named.all.flatMap c.ofKind).Perm c.coins := by
  have hcoins : c.coins.Nodup := c.nodup.of_map _
  have hkinds : (Named.all : List GoalKind).Nodup := by decide
  have hparts : (Named.all.flatMap c.ofKind).Nodup := by
    refine List.nodup_flatMap.2 ⟨fun kind _ => hcoins.filter _, hkinds.imp ?_⟩
    intro a b hne coin ha hb
    exact hne (((c.mem_ofKind_iff a coin).1 ha).2.symm.trans ((c.mem_ofKind_iff b coin).1 hb).2)
  refine (List.perm_ext_iff_of_nodup hparts hcoins).2 fun coin => ?_
  have hall : coin.goalKind ∈ Named.all := by
    cases coin.goalKind <;> decide
  simp only [List.mem_flatMap, mem_ofKind_iff]
  exact ⟨fun ⟨_, _, h, _⟩ => h, fun h => ⟨_, hall, h, rfl⟩⟩

end LookUp

/-! ## the normal form -/

/-- A coin of a catalog is the first one of its path, its own dynamic list filled in. -/
theorem exists_first_of_mem {coins : List Coin} {coin : Coin}
    (h : coin ∈ (ofCoins coins).coins) :
    ∃ first, coins.find? (fun d => d.path == coin.path) = some first ∧
      ((∀ l, first.goal = .landOnCoins l → l.dynamic = false) → coin = first) ∧
      ∀ u l, first.unlock = some u → u.goal = .landOnCoins l → l.dynamic = true →
        coin = { first with
          unlock := some
            { u with
              goal := .landOnCoins
                { l with coins := others (ofCoins coins).coins coin.path } } } := by
  obtain ⟨first, hfirst, hcoin⟩ := mem_ofCoins_iff.1 h
  have hpath : coin.path = first.path := by rw [hcoin, expand_path]
  refine ⟨first, hfirst, fun hfixed => ?_, fun u l hu hgoal hdynamic => ?_⟩
  · have hnone : hasDynamicList first = false := by
      unfold hasDynamicList
      split
      · next l hgoal => exact hfixed l hgoal
      · rfl
    rw [hcoin, expand_of_fixed _ hnone]
  · rw [hpath, hcoin, expand_of_dynamic _ hu hgoal hdynamic]

/-- The catalog of any list of coins is its normal form: the paths are different and are the first
occurrences in order, looking up agrees with them, the kinds take the coins apart in order, each
coin is the first of its path with its own dynamic list filled in, and the catalog of its coins,
also with coins of known paths after them, is the same catalog. -/
theorem isNormalForm_ofCoins (coins : List Coin) : IsNormalForm coins (ofCoins coins) where
  paths_eq := by
    refine ⟨(ofCoins coins).nodup, ?_⟩
    rw [paths_ofCoins, map_path_keepFirst]
  lookup path := by
    have hcontains := (ofCoins coins).contains_iff path
    exact ⟨hcontains, hcontains, (ofCoins coins).get?_eq_some_iff path⟩
  kinds := by
    refine ⟨(ofCoins coins).perm_flatMap_ofKind, fun kind => ?_⟩
    exact ⟨(ofCoins coins).sublist_ofKind kind, (ofCoins coins).mem_ofKind_iff kind⟩
  first coin hcoin := by
    obtain ⟨first, hfirst, hfixed, hdynamic⟩ := exists_first_of_mem hcoin
    refine ⟨first, hfirst, hfixed, fun u l hu hgoal hl => ⟨?_, by simp, ?_⟩⟩
    · rw [← others_eq]
      exact hdynamic u l hu hgoal hl
    · intro path hpath
      obtain ⟨d, hd, rfl⟩ := List.mem_map.1 hpath
      exact List.mem_map_of_mem (List.mem_of_mem_filter hd)
  again := by
    refine ⟨?_, fun more hmore => ofCoins_append hmore⟩
    rw [← List.append_nil (ofCoins coins).coins]
    exact ofCoins_append (by simp)

end CoinToss.Catalog

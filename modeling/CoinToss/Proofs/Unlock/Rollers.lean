import CoinToss.Proofs.Catalog.Audit
import CoinToss.Proofs.Codec.Snapshots
import CoinToss.Proofs.Unlock.Latch
import CoinToss.Proofs.Unlock.Moves
import CoinToss.Proofs.Unlock.Reports
import Mathlib.Algebra.GroupWithZero.Nat
import Mathlib.Data.List.SplitLengths

/-!
# CoinToss.Proofs.Unlock.Rollers

The rolls of a flip, all at once.

The chance coins roll one after the other, and each looks at the progress that the unlocks before
it have left.  Yet none of them sees those unlocks: who rolls, and how often, is settled by the
progress before the first roll, and the draws fall to the rollers in blocks.

```
rollers   a          c      d
counts    1          2      1
draws     x0         x1 x2  x3
winners   those with a draw of their block below their chance
```

* `Coin.roll?_eq` — whether a coin rolls, in terms of its chance and its number of rolls;
* `sweep_rollCoin` — coins that see what they saw before the first roll, rolled one by one;
* `stamps_unlockAllByChance` — unlocks by chance, one after the other;
* `rollAll_eq_winners`, `rollAll_at_once` — the rolls of a flip, and what comes of them.
-/

namespace CoinToss

/-! ## rollers and winners -/

/-- How often a coin rolls after a landing; coins without a chance do not. -/
def Coin.rolls (l : Landing) (coin : Coin) : Nat :=
  match coin.goal with
  | .chance r => r.rolls l
  | _ => 0

/-- The chance of each roll of a coin. -/
def Coin.rollChance (multiplier : Float) (coin : Coin) : Float :=
  match coin.goal with
  | .chance r => effectiveChance r.chance multiplier
  | _ => 0

/-- Whether a coin rolls: it is locked, its prerequisites are met, it has a roll and a chance. -/
def Coin.mayRoll (known : Known) (l : Landing) (multiplier : Float) (p : Progress) (coin : Coin) :
    Bool :=
  !coin.isUnlocked known p && coin.meetsPrerequisites known p &&
    decide (0 < coin.rolls l) && decide (0 < coin.rollChance multiplier)

/-- The chance coins that roll, in the order of the catalog. -/
def Catalog.rollers (c : Catalog) (l : Landing) (multiplier : Float) (p : Progress) : List Coin :=
  (c.ofKind .randomChance).filter (Coin.mayRoll c.known l multiplier p)

/-- Whether one of the draws of a coin is below its chance. -/
def Coin.wins (multiplier : Float) (coin : Coin) (draws : List Float) : Bool :=
  draws.any fun x => decide (x < coin.rollChance multiplier)

/-- The coins that win with their own block of draws. -/
def winners (multiplier : Float) (coins : List Coin) (blocks : List (List Float)) : List Coin :=
  ((coins.zip blocks).filter fun roll => roll.1.wins multiplier roll.2).map (·.1)

/-- Unlocks the coins at some paths by chance, one after the other. -/
def Progress.unlockAllByChance (p : Progress) (time : DateTime) (paths : List String) : Progress :=
  paths.foldl (fun q path => q.unlockByChance path time) p

theorem winners_cons (multiplier : Float) (coin : Coin) (coins : List Coin) (block : List Float)
    (blocks : List (List Float)) :
    winners multiplier (coin :: coins) (block :: blocks) =
      if coin.wins multiplier block then coin :: winners multiplier coins blocks
      else winners multiplier coins blocks := by
  rw [winners, List.zip_cons_cons, List.filter_cons]
  split <;> rfl

/-- The winners are among the coins, in their order. -/
theorem winners_sublist (multiplier : Float) {coins : List Coin} {blocks : List (List Float)}
    (h : coins.length = blocks.length) : (winners multiplier coins blocks).Sublist coins := by
  conv_rhs => rw [← List.map_fst_zip h.le]
  exact List.filter_sublist.map _

/-- A coin with a chance above all draws wins if every block has one. -/
theorem mem_winners_of_lt {multiplier : Float} {coins : List Coin} {blocks : List (List Float)}
    (h : coins.length = blocks.length) (hblocks : ∀ block ∈ blocks, block ≠ []) {coin : Coin}
    (hmem : coin ∈ coins)
    (hlt : ∀ x ∈ blocks.flatten, x < coin.rollChance multiplier) :
    coin ∈ winners multiplier coins blocks := by
  rw [← List.map_fst_zip h.le] at hmem
  obtain ⟨⟨coin, block⟩, hroll, rfl⟩ := List.mem_map.1 hmem
  have hblock : block ∈ blocks := (List.of_mem_zip hroll).2
  obtain ⟨x, hx⟩ := List.exists_mem_of_ne_nil block (hblocks block hblock)
  have hbelow := hlt x (List.mem_flatten_of_mem hblock hx)
  have hwins : coin.wins multiplier block = true :=
    List.any_eq_true.2 ⟨x, hx, decide_eq_true hbelow⟩
  exact List.mem_map.2 ⟨_, List.mem_filter.2 ⟨hroll, hwins⟩, rfl⟩

/-! ## one coin -/

section Roll

variable {c : Catalog} {l : Landing} {multiplier : Float} {time : DateTime} {p q : Progress}
  {coin : Coin}

/-- A coin rolls with its chance as often as it may, if it may. -/
theorem Coin.roll?_eq (c : Catalog) (l : Landing) (multiplier : Float) (p : Progress)
    (coin : Coin) :
    coin.roll? c l multiplier p =
      if coin.mayRoll c.known l multiplier p then
        some (coin.rollChance multiplier, coin.rolls l)
      else none := by
  unfold roll? mayRoll rollChance rolls
  cases coin.goal with
  | chance r =>
      simp only [bne_iff_ne, ne_eq, Nat.pos_iff_ne_zero, Bool.and_eq_true, decide_eq_true_eq]
  | _ => simp

/-- Only chance coins have rolls. -/
theorem Coin.goalKind_of_mayRoll (h : coin.mayRoll c.known l multiplier p = true) :
    coin.goalKind = .randomChance := by
  have hroll : coin.roll? c l multiplier p = some (coin.rollChance multiplier, coin.rolls l) := by
    rw [Coin.roll?_eq, if_pos h]
  exact (Coin.locked_of_roll? hroll).1

theorem Coin.mayRoll_congr (known : Known) (h : p.sight coin.path = q.sight coin.path) :
    coin.mayRoll known l multiplier p = coin.mayRoll known l multiplier q := by
  rw [mayRoll, isUnlocked_congr known h, meetsPrerequisites_congr known h, mayRoll]

/-- A coin that does not roll takes no draw and changes nothing. -/
theorem rollCoin_of_not_mayRoll (source : Source)
    (h : coin.mayRoll c.known l multiplier p = false) :
    rollCoin c l multiplier time (p, source) coin = ((p, source), none) := by
  have hroll : coin.roll? c l multiplier p = none := by
    rw [Coin.roll?_eq, h, if_neg Bool.false_ne_true]
  simp only [rollCoin, hroll]

/-- A coin that rolls takes its draws, and is unlocked and told of if it wins with them. -/
theorem rollCoin_of_mayRoll (source : Source)
    (h : coin.mayRoll c.known l multiplier p = true) :
    rollCoin c l multiplier time (p, source) coin =
      if coin.wins multiplier (source.draws (coin.rolls l)).1 then
        ((p.unlockByChance coin.path time, (source.draws (coin.rolls l)).2),
          some ⟨coin, coin.rollChance multiplier, coin.rolls l⟩)
      else ((p, (source.draws (coin.rolls l)).2), none) := by
  have hroll : coin.roll? c l multiplier p = some (coin.rollChance multiplier, coin.rolls l) := by
    rw [Coin.roll?_eq, if_pos h]
  simp only [rollCoin, hroll]
  rfl

/-! ## all coins -/

/-- Coins that see what they saw before the first roll, rolled one by one: those that may roll on
the progress before it take their draws in blocks, and the winners are unlocked. -/
theorem sweep_rollCoin {coins : List Coin} (hnd : (coins.map (·.path)).Nodup) (source : Source)
    (hsight : ∀ coin ∈ coins, q.sight coin.path = p.sight coin.path) :
    let rollers := coins.filter (Coin.mayRoll c.known l multiplier p)
    let counts := rollers.map (Coin.rolls l)
    let draws := source.draws counts.sum
    let won := winners multiplier rollers (counts.splitLengths draws.1)
    sweep (rollCoin c l multiplier time) (q, source) coins =
      ((q.unlockAllByChance time (won.map (·.path)), draws.2),
        won.map fun coin => ⟨coin, coin.rollChance multiplier, coin.rolls l⟩) := by
  induction coins generalizing q source with
  | nil => rfl
  | cons coin coins ih =>
      rw [List.map_cons, List.nodup_cons] at hnd
      rw [List.forall_mem_cons] at hsight
      have hmay : coin.mayRoll c.known l multiplier q = coin.mayRoll c.known l multiplier p :=
        Coin.mayRoll_congr c.known hsight.1
      rw [sweep_cons]
      dsimp only at ih ⊢
      cases hp : coin.mayRoll c.known l multiplier p with
      | false =>
          rw [rollCoin_of_not_mayRoll source (hmay.trans hp), ih hnd.2 source hsight.2,
            List.filter_cons_of_neg (by rw [hp]; exact Bool.false_ne_true)]
          rfl
      | true =>
          -- its own block comes first, and the others start behind it
          have hblocks (counts : List Nat) (xs : List Float) :
              (coin.rolls l :: counts).splitLengths ((source.draws (coin.rolls l)).1 ++ xs) =
                (source.draws (coin.rolls l)).1 :: counts.splitLengths xs := by
            rw [List.splitLengths_cons, List.take_left' (Source.length_draws _ _),
              List.drop_left' (Source.length_draws _ _)]
          have hunlocked : ∀ d ∈ coins,
              (q.unlockByChance coin.path time).sight d.path = p.sight d.path := by
            intro d hd
            have hne : d.path ≠ coin.path := fun e => hnd.1 (e ▸ List.mem_map_of_mem hd)
            rw [Progress.sight_unlockByChance_of_ne q time hne, hsight.2 d hd]
          rw [rollCoin_of_mayRoll source (hmay.trans hp), List.filter_cons_of_pos hp,
            List.map_cons, List.sum_cons, Source.draws_add, hblocks, winners_cons]
          split
          · rw [ih hnd.2 _ hunlocked]
            rfl
          · rw [ih hnd.2 _ hsight.2]
            rfl

end Roll

/-! ## unlocks of several coins -/

namespace Progress

theorem unlockAllByChance_cons (p : Progress) (time : DateTime) (path : String)
    (paths : List String) :
    p.unlockAllByChance time (path :: paths) =
      (p.unlockByChance path time).unlockAllByChance time paths := rfl

/-- Unlocks by chance change nothing else. -/
theorem unlockAllByChance_eq (p : Progress) (time : DateTime) (paths : List String) :
    p.unlockAllByChance time paths =
      { p with
        randomUnlocks := (p.unlockAllByChance time paths).randomUnlocks
        stamps := (p.unlockAllByChance time paths).stamps
        notified := (p.unlockAllByChance time paths).notified } := by
  induction paths generalizing p with
  | nil => rfl
  | cons path paths ih => rw [unlockAllByChance_cons, ih, unlockByChance_eq]

/-- A set to which each unlock adds its path has all of the paths added. -/
theorem mem_unlockAllByChance (set : Progress → PathSet) {time : DateTime}
    (hset : ∀ (p : Progress) (path other : String),
      other ∈ set (p.unlockByChance path time) ↔ other = path ∨ other ∈ set p)
    (p : Progress) (paths : List String) (other : String) :
    other ∈ set (p.unlockAllByChance time paths) ↔ other ∈ set p ∨ other ∈ paths := by
  induction paths generalizing p with
  | nil => simp only [unlockAllByChance, List.foldl_nil, List.not_mem_nil, or_false]
  | cons path paths ih =>
      rw [unlockAllByChance_cons, ih, hset, List.mem_cons, or_comm (a := other = path), or_assoc]

theorem mem_randomUnlocks_unlockAllByChance (p : Progress) (time : DateTime)
    (paths : List String) (other : String) :
    other ∈ (p.unlockAllByChance time paths).randomUnlocks ↔
      other ∈ p.randomUnlocks ∨ other ∈ paths :=
  mem_unlockAllByChance randomUnlocks
    (fun q path other => by rw [unlockByChance, stamp_eq, PathSet.mem_insert]) p paths other

theorem mem_notified_unlockAllByChance (p : Progress) (time : DateTime) (paths : List String)
    (other : String) :
    other ∈ (p.unlockAllByChance time paths).notified ↔ other ∈ p.notified ∨ other ∈ paths :=
  mem_unlockAllByChance notified
    (fun q path other => by rw [unlockByChance, stamp_eq, PathSet.mem_insert]) p paths other

/-- The stamp of a path that has none goes to the end. -/
theorem stamps_unlockByChance {p : Progress} {path : String} (h : p.stamps.contains path = false)
    (time : DateTime) :
    (p.unlockByChance path time).stamps.entries = p.stamps.entries ++ [(path, time)] := by
  have hfresh : path ∉ p.stamps.entries.map (·.1) := by
    rw [← Tally.keys, ← Tally.contains_iff, h]
    exact Bool.false_ne_true
  rw [unlockByChance, stamp, if_neg (by rw [h]; exact Bool.false_ne_true)]
  exact Tally.put_of_notMem time hfresh

/-- Different paths without stamps are stamped in their order. -/
theorem stamps_unlockAllByChance {p : Progress} {paths : List String} (hnd : paths.Nodup)
    (h : ∀ path ∈ paths, p.stamps.contains path = false) (time : DateTime) :
    (p.unlockAllByChance time paths).stamps.entries =
      p.stamps.entries ++ paths.map fun path => (path, time) := by
  induction paths generalizing p with
  | nil => exact (List.append_nil _).symm
  | cons path paths ih =>
      rw [List.nodup_cons] at hnd
      rw [List.forall_mem_cons] at h
      have hrest : ∀ other ∈ paths, (p.unlockByChance path time).stamps.contains other = false := by
        intro other hother
        have hne : other ≠ path := fun e => hnd.1 (e ▸ hother)
        rw [contains_stamps_congr (sight_unlockByChance_of_ne p time hne), h.2 other hother]
      rw [unlockAllByChance_cons, ih hnd.2 hrest, stamps_unlockByChance h.1, List.append_assoc]
      rfl

end Progress

/-! ## the rolls of a flip -/

section Flip

variable {c : Catalog} {l : Landing} {multiplier : Float} {p : Progress}

/-- The rollers of a catalog are all of its coins that may roll. -/
theorem Catalog.rollers_eq (c : Catalog) (l : Landing) (multiplier : Float) (p : Progress) :
    c.rollers l multiplier p = c.coins.filter (Coin.mayRoll c.known l multiplier p) := by
  rw [rollers, ofKind, List.filter_filter]
  refine List.filter_congr fun coin _ => ?_
  cases hmay : coin.mayRoll c.known l multiplier p with
  | false => rfl
  | true => rw [Coin.goalKind_of_mayRoll hmay]; rfl

/-- Whoever rolls has a roll. -/
theorem Catalog.rolls_pos_of_mem_rollers {coin : Coin} (h : coin ∈ c.rollers l multiplier p) :
    0 < coin.rolls l := by
  have hmay : coin.mayRoll c.known l multiplier p = true := (List.mem_filter.1 h).2
  simp only [Coin.mayRoll, Bool.and_eq_true, decide_eq_true_eq] at hmay
  exact hmay.1.2

/-- Whoever rolls is locked, so it has no stamp yet. -/
theorem Catalog.unstamped_of_mem_rollers {coin : Coin} (h : coin ∈ c.rollers l multiplier p) :
    p.stamps.contains coin.path = false := by
  have hmay : coin.mayRoll c.known l multiplier p = true := (List.mem_filter.1 h).2
  simp only [Coin.mayRoll, Bool.and_eq_true, Bool.not_eq_true'] at hmay
  exact Coin.isStamped_of_locked hmay.1.1.1

/-- So unlocking some rollers stamps them in their order. -/
theorem Catalog.stamps_of_sublist_rollers {coins : List Coin}
    (h : coins.Sublist (c.rollers l multiplier p)) (time : DateTime) :
    (p.unlockAllByChance time (coins.map (·.path))).stamps.entries =
      p.stamps.entries ++ coins.map fun coin => (coin.path, time) := by
  have hnodup : (coins.map (·.path)).Nodup := by
    have hsub : coins.Sublist c.coins := h.trans (List.filter_sublist.trans List.filter_sublist)
    exact c.nodup.sublist (hsub.map _)
  have hfresh : ∀ path ∈ coins.map (·.path), p.stamps.contains path = false := by
    intro path hpath
    obtain ⟨coin, hcoin, rfl⟩ := List.mem_map.1 hpath
    exact unstamped_of_mem_rollers (h.subset hcoin)
  rw [Progress.stamps_unlockAllByChance hnodup hfresh, List.map_map]
  rfl

/-- The rolls of a flip unlock the winners among the rollers. -/
theorem rollAll_eq_winners (c : Catalog) (l : Landing) (multiplier : Float) (time : DateTime)
    (p : Progress) (source : Source) :
    let rollers := c.rollers l multiplier p
    let counts := rollers.map (Coin.rolls l)
    let draws := source.draws counts.sum
    let won := winners multiplier rollers (counts.splitLengths draws.1)
    rollAll c l multiplier time p source =
      ((p.unlockAllByChance time (won.map (·.path)), draws.2),
        won.map fun coin => ⟨coin, coin.rollChance multiplier, coin.rolls l⟩) := by
  have hsweep := @sweep_rollCoin c l multiplier time p p c.coins c.nodup source fun _ _ => rfl
  rw [← Catalog.rollers_eq] at hsweep
  exact hsweep

/-- The rolls of a flip come to one roll of all rollers on the progress before them.  As many draws
are taken as the rollers have rolls, whatever is drawn, and each roller has its own block of them,
in the order of the catalog.  The coins told of are the winners, with their chances and rolls.
Their paths, and no others, are added to the unlocks and to what has been told, they are stamped
in their order, and nothing else changes.  A roller that is certain of its chance is a winner. -/
theorem rollAll_at_once (c : Catalog) (l : Landing) (multiplier : Float) (time : DateTime)
    (p : Progress) (source : Source) :
    let rollers := c.rollers l multiplier p
    let counts := rollers.map (Coin.rolls l)
    let draws := (source.draws counts.sum).1
    let blocks := counts.splitLengths draws
    let won := winners multiplier rollers blocks
    let rolled := rollAll c l multiplier time p source
    let after := rolled.1.1
    (rolled.1.2 = (source.draws counts.sum).2 ∧
      blocks.map List.length = counts ∧ blocks.flatten = draws) ∧
    rolled.2 = won.map (fun coin => ⟨coin, coin.rollChance multiplier, coin.rolls l⟩) ∧
    (∀ path, path ∈ after.randomUnlocks ↔
      path ∈ p.randomUnlocks ∨ path ∈ won.map (·.path)) ∧
    (∀ path, path ∈ after.notified ↔ path ∈ p.notified ∨ path ∈ won.map (·.path)) ∧
    after.stamps.entries = p.stamps.entries ++ won.map (fun coin => (coin.path, time)) ∧
    after =
      { p with
        randomUnlocks := after.randomUnlocks, stamps := after.stamps
        notified := after.notified } ∧
    ∀ coin ∈ rollers, coin.rollChance multiplier = 1 → (∀ x ∈ draws, x < 1) → coin ∈ won := by
  intro rollers counts draws blocks won rolled after
  have hlength : rollers.length = blocks.length := by
    rw [List.length_splitLengths, List.length_map]
  have hdraws : draws.length = counts.sum := Source.length_draws source counts.sum
  have hlengths : blocks.map List.length = counts := List.map_splitLengths_length _ _ hdraws.ge
  have hflatten : blocks.flatten = draws := List.flatten_splitLengths _ _ hdraws.le
  have hrolled : rolled =
      ((p.unlockAllByChance time (won.map (·.path)), (source.draws counts.sum).2),
        won.map fun coin => ⟨coin, coin.rollChance multiplier, coin.rolls l⟩) :=
    rollAll_eq_winners c l multiplier time p source
  have hafter : after = p.unlockAllByChance time (won.map (·.path)) := by
    rw [show after = rolled.1.1 from rfl, hrolled]
  refine ⟨⟨by rw [hrolled], hlengths, hflatten⟩, by rw [hrolled], ?_, ?_, ?_, ?_, ?_⟩
  · intro path
    rw [hafter, Progress.mem_randomUnlocks_unlockAllByChance]
  · intro path
    rw [hafter, Progress.mem_notified_unlockAllByChance]
  · rw [hafter]
    exact Catalog.stamps_of_sublist_rollers (winners_sublist multiplier hlength) time
  · rw [hafter]
    exact Progress.unlockAllByChance_eq p time _
  · intro coin hcoin hcertain hunit
    refine mem_winners_of_lt hlength (fun block hblock => ?_) hcoin ?_
    · -- a roller has at least one roll, so its block is not empty
      have hcount : block.length ∈ counts := hlengths ▸ List.mem_map_of_mem hblock
      obtain ⟨d, hd, hcount⟩ := List.mem_map.1 hcount
      have hpos : 0 < d.rolls l := Catalog.rolls_pos_of_mem_rollers hd
      rw [hcount] at hpos
      exact List.ne_nil_of_length_pos hpos
    · rw [hflatten, hcertain]
      exact hunit

end Flip

/-- Chance coins with one roll, none, two and one, after a flip with one coin on both faces. -/
def chanceCatalog : Catalog := .ofCoins
  [untold "face" .none [], untold "even" (.chance ⟨0.5, false, none⟩) [],
    untold "idle" (.chance ⟨0.5, true, some "even"⟩) [],
    untold "double" (.chance ⟨0.1, true, some "face"⟩) [],
    untold "certain" (.chance ⟨1, false, none⟩) []]

/-- The flip: one coin on both faces. -/
def doubleFace : Landing := ⟨"face", .heads, some "face", some "face"⟩

/-- The draws. -/
def fourDraws : Source := ⟨.cycle 0.7 [0.3, 0.05, 0.99], 0⟩

/-- Four draws are taken.  The first one is not below its chance, the third one is, and the last one
belongs to a coin that is certain of its chance. -/
theorem rollAll_at_once_chanceCatalog :
    (chanceCatalog.rollers doubleFace 1 .empty).map (·.path) = ["even", "double", "certain"] ∧
      (rollAll chanceCatalog doubleFace 1 firstOfMay .empty fourDraws).1.2.used = 4 ∧
      (rollAll chanceCatalog doubleFace 1 firstOfMay .empty fourDraws).2.map
        (fun u => (u.coin.path, u.rolls)) = [("double", 2), ("certain", 1)] ∧
      (rollAll chanceCatalog doubleFace 1 firstOfMay .empty fourDraws).1.1.stamps.entries =
        [("double", firstOfMay), ("certain", firstOfMay)] ∧
      "even" ∉
        (rollAll chanceCatalog doubleFace 1 firstOfMay .empty fourDraws).1.1.randomUnlocks := by
  obtain ⟨⟨hsource, -, -⟩, htold, hunlocks, -, hstamps, -, -⟩ :=
    rollAll_at_once chanceCatalog doubleFace 1 firstOfMay .empty fourDraws
  refine ⟨by decide +kernel, ?_, ?_, ?_, ?_⟩
  · rw [hsource]
    decide +kernel
  · rw [htold]
    decide +kernel
  · rw [hstamps]
    decide +kernel
  · rw [hunlocks "even", not_or]
    exact ⟨PathSet.not_mem_empty "even", by decide +kernel⟩

end CoinToss

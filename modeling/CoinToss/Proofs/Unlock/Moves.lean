import CoinToss.Proofs.Unlock.Landing

/-!
# CoinToss.Proofs.Unlock.Moves

The moves that change progress, one after the other.

A move records a landing, rolls the chance coins or unlocks a coin by hand.  A roll brings the
source it draws from, so a run may share one source, handed on from roll to roll, or draw anything
at all.

* `Progress.play`, `Progress.playAll` — a move, and a run of moves, with what they tell;
* `grows_play` — every move lets progress grow;
* `rollCoin_cases` — the roll of one coin: nothing, or its unlock;
* `mem_rollAll_iff` — a roll tells of the coins it unlocks, and of no others.
-/

namespace CoinToss

/-- What changes progress. -/
inductive Move where
  /-- A landing is recorded, with the streak it ends. -/
  | land (landing : Landing) (streak : Int) (time : DateTime)
  /-- The chance coins roll, with draws from a source. -/
  | roll (landing : Landing) (multiplier : Float) (time : DateTime) (source : Source)
  /-- A coin is unlocked by hand. -/
  | unlock (path : String) (time : DateTime)

/-- Whether a move unlocks by hand. -/
def Move.isByHand : Move → Bool
  | .unlock _ _ => true
  | _ => false

/-- The progress after a move, and the coins the move tells of. -/
def Progress.play (c : Catalog) (p : Progress) : Move → Progress × List Coin
  | .land l streak time =>
    ((p.track c l streak time).1, (p.track c l streak time).2.unlocked)
  | .roll l multiplier time source =>
    ((rollAll c l multiplier time p source).1.1,
      (rollAll c l multiplier time p source).2.map (·.coin))
  | .unlock path time => ((p.unlockByHand path time).1, [])

/-- The progress after a run of moves, and what each of them tells of. -/
def Progress.playAll (c : Catalog) (p : Progress) : List Move → Progress × List (List Coin)
  | [] => (p, [])
  | m :: ms =>
    let (next, told) := p.play c m
    let (last, rest) := next.playAll c ms
    (last, told :: rest)

namespace Progress

theorem playAll_cons (c : Catalog) (p : Progress) (m : Move) (ms : List Move) :
    p.playAll c (m :: ms) =
      (((p.play c m).1.playAll c ms).1, (p.play c m).2 :: ((p.play c m).1.playAll c ms).2) := rfl

/-- A run in two goes is the same run. -/
theorem playAll_append (c : Catalog) (p : Progress) (ms ns : List Move) :
    p.playAll c (ms ++ ns) =
      (((p.playAll c ms).1.playAll c ns).1,
        (p.playAll c ms).2 ++ ((p.playAll c ms).1.playAll c ns).2) := by
  induction ms generalizing p with
  | nil => rfl
  | cons m ms ih => simp only [List.cons_append, playAll_cons, ih]

/-- What every move keeps, a run keeps. -/
theorem playAll_keeps {P : Progress → Prop} {c : Catalog} {ms : List Move}
    (h : ∀ p, ∀ m ∈ ms, P p → P (p.play c m).1) {p : Progress} (hp : P p) :
    P (p.playAll c ms).1 := by
  induction ms generalizing p with
  | nil => exact hp
  | cons m ms ih =>
      rw [playAll_cons]
      have hrest : ∀ q, ∀ n ∈ ms, P q → P (q.play c n).1 := fun q n hn =>
        h q n (List.mem_cons_of_mem m hn)
      exact ih hrest (h p m List.mem_cons_self hp)

/-! ## unlocks by chance and by hand -/

theorem sight_unlockByChance_of_ne (p : Progress) {path other : String} (time : DateTime)
    (h : other ≠ path) : (p.unlockByChance path time).sight other = p.sight other := by
  rw [unlockByChance, sight_stamp_of_ne _ time h]
  simp [sight, PathSet.contains_insert_of_ne _ h]

theorem sight_unlockByHand_of_ne (p : Progress) {path other : String} (time : DateTime)
    (h : other ≠ path) : (p.unlockByHand path time).1.sight other = p.sight other := by
  unfold unlockByHand
  split
  · rfl
  · rw [sight_stamp_of_ne _ time h]
    simp [sight, PathSet.contains_insert_of_ne _ h]

theorem grows_unlockByChance (p : Progress) (path : String) (time : DateTime) :
    p.Grows (p.unlockByChance path time) := by
  refine (grows_sets p (fun other h => ?_) fun other h => ?_).trans (grows_stamp _ path time)
  · exact PathSet.mem_insert.2 (.inr h)
  · exact PathSet.mem_insert.2 (.inr h)

theorem grows_unlockByHand (p : Progress) (path : String) (time : DateTime) :
    p.Grows (p.unlockByHand path time).1 := by
  unfold unlockByHand
  split
  · exact Grows.refl p
  · refine (grows_sets p (fun other h => ?_) fun other h => h).trans (grows_stamp _ path time)
    exact PathSet.mem_insert.2 (.inr h)

/-- An unlock by chance changes nothing else. -/
theorem unlockByChance_eq (p : Progress) (path : String) (time : DateTime) :
    p.unlockByChance path time =
      { p with
        randomUnlocks := (p.unlockByChance path time).randomUnlocks
        stamps := (p.unlockByChance path time).stamps
        notified := (p.unlockByChance path time).notified } := by
  rw [unlockByChance, stamp_eq]

/-- Nor does an unlock by hand. -/
theorem unlockByHand_eq (p : Progress) (path : String) (time : DateTime) :
    (p.unlockByHand path time).1 =
      { p with
        randomUnlocks := (p.unlockByHand path time).1.randomUnlocks
        stamps := (p.unlockByHand path time).1.stamps } := by
  unfold unlockByHand
  split
  · rfl
  · rw [stamp_eq]

theorem runs_unlockByHand (p : Progress) (path : String) (time : DateTime) :
    (p.unlockByHand path time).1.runs = p.runs := by
  rw [unlockByHand_eq]

end Progress

/-! ## rolls -/

section Roll

variable {c : Catalog} {l : Landing} {multiplier : Float} {time : DateTime}

/-- Only locked chance coins roll. -/
theorem Coin.locked_of_roll? {p : Progress} {coin : Coin} {roll : Float × Nat}
    (h : coin.roll? c l multiplier p = some roll) :
    coin.goalKind = .randomChance ∧ coin.isUnlocked c.known p = false := by
  unfold roll? at h
  split at h
  · next r hgoal =>
    dsimp only at h
    split at h
    · next hcond =>
      simp only [Bool.and_eq_true, Bool.not_eq_true'] at hcond
      refine ⟨?_, hcond.1.1.1⟩
      rw [goalKind, hgoal]
      rfl
    · contradiction
  · contradiction

/-- The roll of one coin: nothing, or the unlock of a locked chance coin. -/
theorem rollCoin_cases (c : Catalog) (l : Landing) (multiplier : Float) (time : DateTime)
    (s : Progress × Source) (coin : Coin) :
    ((rollCoin c l multiplier time s coin).1.1 = s.1 ∧
        (rollCoin c l multiplier time s coin).2 = none) ∨
      (coin.goalKind = .randomChance ∧ coin.isUnlocked c.known s.1 = false ∧
        (rollCoin c l multiplier time s coin).1.1 = s.1.unlockByChance coin.path time ∧
          ∃ u, u.coin = coin ∧ (rollCoin c l multiplier time s coin).2 = some u) := by
  obtain ⟨p, source⟩ := s
  cases hroll : coin.roll? c l multiplier p with
  | none => exact .inl (by simp only [rollCoin, hroll, and_self])
  | some roll =>
      obtain ⟨chance, rolls⟩ := roll
      obtain ⟨hkind, hlocked⟩ := Coin.locked_of_roll? hroll
      simp only [rollCoin, hroll]
      split
      · exact .inr ⟨hkind, hlocked, rfl, _, rfl, rfl⟩
      · exact .inl ⟨rfl, rfl⟩

/-- The roll of a coin is out of sight of the others. -/
theorem sight_rollCoin_of_ne (s : Progress × Source) (coin : Coin) (path : String)
    (h : path ≠ coin.path) :
    (rollCoin c l multiplier time s coin).1.1.sight path = s.1.sight path := by
  rcases rollCoin_cases c l multiplier time s coin with ⟨hp, -⟩ | ⟨-, -, hp, -⟩
  · rw [hp]
  · rw [hp, Progress.sight_unlockByChance_of_ne _ time h]

/-- When a coin's turn to roll comes, it sees what it saw before; what it sees then, it sees after
all have rolled, and what its roll tells of is told. -/
theorem exists_turn_rollAll (l : Landing) (multiplier : Float) (time : DateTime) (p : Progress)
    (source : Source) {coin : Coin} (hc : coin ∈ c.coins) :
    ∃ s : Progress × Source, s.1.sight coin.path = p.sight coin.path ∧
      (rollAll c l multiplier time p source).1.1.sight coin.path =
        (rollCoin c l multiplier time s coin).1.1.sight coin.path ∧
      ∀ u, (rollCoin c l multiplier time s coin).2 = some u →
        u ∈ (rollAll c l multiplier time p source).2 := by
  let view (path : String) (s : Progress × Source) : Sight := s.1.sight path
  have elsewhere (s : Progress × Source) (d : Coin) (path : String) (hne : path ≠ d.path) :
      view path (rollCoin c l multiplier time s d).1 = view path s :=
    sight_rollCoin_of_ne s d path hne
  exact exists_turn elsewhere (p, source) c.nodup hc

theorem rollAll_keeps {P : Progress → Prop} {source : Source}
    (h : ∀ p, ∀ coin ∈ c.coins, P p → P (p.unlockByChance coin.path time)) {p : Progress}
    (hp : P p) : P (rollAll c l multiplier time p source).1.1 := by
  refine sweep_keeps (P := fun s : Progress × Source => P s.1) (fun s coin hc hs => ?_) hp
  rcases rollCoin_cases c l multiplier time s coin with ⟨hs', -⟩ | ⟨-, -, hs', -⟩
  · rw [hs']
    exact hs
  · rw [hs']
    exact h s.1 coin hc hs

theorem grows_rollAll (p : Progress) (source : Source) :
    p.Grows (rollAll c l multiplier time p source).1.1 :=
  rollAll_keeps (fun q _ _ hq => hq.trans (q.grows_unlockByChance _ time)) (.refl p)

/-- Rolls change nothing but what an unlock by chance does. -/
theorem rollAll_eq (p : Progress) (source : Source) :
    (rollAll c l multiplier time p source).1.1 =
      { p with
        randomUnlocks := (rollAll c l multiplier time p source).1.1.randomUnlocks
        stamps := (rollAll c l multiplier time p source).1.1.stamps
        notified := (rollAll c l multiplier time p source).1.1.notified } := by
  refine rollAll_keeps (P := fun q : Progress =>
    q = { p with
      randomUnlocks := q.randomUnlocks, stamps := q.stamps, notified := q.notified }) ?_ rfl
  intro q coin _ hq
  rw [Progress.unlockByChance_eq, hq]

theorem runs_rollAll (p : Progress) (source : Source) :
    (rollAll c l multiplier time p source).1.1.runs = p.runs := by
  rw [rollAll_eq]

/-- A roll tells of coins in the order of the catalog. -/
theorem rollAll_sublist (p : Progress) (source : Source) :
    ((rollAll c l multiplier time p source).2.map (·.coin)).Sublist c.coins := by
  suffices h : ∀ (coins : List Coin) (s : Progress × Source),
      ((sweep (rollCoin c l multiplier time) s coins).2.map (·.coin)).Sublist coins from
    h c.coins (p, source)
  intro coins
  induction coins with
  | nil => exact fun s => List.Sublist.refl []
  | cons coin coins ih =>
      intro s
      rw [sweep_cons, List.map_append]
      rcases rollCoin_cases c l multiplier time s coin with ⟨-, hu⟩ | ⟨-, -, -, u, rfl, hu⟩
      · rw [hu]
        exact (ih _).cons coin
      · rw [hu]
        exact (ih _).cons_cons u.coin

/-- A coin is unlocked after its own unlock by chance. -/
theorem Coin.isUnlocked_unlockByChance (known : Known) (p : Progress) (coin : Coin) :
    coin.isUnlocked known (p.unlockByChance coin.path time) = true := by
  refine Coin.isUnlocked_of_stamped ?_
  rw [Coin.isStamped, Progress.unlockByChance, Progress.contains_stamps_stamp, decide_eq_true rfl,
    Bool.true_or]

/-- A roll tells of the coins that were locked and are unlocked after it, and of no others. -/
theorem mem_rollAll_iff (p : Progress) (source : Source) {coin : Coin} (hc : coin ∈ c.coins) :
    coin ∈ (rollAll c l multiplier time p source).2.map (·.coin) ↔
      coin.isUnlocked c.known p = false ∧
        coin.isUnlocked c.known (rollAll c l multiplier time p source).1.1 = true := by
  constructor
  · intro hmem
    let view (path : String) (s : Progress × Source) : Sight := s.1.sight path
    have elsewhere (s : Progress × Source) (d : Coin) (path : String) (hne : path ≠ d.path) :
        view path (rollCoin c l multiplier time s d).1 = view path s :=
      sight_rollCoin_of_ne s d path hne
    obtain ⟨u, hu, rfl⟩ := List.mem_map.1 hmem
    obtain ⟨d, -, t, ht, hview, hyield⟩ :=
      exists_turn_of_mem elsewhere (p, source) c.nodup hu
    dsimp only [view] at ht hview
    rcases rollCoin_cases c l multiplier time t d with ⟨-, hnone⟩ | ⟨-, hlocked, hp, v, hv, hsome⟩
    · rw [hnone] at hyield
      contradiction
    · have huv : v = u := Option.some.inj (hsome.symm.trans hyield)
      have hd : d = u.coin := by rw [← huv, hv]
      rw [hp] at hview
      rw [← hd]
      refine ⟨?_, ?_⟩
      · rw [← Coin.isUnlocked_congr c.known ht, hlocked]
      · rw [rollAll, Coin.isUnlocked_congr c.known hview, Coin.isUnlocked_unlockByChance]
  · rintro ⟨hlocked, hunlocked⟩
    obtain ⟨t, ht, hview, hout⟩ := exists_turn_rollAll l multiplier time p source hc
    rcases rollCoin_cases c l multiplier time t coin with ⟨hp, -⟩ | ⟨-, -, -, u, hu, hsome⟩
    · -- without an unlock the coin would still see what it saw before
      rw [hp] at hview
      rw [Coin.isUnlocked_congr c.known (hview.trans ht), hlocked] at hunlocked
      contradiction
    · exact List.mem_map.2 ⟨u, hout u hsome, hu⟩

end Roll

/-! ## moves -/

namespace Progress

/-- Every move lets progress grow. -/
theorem grows_play (c : Catalog) (p : Progress) (m : Move) : p.Grows (p.play c m).1 := by
  cases m with
  | land l streak time => exact grows_track c p l streak time
  | roll l multiplier time source => exact grows_rollAll p source
  | unlock path time => exact grows_unlockByHand p path time

/-- Whatever is told of comes in the order of the catalog. -/
theorem play_sublist (c : Catalog) (p : Progress) (m : Move) :
    (p.play c m).2.Sublist c.coins := by
  cases m with
  | land l streak time => exact told_sublist c p l streak time
  | roll l multiplier time source => exact rollAll_sublist p source
  | unlock path time => exact List.nil_sublist c.coins

end Progress

end CoinToss

import CoinToss.Proofs.Unlock.Moves

/-!
# CoinToss.Proofs.Progress.Stages

What one move may change, and how often.

A move takes progress through stages.  A landing is counted, then the runs advance and after them
the coins are settled, coin by coin; a roll goes through the coins once:

```
landing   p → counted → advanced, coin by coin → settled, coin by coin
roll      p → rolled, coin by coin
by hand   p → unlocked
```

All but the runs only grows.  A run is kept under the path of the coin that waits for it, and no two
coins share a path, so along the stages of a landing it is touched once.

* `Progress.stages`, `changes` — the stages of a move, and how often a part changes along them;
* `changes_runs_stages` — what is kept of a run changes once at most;
* `get?_runs_play` — how it changes, and for whom;
* `grows_and_moves_runs_once` — the whole of it.
-/

namespace CoinToss

/-! ## changes along a sweep -/

section Sweep

variable {σ τ α β κ ν : Type} [DecidableEq ν]

/-- The states that a sweep leaves, one for each element. -/
def sweepStates (step : σ → α → σ × Option β) (s : σ) : List α → List σ
  | [] => []
  | a :: as => (step s a).1 :: sweepStates step (step s a).1 as

/-- How often what is viewed changes from a state on, along those that follow it. -/
def changes (view : σ → ν) (s : σ) : List σ → Nat
  | [] => 0
  | t :: ts => (if view t = view s then 0 else 1) + changes view t ts

theorem getLastD_sweepStates (step : σ → α → σ × Option β) (s : σ) (as : List α) :
    (sweepStates step s as).getLastD s = (sweep step s as).1 := by
  induction as generalizing s with
  | nil => rfl
  | cons a as ih => rw [sweepStates, List.getLastD_cons, ih, sweep_cons]

theorem getLastD_append (s : σ) (ts us : List σ) :
    (ts ++ us).getLastD s = us.getLastD (ts.getLastD s) := by
  induction ts generalizing s with
  | nil => rfl
  | cons t ts ih => rw [List.cons_append, List.getLastD_cons, List.getLastD_cons, ih]

theorem changes_append (view : σ → ν) (s : σ) (ts us : List σ) :
    changes view s (ts ++ us) = changes view s ts + changes view (ts.getLastD s) us := by
  induction ts generalizing s with
  | nil => simp [changes]
  | cons t ts ih => rw [List.cons_append, changes, changes, ih, List.getLastD_cons, Nat.add_assoc]

theorem changes_map (view : σ → ν) (f : τ → σ) (t : τ) (ts : List τ) :
    changes view (f t) (ts.map f) = changes (fun u => view (f u)) t ts := by
  induction ts generalizing t with
  | nil => rfl
  | cons u us ih => rw [List.map_cons, changes, changes, ih]

variable {step : σ → α → σ × Option β}

/-- What every step keeps never changes. -/
theorem changes_sweepStates_of_keeps {view : σ → ν} {as : List α}
    (h : ∀ s, ∀ a ∈ as, view (step s a).1 = view s) (s : σ) :
    changes view s (sweepStates step s as) = 0 := by
  induction as generalizing s with
  | nil => rfl
  | cons a as ih =>
      have hrest : ∀ t, ∀ b ∈ as, view (step t b).1 = view t := fun t b hb =>
        h t b (List.mem_cons_of_mem a hb)
      rw [sweepStates, changes, if_pos (h s a List.mem_cons_self), ih hrest]

/-- A view that each key has to itself changes once at most: when the turn of its key comes. -/
theorem changes_sweepStates_le_one {key : α → κ} (view : κ → σ → ν)
    (elsewhere : ∀ s a k, k ≠ key a → view k (step s a).1 = view k s) (k : κ) (s : σ) {as : List α}
    (hnd : (as.map key).Nodup) : changes (view k) s (sweepStates step s as) ≤ 1 := by
  induction as generalizing s with
  | nil => exact Nat.zero_le 1
  | cons a as ih =>
      rw [List.map_cons, List.nodup_cons] at hnd
      rw [sweepStates, changes]
      by_cases hk : k = key a
      · subst hk
        have hothers : ∀ t, ∀ b ∈ as, view (key a) (step t b).1 = view (key a) t := by
          intro t b hb
          refine elsewhere t b (key a) fun e => hnd.1 ?_
          exact e ▸ List.mem_map_of_mem hb
        rw [changes_sweepStates_of_keeps hothers]
        split <;> omega
      · rw [if_pos (elsewhere s a k hk), Nat.zero_add]
        exact ih _ hnd.2

end Sweep

/-! ## stages -/

namespace Progress

/-- The stages that progress goes through in a move, after the one it starts from. -/
def stages (c : Catalog) (p : Progress) : Move → List Progress
  | .land l streak time =>
    p.count l streak :: sweepStates (advanceRun c l) (p.count l streak) c.coins ++
      sweepStates (settle c.known (Coin.isUnlocked c.known p) time) (p.land c l streak).1 c.coins
  | .roll l multiplier time source =>
    (sweepStates (rollCoin c l multiplier time) (p, source) c.coins).map (·.1)
  | .unlock path time => [(p.unlockByHand path time).1]

/-- The last stage is what the move makes of progress. -/
theorem getLastD_stages (c : Catalog) (p : Progress) (m : Move) :
    (p.stages c m).getLastD p = (p.play c m).1 := by
  cases m with
  | land l streak time =>
      have hland := getLastD_sweepStates (advanceRun c l) (p.count l streak) c.coins
      rw [stages, List.cons_append, List.getLastD_cons, getLastD_append, hland]
      exact getLastD_sweepStates _ _ c.coins
  | roll l multiplier time source =>
      have hroll := getLastD_sweepStates (rollCoin c l multiplier time) (p, source) c.coins
      have hlast := List.getLastD_map (f := Prod.fst) (a := (p, source))
        (l := sweepStates (rollCoin c l multiplier time) (p, source) c.coins)
      exact hlast.trans (congrArg Prod.fst hroll)
  | unlock path time => rfl

/-! ## runs -/

section Runs

variable {c : Catalog} {p : Progress} {l : Landing} {streak : Int}

/-- Advancing one coin's run leaves what is kept under other paths. -/
theorem get?_runs_advanceRun_of_ne (c : Catalog) (l : Landing) (p : Progress) (coin : Coin)
    {path : String} (h : path ≠ coin.path) :
    (p.advanceRun c l coin).1.runs.get? path = p.runs.get? path :=
  congrArg Sight.run ((advanceRun_local c l).elsewhere p coin path h)

/-- Settling moves no run. -/
theorem runs_settle (known : Known) (before : Coin → Bool) (time : DateTime) (p : Progress)
    (coin : Coin) : (p.settle known before time coin).1.runs = p.runs := by
  rw [settle_eq]

/-- Nor does the roll of a coin. -/
theorem runs_rollCoin (multiplier : Float) (time : DateTime) (s : Progress × Source)
    (coin : Coin) : (rollCoin c l multiplier time s coin).1.1.runs = s.1.runs := by
  obtain ⟨hp, -⟩ | ⟨-, -, hp, -⟩ := rollCoin_cases c l multiplier time s coin
  · rw [hp]
  · rw [hp, unlockByChance_eq]

/-- Along the stages of a move what is kept of a run changes once at most. -/
theorem changes_runs_stages (c : Catalog) (p : Progress) (m : Move) (path : String) :
    changes (fun q : Progress => q.runs.get? path) p (p.stages c m) ≤ 1 := by
  cases m with
  | land l streak time =>
      have hadvance : changes (fun q : Progress => q.runs.get? path) (p.count l streak)
          (sweepStates (advanceRun c l) (p.count l streak) c.coins) ≤ 1 :=
        changes_sweepStates_le_one (fun path (q : Progress) => q.runs.get? path)
          (fun q coin _ => get?_runs_advanceRun_of_ne c l q coin) path (p.count l streak) c.nodup
      have hsettle : changes (fun q : Progress => q.runs.get? path) (p.land c l streak).1
          (sweepStates (settle c.known (Coin.isUnlocked c.known p) time) (p.land c l streak).1
            c.coins) = 0 :=
        changes_sweepStates_of_keeps (fun q coin _ => by rw [runs_settle]) _
      have hland : (sweepStates (advanceRun c l) (p.count l streak) c.coins).getLastD
          (p.count l streak) = (p.land c l streak).1 := getLastD_sweepStates _ _ c.coins
      rw [stages, List.cons_append, changes, runs_count, if_pos rfl, changes_append, hland, hsettle]
      omega
  | roll l multiplier time source =>
      have hroll : changes (fun s : Progress × Source => s.1.runs.get? path) (p, source)
          (sweepStates (rollCoin c l multiplier time) (p, source) c.coins) = 0 :=
        changes_sweepStates_of_keeps (fun s coin _ => by rw [runs_rollCoin]) _
      rw [stages, changes_map _ Prod.fst (p, source), hroll]
      exact Nat.zero_le 1
  | unlock path time =>
      simp [stages, changes, runs_unlockByHand]

/-- A locked coin that waits for a run has it go on by one or drop to zero; nothing else happens to
what is kept of a run. -/
theorem get?_runs_advanceRun (c : Catalog) (l : Landing) (p : Progress) (coin : Coin) :
    (p.advanceRun c l coin).1.runs.get? coin.path = p.runs.get? coin.path ∨
      coin.goalKind = .characteristics ∧ coin.isUnlocked c.known p = false ∧
        ((p.advanceRun c l coin).1.runs.get? coin.path = some (p.runLength coin.path + 1) ∨
          (p.advanceRun c l coin).1.runs.get? coin.path = some 0) := by
  have hset (n : Int) : (p.setRun coin.path n).runs.get? coin.path = some n :=
    p.runs.get?_insert_self coin.path n
  unfold advanceRun
  split
  · next r hgoal =>
    have hkind : coin.goalKind = .characteristics := by
      rw [Coin.goalKind, hgoal]
      rfl
    cases hlocked : coin.isUnlocked c.known p with
    | true => exact .inl rfl
    | false =>
        refine .inr ⟨hkind, rfl, ?_⟩
        rw [if_neg (by decide)]
        split
        · exact .inr (hset 0)
        · split
          · exact .inl (hset _)
          · exact .inr (hset 0)
  · exact .inl rfl

/-- A coin of the catalog that waits under a path for a run, locked when the move has been counted,
has had that run go on by one or drop to zero. -/
def MovesRun (c : Catalog) (p q : Progress) (path : String) : Move → Prop
  | .land l streak _ =>
    ∃ coin ∈ c.coins, coin.path = path ∧ coin.goalKind = .characteristics ∧
      coin.isUnlocked c.known (p.count l streak) = false ∧
        (q.runs.get? path = some (p.runLength path + 1) ∨ q.runs.get? path = some 0)
  | .roll _ _ _ _ | .unlock _ _ => False

/-- A landing leaves what is kept of a run, or moves it for the coin that waits for it. -/
theorem get?_runs_land (c : Catalog) (p : Progress) (l : Landing) (streak : Int)
    (time : DateTime) (path : String) :
    (p.land c l streak).1.runs.get? path = p.runs.get? path ∨
      p.MovesRun c (p.land c l streak).1 path (.land l streak time) := by
  by_cases hpath : path ∈ c.coins.map (·.path)
  · obtain ⟨coin, hc, rfl⟩ := List.mem_map.1 hpath
    have hrun : (p.land c l streak).1.runs.get? coin.path =
        ((p.count l streak).advanceRun c l coin).1.runs.get? coin.path :=
      congrArg Sight.run (sight_land hc)
    obtain hkept | ⟨hkind, hlocked, hmoved⟩ :=
      get?_runs_advanceRun c l (p.count l streak) coin
    · exact .inl (by rw [hrun, hkept, runs_count])
    · rw [← hrun, runLength_count] at hmoved
      exact .inr ⟨coin, hc, rfl, hkind, hlocked, hmoved⟩
  · have hsight := view_sweep_of_notMem (advanceRun_local c l).elsewhere (p.count l streak) hpath
    have hkept : (p.land c l streak).1.runs.get? path = (p.count l streak).runs.get? path :=
      congrArg Sight.run hsight
    exact .inl (hkept.trans (by rw [runs_count]))

/-- What a move does to what is kept of a run. -/
theorem get?_runs_play (c : Catalog) (p : Progress) (m : Move) (path : String) :
    (p.play c m).1.runs.get? path = p.runs.get? path ∨ p.MovesRun c (p.play c m).1 path m := by
  cases m with
  | land l streak time =>
      have hruns : (p.play c (.land l streak time)).1.runs = (p.land c l streak).1.runs := by
        rw [play, track_eq]
      simpa only [MovesRun, hruns] using get?_runs_land c p l streak time path
  | roll l multiplier time source => exact .inl (by rw [play, runs_rollAll])
  | unlock other time => exact .inl (by rw [play, runs_unlockByHand])

end Runs

/-- What one move changes, from any progress.  Counters, longest streaks, land counts, sets and
stamps only grow.  What is kept of a run stays, or it is that of a coin that waits for it and is
still locked when the landing has been counted, and goes on by one or drops to zero; and along the
stages of the move, the last of which is what the move comes to, it changes once at most. -/
theorem grows_and_moves_runs_once (c : Catalog) (p : Progress) (m : Move) :
    p.Grows (p.play c m).1 ∧ (p.stages c m).getLastD p = (p.play c m).1 ∧
      ∀ path,
        ((p.play c m).1.runs.get? path = p.runs.get? path ∨
          p.MovesRun c (p.play c m).1 path m) ∧
        changes (fun q : Progress => q.runs.get? path) p (p.stages c m) ≤ 1 :=
  ⟨grows_play c p m, getLastD_stages c p m, fun path =>
    ⟨get?_runs_play c p m path, changes_runs_stages c p m path⟩⟩

end Progress

end CoinToss

import CoinToss.Proofs.Session.Turns
import CoinToss.Proofs.Unlock.Bare

/-!
# CoinToss.Proofs.Session.Bare

Sessions over coins of which other things are told.

A session over bare coins goes as the session over the coins does, step by step: a call leaves the
same world, log and draws included, and comes to the same, the coins in its reply bare.  So what two
sessions come to, calls in turn and all, is the same where only what is told of their coins differs.

* `Setup.bare`, `Result.bare` — a session over bare coins, and what a call comes to with the coins
  in it bare;
* `flip_bare`, `act_bare`, `run_bare`, `inTurn_bare` — a flip, a call and calls in turn;
* `inTurn_congr_bare` — two lists of coins that differ in what is told of them.
-/

namespace CoinToss

open Decimal

/-! ## what calls come to, bare -/

/-- What a flip has come to, the coins it tells of bare. -/
def Outcome.bare (o : Outcome) : Outcome :=
  { o with unlocked := o.unlocked.map Coin.bare, lucky := o.lucky.map Coin.bare }

/-- A reply, the coins in it bare. -/
def Reply.bare : Reply → Reply
  | .flipped o => .flipped o.bare
  | .coins unlocked => .coins (unlocked.map Coin.bare)
  | r => r

/-- What a call comes to, the coins in it bare. -/
def Result.bare (r : Result) : Result := r.map Reply.bare

/-- What a call has come to when it has acted, the coins in it bare. -/
def Acted.bare : Acted → Acted
  | .done result => .done (Result.bare result)
  | .save reply => .save reply.bare

/-- Where a call stands, the coins in it bare. -/
def Phase.bare : Phase → Phase
  | .saving snapshot reply => .saving snapshot reply.bare
  | .ended result => .ended (Result.bare result)
  | phase => phase

/-- A session over bare coins. -/
def Setup.bare (s : Setup) : Setup := { s with catalog := s.catalog.bare }

@[simp] theorem Setup.catalog_bare (s : Setup) : s.bare.catalog = s.catalog.bare := rfl

@[simp] theorem Setup.key_bare (s : Setup) : s.bare.key = s.key := rfl

namespace World

variable (s : Setup) (w : World)

/-! ## a flip -/

@[simp] theorem showFaces_bare (o : FlipOrder) : w.showFaces s.bare o = w.showFaces s o := by
  simp only [showFaces, Setup.bare, showFace_bare]

/-- What is logged of a landing tells coins by their paths. -/
theorem trackLanding_bare (l : Landing) (streak : Int) :
    w.trackLanding s.bare l streak =
      ((w.trackLanding s l streak).1, (w.trackLanding s l streak).2.map Coin.bare) := by
  have hrecord (flips : Int) : Coin.unlockRecord flips ∘ Coin.bare = Coin.unlockRecord flips := rfl
  simp only [trackLanding, Setup.catalog_bare, Progress.track_bare, Tracked.records, List.map_map,
    hrecord]

theorem rollChances_bare (l : Landing) (multiplier : Float) :
    w.rollChances s.bare l multiplier =
      ((w.rollChances s l multiplier).1, (w.rollChances s l multiplier).2.map Coin.bare) := by
  have hrecord : LuckyUnlock.record ∘ LuckyUnlock.bare = LuckyUnlock.record := rfl
  have hcoin : (fun u : LuckyUnlock => u.bare.coin) = fun u => u.coin.bare := rfl
  simp only [rollChances, Setup.catalog_bare, rollAll_bare, List.map_map, hrecord]
  rfl

theorem recordFlip_bare (o : FlipOrder) (heads tails : String) (d : Decision) :
    w.recordFlip s.bare o heads tails d =
      ((w.recordFlip s o heads tails d).1, (w.recordFlip s o heads tails d).2.bare) := by
  simp only [recordFlip, trackLanding_bare, rollChances_bare, Setup.catalog_bare,
    Catalog.faces_bare]
  rfl

/-- A flip shows, draws and decides alike. -/
theorem flip_bare (o : FlipOrder) :
    w.flip s.bare o = ((w.flip s o).1, (w.flip s o).2.map Outcome.bare) := by
  simp only [flip, showFaces_bare, Setup.catalog_bare, Catalog.faces_bare]
  generalize decideFlip _ _ _ _ = decision
  cases decision with
  | error fault => rfl
  | ok d => simp only [recordFlip_bare, Except.map]

/-! ## a call -/

/-- A call acts alike. -/
theorem act_bare (call : Call) :
    w.act s.bare call = ((w.act s call).1, (w.act s call).2.bare) := by
  cases call with
  | flip o =>
      simp only [act, flip_bare]
      obtain ⟨u, fault | outcome⟩ := w.flip s o <;> rfl
  | track l streak => simp only [act, trackLanding_bare, Acted.bare, Reply.bare]
  | roll l multiplier =>
      simp only [act, rollChances_bare]
      obtain ⟨u, _ | ⟨coin, lucky⟩⟩ := w.rollChances s l multiplier <;> rfl
  | unlock path =>
      simp only [act]
      obtain ⟨p, _ | _⟩ := w.game.progress.unlockByHand path w.clock <;> rfl
  | reset => rfl
  | load => rfl
  | ensureLoaded => rfl

theorem proceed_bare (call : Call) :
    w.proceed s.bare call = ((w.proceed s call).1, (w.proceed s call).2.bare) := by
  simp only [proceed, act_bare]
  obtain ⟨u, result | reply⟩ := w.act s call <;> rfl

/-- A reply is not saved, and what is logged of a flip tells coins by their paths. -/
theorem commit_bare (call : Call) (snapshot : Progress) (reply : Reply) :
    w.commit s.bare call snapshot reply.bare =
      ((w.commit s call snapshot reply).1, Result.bare (w.commit s call snapshot reply).2) := by
  simp only [commit, Setup.key_bare]
  cases saveProgress? w.store s.key snapshot with
  | none => rfl
  | some saving => cases reply <;> rfl

theorem start_bare (call : Call) :
    w.start s.bare call = ((w.start s call).1, (w.start s call).2.bare) := by
  simp only [start, proceed_bare]
  by_cases hbusy : (call.isExclusive && w.game.busy) = true
  · rw [if_pos hbusy, if_pos hbusy]
    rfl
  · rw [if_neg hbusy, if_neg hbusy]
    by_cases hread : call.needsRead (w.enter call).game = true
    · rw [if_pos hread, if_pos hread]
      rfl
    · rw [if_neg hread, if_neg hread]

theorem finish_bare (call : Call) (x : World × Phase) :
    finish s.bare call (x.1, x.2.bare) =
      ((finish s call x).1, Result.bare (finish s call x).2) := by
  obtain ⟨u, phase⟩ := x
  cases phase with
  | saving snapshot reply => exact commit_bare s u call snapshot reply
  | queued => rfl
  | reading => rfl
  | ended result => rfl

/-- A call comes to the same, in the same world. -/
theorem run_bare (call : Call) :
    w.run s.bare call = ((w.run s call).1, Result.bare (w.run s call).2) := by
  have hread (u : World) : u.readIn s.bare = u.readIn s := rfl
  simp only [run, start_bare]
  generalize w.start s call = x
  obtain ⟨u, phase⟩ := x
  cases phase with
  | queued =>
      show finish s.bare call ((u.readIn s.bare).proceed s.bare call) = _
      rw [hread, proceed_bare]
      exact finish_bare s call _
  | reading => rfl
  | saving snapshot reply => exact finish_bare s call (u, .saving snapshot reply)
  | ended result => rfl

end World

/-! ## calls in turn -/

theorem Making.run_bare (s : Setup) (w : World) (m : Making) :
    m.run s.bare w = ((m.run s w).1, Result.bare (m.run s w).2) := by
  unfold Making.run
  split
  · exact World.run_bare s (w.metBy m) m.call
  · rfl

/-- Calls in turn come to the same, in the same world. -/
theorem World.inTurn_bare (s : Setup) (w : World) (ms : List Making) :
    w.inTurn s.bare ms = ((w.inTurn s ms).1, (w.inTurn s ms).2.map Result.bare) := by
  induction ms generalizing w with
  | nil => rfl
  | cons m ms ih =>
      have hrest : (m.run s w).1.through (Making.run s.bare) ms = _ := ih (m.run s w).1
      rw [inTurn, through, Making.run_bare, hrest]
      rfl

/-- Two lists of coins of which only other things are told come to the same: the same worlds, games
and draws, the same results but for what is told of the coins in them, and the same reports. -/
theorem inTurn_congr_bare {coins others : List Coin}
    (h : coins.map Coin.bare = others.map Coin.bare) (key : String) (weights : WeightTable)
    (multiplier : Float) (w : World) (ms : List Making) :
    let s : Setup := ⟨.ofCoins coins, key, weights, multiplier⟩
    let t : Setup := ⟨.ofCoins others, key, weights, multiplier⟩
    let left := w.inTurn s ms
    (w.inTurn t ms).1 = left.1 ∧
      (w.inTurn t ms).2.map Result.bare = left.2.map Result.bare ∧
      ∀ path, left.1.game.describe t.catalog path = left.1.game.describe s.catalog path ∧
        left.1.game.percent t.catalog path = left.1.game.percent s.catalog path := by
  intro s t left
  have hcatalog : s.catalog.bare = t.catalog.bare := by
    rw [← Catalog.ofCoins_map_bare, ← Catalog.ofCoins_map_bare, h]
  have hsetup : s.bare = t.bare := by rw [Setup.bare, Setup.bare, hcatalog]
  have hinTurn : w.inTurn s.bare ms = w.inTurn t.bare ms := by rw [hsetup]
  rw [World.inTurn_bare, World.inTurn_bare, Prod.mk.injEq] at hinTurn
  refine ⟨hinTurn.1.symm, hinTurn.2.symm, fun path => ⟨?_, ?_⟩⟩
  · rw [← Game.describe_bare, ← hcatalog, Game.describe_bare]
  · rw [← Game.percent_bare, ← hcatalog, Game.percent_bare]

/-- A coin for one flip that shows heads, with such texts, whose prerequisite has such
prerequisites. -/
def twin (text : String) (nested : List Condition) : Coin where
  path := "twin"
  name := text
  category := text
  rarity := none
  unlock := some
    { goal := .headsFlips 1
      prerequisites := [⟨.totalFlips 1, nested, text, text, .common⟩]
      description := text
      flavorText := text
      rarity := .rare }
  effect := some ⟨text, .alwaysHeads⟩

/-- A flip with a random face. -/
def randomFlip : Making :=
  ⟨.flip { heads := "twin", tails := "other", tailsRandom := true }, {}, firstOfMay, true⟩

/-- Whether or not a prerequisite requires what nobody can reach, the flip unlocks its coin. -/
theorem inTurn_congr_bare_twins :
    let hard := [twin "hard" [⟨.streak none 100, [], "hopeless", "", .rare⟩]]
    let t : Setup := ⟨.ofCoins hard, "progress", [], 1⟩
    [twin "easy" []].map Coin.bare = hard.map Coin.bare ∧
      (doublingStart.inTurn t [randomFlip]).1.game.describe t.catalog "twin" = "Unlocked" := by
  intro hard t
  have hbare : [twin "easy" []].map Coin.bare = hard.map Coin.bare := rfl
  obtain ⟨hworld, -, hreports⟩ :=
    inTurn_congr_bare hbare "progress" [] 1 doublingStart [randomFlip]
  refine ⟨hbare, ?_⟩
  rw [hworld, (hreports "twin").1]
  decide +kernel

end CoinToss

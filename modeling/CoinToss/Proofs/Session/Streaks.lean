import CoinToss.Proofs.Flip.Rows
import CoinToss.Proofs.Session.Saving
import CoinToss.Proofs.Session.Tosses

/-!
# CoinToss.Proofs.Session.Streaks

What the streak counters tell of a session.

They are kept in two places: the streak and the last result with the game, which is not saved, and
the longest streaks with progress, which is.  Both start from nothing in a new game with nothing
stored, and again when progress is reset.  As long as no combo is alone on the faces, they tell of
the results since then, and of nothing else:

```
sides  --toss-->  sides ++ [side]
  |                   |
tells               tells           streak, last, longest streaks
```

* `Game.Tells` — what the counters tell of a history of sides;
* `World.Starts` — where such a history begins;
* `Ready.tells_run` — one toss more, one side more;
* `tells_tossAll` — a session of tosses.
-/

namespace CoinToss

/-- The counters of a game tell of the sides on which it has landed: the streak is the longest row
in which they end, the longest streak of a side is its longest row anywhere, and the longest streak
is the larger of the two. -/
structure Game.Tells (sides : List Side) (g : Game) : Prop where
  streak : IsGreatest (endRows sides) g.streak
  last : g.last = sides.getLast?
  longestHeads : IsGreatest (rowsOf .heads sides) g.progress.longestHeads
  longestTails : IsGreatest (rowsOf .tails sides) g.progress.longestTails
  longest : g.progress.longestStreak = max g.progress.longestHeads g.progress.longestTails

/-- A result tells of a toss that has landed on a side. -/
def Side.IsTold (side : Side) (r : Result) : Prop := ∃ o : Outcome, o.side = side ∧ o.IsTold r

/-- Counters that start from nothing. -/
theorem Game.Tells.nil {g : Game} (hstreak : g.streak = 0) (hlast : g.last = none)
    (hprogress : g.progress = .empty) : g.Tells [] where
  streak := hstreak ▸ isGreatest_endRows_nil
  last := hlast
  longestHeads := hprogress ▸ isGreatest_rowsOf_nil .heads
  longestTails := hprogress ▸ isGreatest_rowsOf_nil .tails
  longest := hprogress ▸ rfl

namespace World

variable {s : Setup} {w : World}

/-- Where a history of results begins: a new game with nothing stored, or a game whose progress has
just been reset. -/
inductive Starts (s : Setup) : World → Prop
  | fresh {w : World} (hgame : w.game = .fresh) (hstored : w.stored s = none) : Starts s w
  | reset {w : World} (hidle : w.game.busy = false) : Starts s (w.run s .reset).1

namespace Starts

theorem ready (hw : Starts s w) : w.Ready s := by
  cases hw with
  | fresh hgame hstored => exact .of_fresh hgame hstored
  | reset hidle => exact .of_run s .reset hidle

theorem tells (hw : Starts s w) : w.game.Tells [] := by
  cases hw with
  | fresh hgame _ => rw [hgame]; exact .nil rfl rfl rfl
  | reset hidle => rw [run_game s .reset hidle]; exact .nil rfl rfl rfl

end Starts

/-- One toss more, one side more: without a lone combo the streak is the one counted. -/
theorem Ready.tells_run (hw : w.Ready s) {sides : List Side} (hsides : w.game.Tells sides)
    {t : Toss} (hfaces : (t.faces s w).loneCombo? = none) {o : Outcome}
    (ho : t.outcome s w = .ok o) : (t.run s w).1.game.Tells (sides ++ [o.side]) := by
  obtain ⟨-, hbonus, l, multiplier, source, hside, hgame⟩ := run_toss_of_ok hw.idle ho
  rw [Faces.comboStreak_of_loneCombo? hfaces, hsides.last] at hbonus
  have hstreak : IsGreatest (endRows (sides ++ [o.side])) o.streak := by
    rw [← Except.ok.inj hbonus]
    exact isGreatest_endRows_snoc hsides.streak o.side
  rw [hw.standing] at hgame
  -- progress is measured by the very streak that the game keeps
  have hlongest (side : Option Side) : (t.run s w).1.game.progress.longestOn side =
      (w.game.progress.count l o.streak).longestOn side := by
    rw [hgame]
    exact longestOn_playAll_flipMoves s.catalog _ l o.streak multiplier _ source side
  have hheads := hlongest (some .heads)
  have htails := hlongest (some .tails)
  have hboth := hlongest none
  simp only [Progress.longestOn, Progress.longestHeads_count, Progress.longestTails_count,
    Progress.longestStreak_count, hside] at hheads htails hboth
  refine
    { streak := ?streak
      last := ?last
      longestHeads := ?heads
      longestTails := ?tails
      longest := ?longest }
  case streak => rwa [hgame]
  case last => rw [hgame, List.getLast?_concat]
  case heads =>
      rw [hheads]
      exact isGreatest_rowsOf_snoc hsides.longestHeads hstreak
  case tails =>
      rw [htails]
      exact isGreatest_rowsOf_snoc hsides.longestTails hstreak
  case longest =>
      have hbefore := hsides.longest
      rw [hboth, hheads, htails, hbefore]
      cases o.side with
      | heads =>
          show max (max _ _) o.streak = max (max _ o.streak) _
          omega
      | tails =>
          show max (max _ _) o.streak = max _ (max _ o.streak)
          omega

/-- The streak counters tell of a session of tosses, whatever the faces show but a lone combo: every
toss is recorded and told, and of the sides on which they have landed the streak is the longest row
in which they end, the longest streaks of the sides are their longest rows, and the longest streak
is the larger of the two. -/
theorem tells_tossAll (hstart : w.Starts s) (ts : List Toss)
    (hfaces : ∀ before t, before ++ [t] <+: ts →
      (t.faces s (w.tossAll s before).1).loneCombo? = none) :
    List.Forall₂ Side.IsTold (w.landed s ts) (w.tossAll s ts).2 ∧
      (w.tossAll s ts).1.game.Tells (w.landed s ts) := by
  suffices h : (w.tossAll s ts).1.Ready s ∧
      List.Forall₂ Side.IsTold (w.landed s ts) (w.tossAll s ts).2 ∧
        (w.tossAll s ts).1.game.Tells (w.landed s ts) from h.2
  -- each toss adds one side and one answer to what the tosses before it have come to
  induction ts using List.reverseRecOn with
  | nil => exact ⟨hstart.ready, .nil, hstart.tells⟩
  | append_singleton ts t ih =>
      obtain ⟨hready, htold, htells⟩ := ih fun before u hu =>
        hfaces before u (hu.trans (List.prefix_append ts [t]))
      have hplain := hfaces ts t List.prefix_rfl
      cases ho : t.outcome s (w.tossAll s ts).1 with
      | error fault =>
          have hok := Toss.isOk_outcome_of_loneCombo? hplain
          rw [ho] at hok
          contradiction
      | ok o =>
          rw [tossAll_snoc, landed_snoc, ho]
          refine ⟨hready.run t, ?_, hready.tells_run htells hplain ho⟩
          exact List.rel_append htold
            (.cons ⟨o, rfl, (run_toss_of_ok hready.idle ho).1⟩ .nil)

/-! ## two combos -/

/-- A new game over an empty store, with draws for two heads and three tails. -/
def pairStart : World := { doublingStart with source := ⟨.cycle 0.25 [0.25, 0.75, 0.75, 0.75], 0⟩ }

/-- A toss that shows the same combo on both faces. -/
def pairToss : Toss := ⟨{ heads := "double", tails := "double" }, {}, firstOfMay⟩

/-- Two combos cancel out, and five tosses end in a row of three. -/
theorem tells_tossAll_pair :
    pairStart.Starts doublingSetup ∧
      (∀ before t, before ++ [t] <+: List.replicate 5 pairToss →
        (t.faces doublingSetup (pairStart.tossAll doublingSetup before).1).loneCombo? = none) ∧
      IsGreatest (endRows [.heads, .heads, .tails, .tails, .tails]) 3 := by
  have hstart : pairStart.Starts doublingSetup := .fresh rfl rfl
  have hfaces : ∀ before t, before ++ [t] <+: List.replicate 5 pairToss →
      (t.faces doublingSetup (pairStart.tossAll doublingSetup before).1).loneCombo? = none := by
    intro before t hprefix
    have ht : t ∈ List.replicate 5 pairToss :=
      hprefix.subset (List.mem_append_right before (List.mem_singleton_self t))
    rw [List.eq_of_mem_replicate ht]
    rfl
  refine ⟨hstart, hfaces, ?_⟩
  have hstreak := (tells_tossAll hstart (List.replicate 5 pairToss) hfaces).2.streak
  have hsides : pairStart.landed doublingSetup (List.replicate 5 pairToss) =
      [.heads, .heads, .tails, .tails, .tails] := by decide +kernel
  have hthree :
      (pairStart.tossAll doublingSetup (List.replicate 5 pairToss)).1.game.streak = 3 := by
    decide +kernel
  rwa [hsides, hthree] at hstreak

end World

end CoinToss

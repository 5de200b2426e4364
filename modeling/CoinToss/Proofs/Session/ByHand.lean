import CoinToss.Proofs.Session.Keeping
import CoinToss.Proofs.Unlock.Reports

/-!
# CoinToss.Proofs.Session.ByHand

What unlocking a coin by hand tells.

Unlocking by hand asks one set whether there is anything to do: the coins that have been unlocked by
chance or by hand.  Whoever is in it is stamped, so a coin that is told to be unlocked already is.
But a coin can be unlocked without being in it, by play or for want of a condition, and then the
call tells that it has changed something:

```
in the set      unlocked, told as unchanged       nothing is done
not in it       locked, or unlocked by play       stamped, told as changed
```

* `Holds.happen`, `Holds.afterAll` — what a session holds of progress, whatever happens to it;
* `unlockByHand_cases` — the two outcomes, on progress;
* `run_unlock_of_known`, `run_unlock_of_new` — the two outcomes, of the whole call;
* `unlock_unchanged_or_changed` — in any session that began over an empty store.
-/

namespace CoinToss

/-! ## sessions -/

namespace World

section Holds

variable {s : Setup} {P : Progress → Prop} {w : World}

theorem Holds.happen (hw : w.Holds s P) (hempty : P .empty)
    (hact : ∀ (call : Call) (v : World), P v.game.progress → P (v.act s call).1.game.progress)
    (h : Happening) : (w.happen s h).Holds s P := by
  cases h with
  | renew source => exact ⟨rfl, hw.store, hempty, hw.stored⟩
  | call c faults time => exact (hw.meeting faults time).run hempty (hact c)

theorem Holds.afterAll (hw : w.Holds s P) (hempty : P .empty)
    (hact : ∀ (call : Call) (v : World), P v.game.progress → P (v.act s call).1.game.progress)
    (hs : List Happening) : (w.afterAll s hs).Holds s P := by
  induction hs generalizing w with
  | nil => exact hw
  | cons h hs ih => exact ih (hw.happen hempty hact h)

end Holds

end World

/-! ## progress -/

namespace Progress

variable {p : Progress} {path : String}

/-- A coin that has been unlocked by chance or by hand is left as it is. -/
theorem unlockByHand_of_known (h : path ∈ p.randomUnlocks) (time : DateTime) :
    p.unlockByHand path time = (p, false) :=
  if_pos (PathSet.contains_iff.2 h)

/-- Any other coin is stamped. -/
theorem unlockByHand_of_new (h : path ∉ p.randomUnlocks) (time : DateTime) :
    (p.unlockByHand path time).2 = true ∧
      (p.unlockByHand path time).1.stamps.contains path = true := by
  have hnew : ¬p.randomUnlocks.contains path = true := mt PathSet.contains_iff.1 h
  rw [unlockByHand, if_neg hnew, contains_stamps_stamp, decide_eq_true rfl]
  exact ⟨rfl, Bool.true_or _⟩

end Progress

/-! ## calls -/

namespace World

section Run

variable {s : Setup} {w : World} {path : String}

/-- A coin that has been unlocked by chance or by hand is told as unchanged, and nothing is done. -/
theorem run_unlock_of_known (hidle : w.game.busy = false)
    (h : path ∈ (w.found s (.unlock path)).randomUnlocks) :
    (w.run s (.unlock path)).2 = .ok (.changed false) ∧
      (w.run s (.unlock path)).1.game.progress = w.found s (.unlock path) ∧
      (w.run s (.unlock path)).1.store = w.store := by
  have hfound : (w.opened s (.unlock path)).game.progress = w.found s (.unlock path) := by
    rw [opened_game]
  have hact : (w.opened s (.unlock path)).act s (.unlock path) =
      (w.opened s (.unlock path), .done (.ok (.changed false))) := by
    rw [← hfound] at h
    rw [act, Progress.unlockByHand_of_known h]
    rfl
  rw [run_of_done hidle hact]
  exact ⟨rfl, hfound, opened_store s w (.unlock path)⟩

/-- Any other coin is stamped, and told as changed if progress has a text to be saved. -/
theorem run_unlock_of_new {st : Store} (hidle : w.game.busy = false) (hstore : w.store = some st)
    (h : path ∉ (w.found s (.unlock path)).randomUnlocks) :
    (w.run s (.unlock path)).2 =
        (if (w.run s (.unlock path)).1.game.progress.isStorable then .ok (.changed true)
          else .error .unstorable) ∧
      (w.run s (.unlock path)).1.game.progress.stamps.contains path = true := by
  have hfound : (w.opened s (.unlock path)).game.progress = w.found s (.unlock path) := by
    rw [opened_game]
  rw [← hfound] at h
  obtain ⟨hchanged, hstamped⟩ := Progress.unlockByHand_of_new h (w.opened s (.unlock path)).clock
  have hact : (w.opened s (.unlock path)).act s (.unlock path) =
      (((w.opened s (.unlock path)).act s (.unlock path)).1, .save (.changed true)) := by
    rw [act]
    dsimp only
    rw [hchanged]
    rfl
  have hst : ((w.opened s (.unlock path)).act s (.unlock path)).1.store = some st := by
    rw [act_store, opened_store, hstore]
  rw [run_game s _ hidle]
  refine ⟨?_, hstamped⟩
  rw [run_of_save hidle hact]
  generalize ((w.opened s (.unlock path)).act s (.unlock path)).1 = u at hst ⊢
  cases hfits : u.game.progress.isStorable with
  | true =>
      have htext : u.game.progress.text? = some _ := if_pos hfits
      obtain hsaved | ⟨records, hsaved⟩ := saveProgress?_of_text? st s.key htext
      · rw [commit, hst, hsaved]
        rfl
      · rw [commit, hst, hsaved]
        rfl
  | false =>
      have hnone : saveProgress? u.store s.key u.game.progress = none := by
        rw [hst, saveProgress?, Progress.text?, hfits]
        rfl
      rw [commit, hnone]
      rfl

end Run

/-- **What unlocking a coin by hand tells**, in any session over a store that held nothing at first,
whatever has happened to it since.

* A coin that has been unlocked by chance or by hand, and is unlocked then, is told as unchanged;
  progress and store are as they were.
* Any other coin is told as changed, whether it was locked, or unlocked by play or for want of a
  condition.  If the progress with its stamp has integers beyond 64 bits, the call fails instead.
* In the end the coin is unlocked. -/
theorem unlock_unchanged_or_changed (s : Setup) {w : World} {st : Store} (hfresh : w.game = .fresh)
    (hstore : w.store = some st) (hempty : st.blobs.get? s.key = none) (hs : List Happening)
    (faults : Faults) (time : DateTime) (coin : Coin) :
    let before := (w.afterAll s hs).meeting faults time
    let found := before.found s (.unlock coin.path)
    let after := (before.run s (.unlock coin.path)).1
    let result := (before.run s (.unlock coin.path)).2
    (coin.path ∈ found.randomUnlocks ∧ coin.isUnlocked s.catalog.known found = true ∧
        result = .ok (.changed false) ∧ after.game.progress = found ∧ after.store = before.store ∨
      coin.path ∉ found.randomUnlocks ∧
        result = (if after.game.progress.isStorable then .ok (.changed true)
          else .error .unstorable)) ∧
      coin.isUnlocked s.catalog.known after.game.progress = true := by
  intro before found after result
  have hlatched : before.Holds s Progress.Latched := by
    refine ((Holds.of_fresh .empty hfresh hstore hempty).afterAll .empty ?_ hs).meeting faults time
    exact fun call v hv => progress_act_keeps .empty (fun p m hp => hp.play s.catalog m) hv call
  have hfound : found.Latched := hlatched.found .empty _
  by_cases hknown : coin.path ∈ found.randomUnlocks
  · obtain ⟨hresult, hprogress, hkept⟩ := run_unlock_of_known hlatched.idle hknown
    have hunlocked : coin.isUnlocked s.catalog.known found = true :=
      Coin.isUnlocked_of_stamped (hfound.randomUnlocks _ hknown)
    refine ⟨.inl ⟨hknown, hunlocked, hresult, hprogress, hkept⟩, ?_⟩
    rwa [show after.game.progress = found from hprogress]
  · obtain ⟨next, hnext⟩ := hlatched.store
    obtain ⟨hresult, hstamped⟩ := run_unlock_of_new hlatched.idle hnext hknown
    exact ⟨.inr ⟨hknown, hresult⟩, Coin.isUnlocked_of_stamped hstamped⟩

end World

/-! ## a coin unlocked by play -/

/-- A coin that the first flip unlocks. -/
def firstFlipCoin : Coin where
  path := "first"
  name := ""
  category := ""
  rarity := none
  unlock := some ⟨.totalFlips 1, [], "", "", .common⟩
  effect := none

/-- A session with the coin. -/
def firstFlipSetup : Setup := ⟨⟨[firstFlipCoin], by decide⟩, "progress", [], 1⟩

/-- The first landing. -/
def firstLanding : Happening := .call (.track ⟨"first", .heads, none, none⟩ 1) {} firstOfMay

/-- The coin is unlocked by its flip, and unlocking it by hand then is told as a change all the same,
but only once. -/
theorem unlock_unchanged_or_changed_firstFlip :
    let before := (doublingStart.afterAll firstFlipSetup [firstLanding]).meeting {} firstOfMay
    let later := (doublingStart.afterAll firstFlipSetup
      [firstLanding, .call (.unlock "first") {} firstOfMay]).meeting {} firstOfMay
    firstFlipCoin.isUnlocked firstFlipSetup.catalog.known before.game.progress = true ∧
      (before.run firstFlipSetup (.unlock "first")).2 = .ok (.changed true) ∧
      (later.run firstFlipSetup (.unlock "first")).2 = .ok (.changed false) := by
  intro before later
  have hstore : doublingStart.store = some (.empty .memory) := rfl
  have htells := World.unlock_unchanged_or_changed firstFlipSetup (w := doublingStart) rfl hstore rfl
  refine ⟨by decide +kernel, ?_, ?_⟩
  · obtain ⟨⟨hknown, -⟩ | ⟨-, hresult⟩, -⟩ := htells [firstLanding] {} firstOfMay firstFlipCoin
    · have hnew : (before.found firstFlipSetup (.unlock "first")).randomUnlocks.contains "first" =
          false := by decide +kernel
      exact absurd (PathSet.contains_iff.2 hknown) (Bool.eq_false_iff.1 hnew)
    · refine hresult.trans (if_pos ?_)
      decide +kernel
  · obtain ⟨⟨-, -, hresult, -⟩ | ⟨hnew, -⟩, -⟩ :=
      htells [firstLanding, .call (.unlock "first") {} firstOfMay] {} firstOfMay firstFlipCoin
    · exact hresult
    · refine absurd (PathSet.contains_iff.1 ?_) hnew
      decide +kernel

end CoinToss

import CoinToss.Proofs.Session.Agreement

/-!
# CoinToss.Proofs.Session.Keeping

What a session keeps of progress.

A call acts on the progress of the game, or on what the store holds, which the game has held before,
or on none at all.  So whatever holds of empty progress and is kept by acting, holds of game and
store throughout, no matter what becomes of the saves.

```
game, store  --found-->  progress  --act-->  game  --saveProgress?-->  game, store
```

* `loadProgress_cases` — what is loaded is stored, or is empty;
* `World.Holds` — a session whose game and store hold progress of some kind;
* `Holds.run` — a call keeps it, if acting does.
-/

namespace CoinToss

namespace World

variable {s : Setup} {w : World}

/-- What is loaded is stored, or is empty. -/
theorem loadProgress_cases (s : Setup) (w : World) :
    (loadProgress w.store s.key).1 = .empty ∨
      w.stored s = some (loadProgress w.store s.key).1 := by
  unfold stored
  cases w.store with
  | none => exact .inl rfl
  | some st =>
      rw [Option.bind_some, loadProgress, Store.read]
      cases st.faults.read with
      | some message => exact .inl rfl
      | none =>
          dsimp only
          cases st.blobs.get? s.key with
          | none => exact .inl rfl
          | some bytes =>
              dsimp only
              rw [Option.bind_some]
              cases Progress.ofBytes bytes with
              | error _ => exact .inl rfl
              | ok p => exact .inr rfl

/-- A session at rest over a store, all progress in game and store being of some kind. -/
structure Holds (s : Setup) (P : Progress → Prop) (w : World) : Prop where
  idle : w.game.busy = false
  store : ∃ st, w.store = some st
  game : P w.game.progress
  stored : ∀ p, w.stored s = some p → P p

namespace Holds

variable {P : Progress → Prop}

/-- A new game over a store with nothing under its key holds empty progress only. -/
theorem of_fresh {st : Store} (hempty : P .empty) (hgame : w.game = .fresh)
    (hstore : w.store = some st) (hnone : st.blobs.get? s.key = none) : w.Holds s P where
  idle := by simp [hgame, Game.fresh]
  store := ⟨st, hstore⟩
  game := by simpa [hgame, Game.fresh] using hempty
  stored p hp := by simp [World.stored, hstore, hnone] at hp

theorem meeting (hw : w.Holds s P) (faults : Faults) (time : DateTime) :
    (w.meeting faults time).Holds s P := by
  obtain ⟨st, hst⟩ := hw.store
  refine ⟨hw.idle, ⟨_, store_meeting hst faults time⟩, hw.game, fun p hp => hw.stored p ?_⟩
  rwa [stored_meeting] at hp

/-- A call acts on progress of that kind. -/
theorem found (hw : w.Holds s P) (hempty : P .empty) (call : Call) : P (w.found s call) := by
  unfold World.found
  by_cases hread : call.needsRead w.game = true
  · rw [if_pos hread]
    obtain hnone | hloaded := loadProgress_cases s w
    · rwa [hnone]
    · exact hw.stored _ hloaded
  · rw [if_neg hread]
    exact hw.game

/-- A call keeps game and store, if acting keeps progress. -/
theorem run (hw : w.Holds s P) (hempty : P .empty) {call : Call}
    (hact : ∀ v : World, P v.game.progress → P (v.act s call).1.game.progress) :
    (w.run s call).1.Holds s P := by
  obtain ⟨st, hst⟩ := hw.store
  obtain ⟨next, hnext, -⟩ := blobs_run s call hw.idle hst
  have hgame : P (w.run s call).1.game.progress := by
    rw [run_game s call hw.idle]
    refine hact _ ?_
    rw [opened_game]
    exact hw.found hempty call
  refine ⟨idle_run s call hw.idle, ⟨next, hnext⟩, hgame, fun p hp => ?_⟩
  rw [stored_run s call hw.idle hst] at hp
  by_cases hkept : w.fate s call = .kept
  · rw [if_pos hkept, Option.some.injEq] at hp
    rwa [← hp]
  · rw [if_neg hkept] at hp
    exact hw.stored p hp

end Holds

end World

end CoinToss

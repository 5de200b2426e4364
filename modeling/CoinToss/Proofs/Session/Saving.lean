import CoinToss.Proofs.Progress.Range
import CoinToss.Proofs.Session.Flips
import CoinToss.Proofs.Unlock.Latch
import Mathlib.Data.List.Induction

/-!
# CoinToss.Proofs.Session.Saving

Which flips of a session are saved.

A store in order takes every text, so a recorded flip is saved exactly if the progress it leaves
has a text, that is if its integers fit 64 bits; otherwise the flip fails after it was recorded.
A game begun without progress fits as long as its flips and its streaks do, and a combo can make a
streak of any length, so sessions that cannot be saved any more are within reach.

* `saveProgress?_of_writable` — saving to a store in order;
* `isStorable_afterFlips_iff` — which sessions fit;
* `isStorable_of_later` — one that does not is not saved any more;
* `flip_saved_iff_fits` — which flips are saved.
-/

namespace CoinToss

/-! ## stores in order -/

/-- The bytes of a text are a text. -/
theorem isSome_fromUTF8? (text : String) : (String.fromUTF8? text.toUTF8).isSome = true := by
  have hvalid : text.toUTF8.IsValidUTF8 := text.isValidUTF8
  unfold String.fromUTF8?
  rw [dif_pos hvalid]
  rfl

/-- A store in order takes every text. -/
theorem Store.write_toUTF8 {st : Store} (hwrite : st.faults.write = none) (key text : String) :
    st.write key text.toUTF8 = .ok { st with blobs := st.blobs.insert key text.toUTF8 } := by
  have haccepts : st.accepts text.toUTF8 = true := by
    rw [accepts, isSome_fromUTF8?, Bool.or_true]
  unfold write
  rw [haccepts, hwrite]
  rfl

/-- Saving to a store in order keeps the text of progress, if it has one. -/
theorem saveProgress?_of_writable {st : Store} (hwrite : st.faults.write = none) (key : String)
    (p : Progress) :
    saveProgress? (some st) key p =
      p.text?.map fun text =>
        ⟨some { st with blobs := st.blobs.insert key text.toUTF8 }, true, []⟩ := by
  rw [saveProgress?]
  simp only [Store.write_toUTF8 hwrite]

/-- Whether a recorded flip is saved is up to its progress. -/
theorem savedFlip_of_writable {st : Store} (hwrite : st.faults.write = none) (key : String)
    (p : Progress) (outcome : Outcome) :
    (p.isStorable = true ∧ ∃ next, next.faults.write = none ∧
        World.savedFlip (some st) outcome (saveProgress? (some st) key p) =
          (.ok (.flipped { outcome with saved := true }), some next)) ∨
      (p.isStorable = false ∧
        World.savedFlip (some st) outcome (saveProgress? (some st) key p) =
          (.error .unstorable, some st)) := by
  rw [saveProgress?_of_writable hwrite, Progress.text?]
  cases hp : p.isStorable with
  | false => exact .inr ⟨rfl, rfl⟩
  | true =>
      refine .inl ⟨rfl, _, ?_, rfl⟩
      exact hwrite

/-! ## sessions of flips -/

namespace World

/-- The world after flips, one after the other. -/
def afterFlips (s : Setup) (w : World) (os : List FlipOrder) : World :=
  os.foldl (fun w o => (w.run s (.flip o)).1) w

theorem afterFlips_snoc (s : Setup) (w : World) (os : List FlipOrder) (o : FlipOrder) :
    w.afterFlips s (os ++ [o]) = ((w.afterFlips s os).run s (.flip o)).1 := by
  rw [afterFlips, List.foldl_append]
  rfl

/-- A game that nothing is under way in, over a store that can be written. -/
structure InOrder (w : World) : Prop where
  idle : w.game.busy = false
  writable : ∃ st, w.store = some st ∧ st.faults.write = none

/-- A flip over a store in order: it stops, or it is recorded and then saved exactly if its
progress fits. -/
theorem InOrder.run_flip {w : World} (hw : w.InOrder) (s : Setup) (o : FlipOrder) :
    (w.run s (.flip o)).1.InOrder ∧
      ((∃ fault, (w.run s (.flip o)).2 = .error (.number fault) ∧
          (w.run s (.flip o)).1.game = { w.game with progress := w.standing s, loaded := true } ∧
          (w.run s (.flip o)).1.store = w.store) ∨
        ∃ (l : Landing) (streak : Int) (multiplier : Float) (source : Source),
          (w.run s (.flip o)).1.game =
            ⟨((w.standing s).playAll s.catalog (flipMoves l streak multiplier w.clock source)).1,
              streak, some l.side, true, false⟩ ∧
          (((w.run s (.flip o)).1.game.progress.isStorable = true ∧
              ∃ outcome, (w.run s (.flip o)).2 = .ok (.flipped outcome) ∧
                outcome.saved = true) ∨
            ((w.run s (.flip o)).1.game.progress.isStorable = false ∧
              (w.run s (.flip o)).2 = .error .unstorable ∧
              (w.run s (.flip o)).1.store = w.store))) := by
  obtain ⟨hidle, st, hst, hwrite⟩ := hw
  obtain ⟨fault, hresult, hgame, hstore⟩ | ⟨outcome, l, multiplier, source, hgame, hsaved⟩ :=
    run_flip_cases s o hidle
  · refine ⟨⟨?_, st, hstore.trans hst, hwrite⟩, .inl ⟨fault, hresult, hgame, hstore⟩⟩
    rw [hgame]
    exact hidle
  · rw [hst] at hsaved ⊢
    obtain ⟨hfits, next, hnext, he⟩ | ⟨hfits, he⟩ := savedFlip_of_writable hwrite s.key
      (w.run s (.flip o)).1.game.progress outcome
    · obtain ⟨hresult, hstore⟩ := Prod.mk.inj (hsaved.trans he)
      refine ⟨⟨by rw [hgame], next, hstore, hnext⟩, .inr ⟨l, outcome.streak, multiplier, source,
        hgame, .inl ⟨hfits, _, hresult, rfl⟩⟩⟩
    · obtain ⟨hresult, hstore⟩ := Prod.mk.inj (hsaved.trans he)
      refine ⟨⟨by rw [hgame], st, hstore, hwrite⟩, .inr ⟨l, outcome.streak, multiplier, source,
        hgame, .inr ⟨hfits, hresult, hstore⟩⟩⟩

theorem standing_of_loaded {w : World} (s : Setup) (h : w.game.loaded = true) :
    w.standing s = w.game.progress := by
  rw [standing, if_pos h]

/-- After a flip saved progress has been read. -/
theorem InOrder.standing_run_flip {w : World} (hw : w.InOrder) (s : Setup) (o : FlipOrder) :
    (w.run s (.flip o)).1.standing s = (w.run s (.flip o)).1.game.progress := by
  refine standing_of_loaded s ?_
  obtain ⟨-, ⟨_, -, hgame, -⟩ | ⟨_, _, _, _, hgame, -⟩⟩ := hw.run_flip s o
  · rw [hgame]
  · rw [hgame]

theorem InOrder.afterFlips {w : World} (hw : w.InOrder) (s : Setup) (os : List FlipOrder) :
    (w.afterFlips s os).InOrder := by
  induction os using List.reverseRecOn with
  | nil => exact hw
  | append_singleton os o ih =>
      rw [afterFlips_snoc]
      exact (ih.run_flip s o).1

/-! ## what a session of flips leaves -/

/-- A flip measures the longest streaks by its own, as its landing does. -/
theorem longestOn_playAll_flipMoves (c : Catalog) (p : Progress) (l : Landing) (streak : Int)
    (multiplier : Float) (time : DateTime) (source : Source) (side : Option Side) :
    (p.playAll c (flipMoves l streak multiplier time source)).1.longestOn side =
      (p.count l streak).longestOn side := by
  show (rollAll c l multiplier time (p.track c l streak time).1 source).1.1.longestOn side = _
  rw [rollAll_eq, Progress.track_eq, Progress.land_eq]
  cases side with
  | none => rfl
  | some side => cases side <;> rfl

/-- A flip counts once, and measures its streak. -/
theorem playAll_flipMoves (c : Catalog) (p : Progress) (l : Landing) (streak : Int)
    (multiplier : Float) (time : DateTime) (source : Source) :
    (p.playAll c (flipMoves l streak multiplier time source)).1.totalFlips = p.totalFlips + 1 ∧
      (p.playAll c (flipMoves l streak multiplier time source)).1.longestStreak =
        max p.longestStreak streak := by
  refine ⟨?_, ?_⟩
  · show (rollAll c l multiplier time (p.track c l streak time).1 source).1.1.totalFlips = _
    rw [rollAll_eq, Progress.track_eq, Progress.land_eq]
    exact p.totalFlips_count l streak
  · have hlongest := longestOn_playAll_flipMoves c p l streak multiplier time source none
    exact hlongest.trans (p.longestStreak_count l streak)

/-- Flips leave counted progress, whose longest streak is the one before them or one of theirs. -/
theorem InOrder.standing_afterFlips {w : World} (hw : w.InOrder) {s : Setup}
    (hstart : (w.standing s).Counted) (hstreak : w.game.streak = 0) (os : List FlipOrder) :
    ((w.afterFlips s os).standing s).Counted ∧ ∀ bound,
      (((w.afterFlips s os).standing s).longestStreak < bound ↔
        (w.standing s).longestStreak < bound ∧
          ∀ k, k <+: os → (w.afterFlips s k).game.streak < bound) := by
  induction os using List.reverseRecOn with
  | nil =>
      refine ⟨hstart, fun bound => ?_⟩
      have hheads := hstart.longestHeads
      have hlongest := hstart.longest
      simp only [List.prefix_nil, forall_eq]
      show (w.standing s).longestStreak < bound ↔ _ ∧ w.game.streak < bound
      rw [hstreak]
      omega
  | append_singleton os o ih =>
      obtain ⟨hcounted, hlongest⟩ := ih
      have hprefixes (bound : Int) :
          ((w.standing s).longestStreak < bound ∧
              ∀ k, k <+: os ++ [o] → (w.afterFlips s k).game.streak < bound) ↔
            (w.afterFlips s (os ++ [o])).game.streak < bound ∧
              ((w.afterFlips s os).standing s).longestStreak < bound := by
        rw [hlongest]
        simp only [List.prefix_concat_iff, or_imp, forall_and, forall_eq]
        exact and_left_comm
      simp only [hprefixes]
      have hlast := (hw.afterFlips s os).run_flip s o
      rw [afterFlips_snoc, (hw.afterFlips s os).standing_run_flip]
      obtain ⟨-, ⟨_, -, hgame, -⟩ | ⟨l, streak, multiplier, source, hgame, -⟩⟩ := hlast
      · -- nothing is recorded, and the streak is that of the flip before
        rw [hgame]
        refine ⟨hcounted, fun bound => ?_⟩
        have hold := (hlongest bound).1
        exact ⟨fun h => ⟨(hold h).2 os List.prefix_rfl, h⟩, fun h => h.2⟩
      · rw [hgame]
        refine ⟨hcounted.playAll s.catalog _, fun bound => ?_⟩
        rw [(playAll_flipMoves s.catalog _ l streak multiplier _ source).2]
        show max _ streak < bound ↔ streak < bound ∧ _
        omega

/-- A session of flips fits as long as its flips and its streaks do. -/
theorem InOrder.isStorable_afterFlips_iff {w : World} (hw : w.InOrder) {s : Setup}
    (hstart : (w.standing s).Counted) (hstreak : w.game.streak = 0) (os : List FlipOrder) :
    ((w.afterFlips s os).standing s).isStorable = true ↔
      ((w.afterFlips s os).standing s).totalFlips < Json.unsignedLimit ∧
        (w.standing s).longestStreak < Json.unsignedLimit ∧
          ∀ k, k <+: os → (w.afterFlips s k).game.streak < Json.unsignedLimit := by
  obtain ⟨hcounted, hlongest⟩ := hw.standing_afterFlips hstart hstreak os
  rw [hcounted.isStorable_iff, hlongest]

/-- Progress that does not fit never fits again: neither its flips nor its streaks go back. -/
theorem InOrder.isStorable_of_later {w : World} (hw : w.InOrder) {s : Setup}
    (hstart : (w.standing s).Counted) (hstreak : w.game.streak = 0) (os more : List FlipOrder)
    (hlater : ((w.afterFlips s (os ++ more)).standing s).isStorable = true) :
    ((w.afterFlips s os).standing s).isStorable = true := by
  induction more using List.reverseRecOn with
  | nil => rwa [List.append_nil] at hlater
  | append_singleton more o ih =>
      refine ih ?_
      rw [← List.append_assoc, hw.isStorable_afterFlips_iff hstart hstreak] at hlater
      rw [hw.isStorable_afterFlips_iff hstart hstreak]
      obtain ⟨hflips, hstarted, hstreaks⟩ := hlater
      refine ⟨?_, hstarted, fun k hk => hstreaks k (hk.trans (List.prefix_append _ [o]))⟩
      have hlast := (hw.afterFlips s (os ++ more)).run_flip s o
      rw [afterFlips_snoc, (hw.afterFlips s (os ++ more)).standing_run_flip] at hflips
      obtain ⟨-, ⟨_, -, hgame, -⟩ | ⟨l, streak, multiplier, source, hgame, -⟩⟩ := hlast
      · rwa [hgame] at hflips
      · have hcount := (playAll_flipMoves s.catalog ((w.afterFlips s (os ++ more)).standing s) l
          streak multiplier (w.afterFlips s (os ++ more)).clock source).1
        rw [hgame] at hflips
        simp only [hcount] at hflips
        omega

/-- A flip stops before anything is recorded, or it counts and is saved exactly if its progress
fits. -/
theorem InOrder.flip_stops_or_counts {w : World} (hw : w.InOrder) (s : Setup) (o : FlipOrder) :
    (∃ fault, (w.run s (.flip o)).2 = .error (.number fault) ∧
        (w.run s (.flip o)).1.game.progress = w.standing s ∧
        (w.run s (.flip o)).1.store = w.store) ∨
      ((w.run s (.flip o)).1.game.progress.totalFlips = (w.standing s).totalFlips + 1 ∧
        (((w.run s (.flip o)).1.game.progress.isStorable = true ∧
            ∃ outcome, (w.run s (.flip o)).2 = .ok (.flipped outcome) ∧ outcome.saved = true) ∨
          ((w.run s (.flip o)).1.game.progress.isStorable = false ∧
            (w.run s (.flip o)).2 = .error .unstorable ∧
            (w.run s (.flip o)).1.store = w.store))) := by
  obtain ⟨-, ⟨fault, hresult, hgame, hkeep⟩ | ⟨l, streak, multiplier, source, hgame, hsaved⟩⟩ :=
    hw.run_flip s o
  · refine .inl ⟨fault, hresult, ?_, hkeep⟩
    rw [hgame]
  · have hcount := (playAll_flipMoves s.catalog (w.standing s) l streak multiplier w.clock source).1
    refine .inr ⟨?_, ?_⟩
    · rw [hgame]
      exact hcount
    · rcases hsaved with ⟨hfits, outcome, hresult, hsaved⟩ | hfails
      · exact .inl ⟨hfits, outcome, hresult, hsaved⟩
      · exact .inr hfails

/-- Which flips of a session are saved.  A flip may stop before anything is recorded; otherwise it
counts, and is saved if the integers of its progress fit 64 bits, while it fails and leaves the
store as it was if they do not.  Of a session started with counted progress, or with none, they fit
exactly if fewer than `2 ^ 64` flips have been recorded and no streak has come to `2 ^ 64`, which
is `Json.unsignedLimit`. -/
theorem flip_saved_iff_fits (s : Setup) {w : World} {st : Store} (hfresh : w.game = .fresh)
    (hstore : w.store = some st) (hwrite : st.faults.write = none) (earlier : List FlipOrder)
    (o : FlipOrder) :
    let start := (loadProgress w.store s.key).1
    let before := w.afterFlips s earlier
    let result := (before.run s (.flip o)).2
    let after := (before.run s (.flip o)).1
    ((∃ fault, result = .error (.number fault) ∧ after.game.progress = before.standing s ∧
          after.store = before.store) ∨
        (after.game.progress.totalFlips = (before.standing s).totalFlips + 1 ∧
          ((after.game.progress.isStorable = true ∧
              ∃ outcome, result = .ok (.flipped outcome) ∧ outcome.saved = true) ∨
            (after.game.progress.isStorable = false ∧ result = .error .unstorable ∧
              after.store = before.store)))) ∧
      (start.Counted →
        (after.game.progress.isStorable = true ↔
          after.game.progress.totalFlips < Json.unsignedLimit ∧
            start.longestStreak < Json.unsignedLimit ∧
              ∀ k, k <+: earlier ++ [o] → (w.afterFlips s k).game.streak < Json.unsignedLimit)) := by
  have hw : w.InOrder := ⟨by rw [hfresh]; rfl, st, hstore, hwrite⟩
  have hbefore := hw.afterFlips s earlier
  refine ⟨hbefore.flip_stops_or_counts s o, fun hstart => ?_⟩
  have hstanding : w.standing s = (loadProgress w.store s.key).1 := by
    rw [standing, hfresh]
    rfl
  have hstreak : w.game.streak = 0 := by
    rw [hfresh]
    rfl
  have hfits := hw.isStorable_afterFlips_iff (hstanding ▸ hstart) hstreak (earlier ++ [o])
  rw [afterFlips_snoc, hbefore.standing_run_flip, hstanding] at hfits
  exact hfits

end World

/-! ## a session that cannot be saved -/

/-- A coin that always shows heads. -/
def twoHeads : Coin where
  path := "heads"
  name := ""
  category := ""
  rarity := none
  unlock := none
  effect := some ⟨"", .alwaysHeads⟩

/-- A coin that doubles the streak. -/
def doubler : Coin where
  path := "double"
  name := ""
  category := ""
  rarity := none
  unlock := none
  effect := some ⟨"", .combo ⟨.multiplicative, 2⟩⟩

/-- A session with the two coins. -/
def doublingSetup : Setup := ⟨⟨[twoHeads, doubler], by decide⟩, "progress", [], 1⟩

/-- A new game over an empty store. -/
def doublingStart : World :=
  ⟨.fresh, some (.empty .memory), ⟨.cycle 0 [], 0⟩, firstOfMay, #[]⟩

/-- A flip of the two coins. -/
def doublingFlip : FlipOrder := { heads := "heads", tails := "double" }

/-- The first 62 flips make a streak of `2 ^ 63`; the next one is recorded, but fails. -/
theorem flip_saved_iff_fits_doubling :
    doublingStart.game = .fresh ∧ doublingStart.store = some (.empty .memory) ∧
      (Store.empty .memory).faults.write = none ∧
      (loadProgress doublingStart.store doublingSetup.key).1.Counted ∧
      ((doublingStart.afterFlips doublingSetup (List.replicate 62 doublingFlip)).run
        doublingSetup (.flip doublingFlip)).2 = .error .unstorable := by
  refine ⟨rfl, rfl, rfl, .empty, ?_⟩
  obtain ⟨⟨_, -, hstays, -⟩ | ⟨-, hsaved⟩, hfits⟩ :=
    World.flip_saved_iff_fits doublingSetup (w := doublingStart) rfl rfl rfl
      (List.replicate 62 doublingFlip) doublingFlip
  · have hflips := congrArg Progress.totalFlips hstays
    exact absurd hflips (by decide +kernel)
  · rcases hsaved with ⟨hstorable, -⟩ | ⟨-, hfails, -⟩
    · have hstreak := ((hfits .empty).1 hstorable).2.2 _ List.prefix_rfl
      exact absurd hstreak (by decide +kernel)
    · exact hfails

end CoinToss

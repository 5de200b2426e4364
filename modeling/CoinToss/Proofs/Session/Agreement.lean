import CoinToss.Proofs.Session.Calls
import CoinToss.Proofs.Session.Saving

/-!
# CoinToss.Proofs.Session.Agreement

Store and game agree after every save that was kept.

What is saved is the whole progress the call has left, so the store then holds what the game holds,
whatever became of earlier saves.  A save that was refused leaves the store and not the game as it
was; a call without a save leaves both.

* `Happening`, `World.afterAll` — calls while the store is now in order and now not;
* `stored` — the progress that the store holds, in order or not;
* `stored_run` — what a call leaves in the store, by what became of its save;
* `agrees_after_save` — store and game after a call that follows others.
-/

namespace CoinToss

/-! ## a session and its store -/

/-- What happens to a session and its store, one thing after the other. -/
inductive Happening where
  /-- A new session on the same store, with draws of its own. -/
  | renew (source : Source)
  /-- A call at a time, made while the store is in such order. -/
  | call (call : Call) (faults : Faults) (time : DateTime)

/-- Whether the session goes on. -/
def Happening.isCall : Happening → Bool
  | .renew _ => false
  | .call _ _ _ => true

namespace World

/-- The world at a time, with its store in such order. -/
def meeting (w : World) (faults : Faults) (time : DateTime) : World :=
  { w with store := w.store.map fun st => { st with faults := faults }, clock := time }

/-- The world after something has happened. -/
def happen (s : Setup) (w : World) : Happening → World
  | .renew source => { w.restart with source := source }
  | .call c faults time => ((w.meeting faults time).run s c).1

/-- The world after all this has happened. -/
def afterAll (s : Setup) (w : World) (hs : List Happening) : World := hs.foldl (happen s) w

theorem afterAll_snoc (s : Setup) (w : World) (hs : List Happening) (h : Happening) :
    w.afterAll s (hs ++ [h]) = (w.afterAll s hs).happen s h := by
  rw [afterAll, List.foldl_append]
  rfl

/-- The progress that the store holds, whether it can be read just now or not. -/
def stored (s : Setup) (w : World) : Option Progress :=
  w.store.bind fun st => (st.blobs.get? s.key).bind fun bytes => (Progress.ofBytes bytes).toOption

theorem store_meeting {w : World} {st : Store} (hstore : w.store = some st) (faults : Faults)
    (time : DateTime) : (w.meeting faults time).store = some { st with faults := faults } := by
  rw [meeting, hstore]
  rfl

theorem stored_meeting (s : Setup) (w : World) (faults : Faults) (time : DateTime) :
    (w.meeting faults time).stored s = w.stored s := by
  unfold stored meeting
  cases w.store <;> rfl

theorem stored_of_keeping {s : Setup} {w : World} {st : Store} {p : Progress} {text : String}
    (htext : p.text? = some text) (hstore : w.store = some (st.keeping s.key text)) :
    w.stored s = some p := by
  rw [stored, hstore, Option.bind_some, st.get?_blobs_keeping, Option.bind_some,
    Progress.ofBytes_toUTF8 htext]
  rfl

/-- What a store in order holds is loaded. -/
theorem loadProgress_of_stored {s : Setup} {w : World} {st : Store} {p : Progress}
    (hstore : w.store = some st) (hread : st.faults.read = none) (hp : w.stored s = some p) :
    (loadProgress w.store s.key).1 = p := by
  rw [stored, hstore, Option.bind_some] at hp
  obtain ⟨bytes, hbytes, hp⟩ := Option.bind_eq_some_iff.1 hp
  rw [hstore, loadProgress, Store.read, hread]
  dsimp only
  rw [hbytes]
  dsimp only
  cases hdecoded : Progress.ofBytes bytes with
  | ok q =>
      rw [hdecoded] at hp
      exact Option.some.inj hp
  | error _ =>
      rw [hdecoded] at hp
      contradiction

/-- A call leaves what was stored, or what it has made of the game. -/
theorem stored_run (s : Setup) {w : World} (call : Call) {st : Store}
    (hidle : w.game.busy = false) (hstore : w.store = some st) :
    (w.run s call).1.stored s =
      if w.fate s call = .kept then some (w.run s call).1.game.progress else w.stored s := by
  have hleaves := fate_leaves s call hidle hstore
  have hsame (h : (w.run s call).1.store = some st) : (w.run s call).1.stored s = w.stored s := by
    rw [stored, stored, h, hstore]
  cases hfate : w.fate s call <;> rw [hfate] at hleaves
  · exact hsame hleaves.1
  · obtain ⟨text, htext, hkept⟩ := hleaves
    exact stored_of_keeping htext hkept
  · exact hsame hleaves
  · exact hsame hleaves.1

/-- A call leaves blobs under other keys alone. -/
theorem blobs_run (s : Setup) {w : World} (call : Call) {st : Store}
    (hidle : w.game.busy = false) (hstore : w.store = some st) :
    ∃ next, (w.run s call).1.store = some next ∧
      ∀ key, key ≠ s.key → next.blobs.get? key = st.blobs.get? key := by
  have hleaves := fate_leaves s call hidle hstore
  cases hfate : w.fate s call <;> rw [hfate] at hleaves
  · exact ⟨st, hleaves.1, fun _ _ => rfl⟩
  · obtain ⟨text, -, hkept⟩ := hleaves
    exact ⟨_, hkept, fun _ hne => st.get?_blobs_keeping_of_ne text hne⟩
  · exact ⟨st, hleaves, fun _ _ => rfl⟩
  · exact ⟨st, hleaves.1, fun _ _ => rfl⟩

/-! ## runs -/

/-- A game that nothing is under way in, over a store with these blobs under other keys. -/
structure AtRest (s : Setup) (st : Store) (w : World) : Prop where
  idle : w.game.busy = false
  store : ∃ next, w.store = some next ∧
    ∀ key, key ≠ s.key → next.blobs.get? key = st.blobs.get? key

theorem AtRest.meeting {s : Setup} {st : Store} {w : World} (hw : w.AtRest s st) (faults : Faults)
    (time : DateTime) : (w.meeting faults time).AtRest s st := by
  obtain ⟨hidle, next, hnext, hblobs⟩ := hw
  exact ⟨hidle, _, store_meeting hnext faults time, hblobs⟩

theorem AtRest.happen {s : Setup} {st : Store} {w : World} (hw : w.AtRest s st) (h : Happening) :
    (w.happen s h).AtRest s st := by
  cases h with
  | renew source => exact ⟨rfl, hw.store⟩
  | call c faults time =>
      obtain ⟨hidle, next, hnext, hblobs⟩ := hw.meeting faults time
      obtain ⟨last, hlast, hkept⟩ := blobs_run s c hidle hnext
      exact ⟨idle_run s c hidle, last, hlast, fun key hne => (hkept key hne).trans (hblobs key hne)⟩

theorem AtRest.afterAll {s : Setup} {st : Store} {w : World} (hw : w.AtRest s st)
    (hs : List Happening) : (w.afterAll s hs).AtRest s st := by
  induction hs generalizing w with
  | nil => exact hw
  | cons h hs ih => exact ih (hw.happen h)

/-- Once saved progress has been read, a session has read it. -/
theorem loaded_afterAll {s : Setup} {st : Store} {w : World} (hw : w.AtRest s st)
    (hloaded : w.game.loaded = true) {hs : List Happening}
    (hcalls : ∀ h ∈ hs, h.isCall = true) : (w.afterAll s hs).game.loaded = true := by
  induction hs generalizing w with
  | nil => exact hloaded
  | cons h hs ih =>
      refine ih (hw.happen h) ?_ fun k hk => hcalls k (List.mem_cons_of_mem h hk)
      cases h with
      | renew source => exact absurd (hcalls _ List.mem_cons_self) Bool.false_ne_true
      | call c faults time => exact loaded_run s c (hw.meeting faults time).idle

/-! ## calls on a game that has been read -/

section Loaded

variable {s : Setup} {w : World} {call : Call}

theorem needsRead_of_loaded (hloaded : w.game.loaded = true) (hcall : call ≠ .load) :
    call.needsRead w.game = false := by
  cases call with
  | load => contradiction
  | _ => simp [Call.needsRead, hloaded]

theorem found_of_loaded (hloaded : w.game.loaded = true) (hcall : call ≠ .load) :
    w.found s call = w.game.progress := by
  rw [found, needsRead_of_loaded hloaded hcall]
  rfl

/-- A game that has been read is changed in the same way over any store. -/
theorem run_game_withStore (hidle : w.game.busy = false) (hloaded : w.game.loaded = true)
    (hcall : call ≠ .load) (store : Option Store) :
    ((w.withStore store).run s call).1.game = (w.run s call).1.game := by
  have hread (v : World) (hv : v.game = w.game) : v.opened s call = v.enter call := by
    rw [opened, needsRead_enter, hv, needsRead_of_loaded hloaded hcall]
    rfl
  have hopened : (w.withStore store).opened s call = (w.opened s call).withStore store := by
    rw [hread w rfl, hread (w.withStore store) rfl]
    cases call <;> rfl
  obtain ⟨_, hact⟩ := act_over s (w.opened s call) store (w.opened s call).log call
  have hstore : ((w.opened s call).withStore store).act s call = _ := hact
  rw [run_game s call hidle, run_game s call (w := w.withStore store) hidle, hopened, hstore]
  rfl

end Loaded

/-- Loading on an idle game brings what the store holds. -/
theorem progress_run_load {s : Setup} {w : World} (hidle : w.game.busy = false) :
    (w.run s .load).1.game.progress = (loadProgress w.store s.key).1 := by
  rw [run_game s .load hidle, act, opened_game]
  rfl

/-- Store and game after a call on a game that has been read, whatever calls came before it and
whichever of their saves were kept.  If the integers of progress fit 64 bits then

* after a save that was kept the store holds what the game holds, so loading changes nothing;
* after a save that was refused the store is as it was, and the game holds all that the call does;
* a call without a save leaves progress and store as they were;
* the reply, where it tells of the save, tells what has become of it;

and blobs under other keys are those of the beginning. -/
theorem agrees_after_save (s : Setup) {w : World} {st : Store} (hidle : w.game.busy = false)
    (hloaded : w.game.loaded = true) (hstore : w.store = some st) (earlier : List Happening)
    (hcalls : ∀ h ∈ earlier, h.isCall = true) (call : Call) (hcall : call ≠ .load)
    (faults : Faults) (time : DateTime) :
    let before := (w.afterAll s earlier).meeting faults time
    let after := (before.run s call).1
    let result := (before.run s call).2
    after.game.progress.isStorable = true →
      (before.fate s call = .kept ∧
          (∀ order later, order.read = none →
            (loadProgress (after.meeting order later).store s.key).1 = after.game.progress ∧
            ((after.meeting order later).run s .load).1.game.progress = after.game.progress) ∨
        before.fate s call = .refused ∧ after.store = before.store ∧
          (∀ store, ((before.withStore store).run s call).1.game = after.game) ∨
        before.fate s call = .unsaved ∧ after.store = before.store ∧
          after.game.progress = before.game.progress) ∧
      (∀ r b, result = .ok r → r.saved? = some b →
        before.fate s call = if b then .kept else .refused) ∧
      ∃ next, after.store = some next ∧
        ∀ key, key ≠ s.key → next.blobs.get? key = st.blobs.get? key := by
  intro before after result hfits
  have hw : w.AtRest s st := ⟨hidle, st, hstore, fun _ _ => rfl⟩
  have hbefore : before.AtRest s st := (hw.afterAll earlier).meeting faults time
  have hread : before.game.loaded = true := loaded_afterAll hw hloaded hcalls
  obtain ⟨current, hcurrent, -⟩ := hbefore.store
  have hafter : after.AtRest s st := (hw.afterAll earlier).happen (.call call faults time)
  refine ⟨?_, fun r b => fate_of_saved? s call hbefore.idle, hafter.store⟩
  have hleaves := fate_leaves s call hbefore.idle hcurrent
  cases hfate : before.fate s call with
  | unsaved =>
      rw [hfate] at hleaves
      refine .inr (.inr ⟨rfl, hleaves.1.trans hcurrent.symm, ?_⟩)
      rw [← found_of_loaded hread hcall]
      exact hleaves.2
  | kept =>
      refine .inl ⟨rfl, fun order later horder => ?_⟩
      have hstored : after.stored s = some after.game.progress := by
        have := stored_run s call hbefore.idle hcurrent
        rwa [if_pos hfate] at this
      obtain ⟨next, hnext, -⟩ := hafter.store
      have hmeeting : (after.meeting order later).store = some { next with faults := order } := by
        rw [World.meeting, hnext]
        rfl
      have hload : (loadProgress (after.meeting order later).store s.key).1 =
          after.game.progress := by
        refine loadProgress_of_stored hmeeting horder ?_
        rw [stored_meeting, hstored]
      exact ⟨hload, (progress_run_load (hafter.meeting order later).idle).trans hload⟩
  | refused =>
      rw [hfate] at hleaves
      exact .inr (.inl ⟨rfl, hleaves.trans hcurrent.symm,
        fun store => run_game_withStore hbefore.idle hread hcall store⟩)
  | unstorable =>
      rw [hfate] at hleaves
      have hnone : after.game.progress.text? = none := hleaves.2
      rw [Progress.text?, if_pos hfits] at hnone
      contradiction

end World

/-! ## a save that makes up for another -/

/-- A game whose saved progress has been read: there is none. -/
def doublingLoaded : World := (doublingStart.run doublingSetup .load).1

/-- The game after a flip that was not saved, at the time of another flip. -/
def doublingUnsaved : World :=
  (doublingLoaded.afterAll doublingSetup
    [.call (.flip doublingFlip) { write := some "disk full" } firstOfMay]).meeting {} firstOfMay

/-- The save of the second flip holds the first flip too. -/
theorem agrees_after_save_secondFlip :
    (doublingUnsaved.run doublingSetup (.flip doublingFlip)).1.game.progress.totalFlips = 2 ∧
      doublingUnsaved.fate doublingSetup (.flip doublingFlip) = .kept ∧
      (loadProgress ((doublingUnsaved.run doublingSetup (.flip doublingFlip)).1.meeting {}
        firstOfMay).store doublingSetup.key).1 =
          (doublingUnsaved.run doublingSetup (.flip doublingFlip)).1.game.progress := by
  have hkept : doublingUnsaved.fate doublingSetup (.flip doublingFlip) = .kept := by decide +kernel
  obtain ⟨⟨-, hagrees⟩ | ⟨hrefused, -⟩ | ⟨hunsaved, -⟩, -⟩ :=
    World.agrees_after_save doublingSetup (w := doublingLoaded) rfl rfl
      (show doublingLoaded.store = some (.empty .memory) from rfl)
      [.call (.flip doublingFlip) { write := some "disk full" } firstOfMay]
      (by decide) (.flip doublingFlip) (by simp) {} firstOfMay (by decide +kernel)
  · exact ⟨by decide +kernel, hkept, (hagrees {} firstOfMay rfl).1⟩
  · exact absurd (hkept.symm.trans hrefused) (by decide)
  · exact absurd (hkept.symm.trans hunsaved) (by decide)

end CoinToss

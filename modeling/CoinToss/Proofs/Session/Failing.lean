import CoinToss.Proofs.Session.Saving
import CoinToss.Proofs.Session.Tosses

/-!
# CoinToss.Proofs.Session.Failing

A flip that fails leaves the game as it was.

A flip on a game whose progress has been read is refused while another call is under way.
Otherwise all that can fail comes before the first change.  What is recorded then is handed to the
store, whose refusal does not fail the flip; only progress that does not fit its text does.

```
busy    -->  refused                         game and store as before, the flag stays up
idle    -->  not decided                     game and store as before, the flag is down
        -->  recorded  -->  saved or not     one flip more
```

* `run_of_busy` — a call that is refused;
* `flip_setBusy` — a flip does not look at the flag;
* `run_flip_of_loaded` — the call of a flip is the flip and its save;
* `flip_fails_or_counts` — what a call leaves if it fails, and if it does not.
-/

namespace CoinToss

namespace World

variable {s : Setup} {w : World} {o : FlipOrder}

/-! ## calls that are refused -/

/-- While an exclusive call is under way another one is refused, and nothing else happens. -/
theorem run_of_busy (s : Setup) {w : World} {call : Call} (hbusy : w.game.busy = true)
    (hcall : call.isExclusive = true) : w.run s call = (w, .error .busy) := by
  have hrefused : (call.isExclusive && w.game.busy) = true := by
    rw [hbusy, hcall]
    rfl
  rw [run, start, if_pos hrefused]
  rfl

/-! ## flips that are let in -/

/-- A flip neither looks at the flag nor moves it. -/
theorem flip_setBusy (s : Setup) (w : World) (o : FlipOrder) (b : Bool) :
    (w.setBusy b).flip s o = ((w.flip s o).1.setBusy b, (w.flip s o).2) := by
  let v := w.setBusy b
  -- both flips are decided on the same faces, streak and draw
  have hsame : decideFlip
      (s.catalog.faces (v.showFaces s o).1.1 (v.showFaces s o).1.2)
      (v.showFaces s o).2.draw.2.game.last (v.showFaces s o).2.draw.2.game.streak
      (v.showFaces s o).2.draw.1 =
    decideFlip (s.catalog.faces (w.showFaces s o).1.1 (w.showFaces s o).1.2)
      (w.showFaces s o).2.draw.2.game.last (w.showFaces s o).2.draw.2.game.streak
      (w.showFaces s o).2.draw.1 := rfl
  unfold flip
  dsimp only
  rw [hsame]
  cases decideFlip _ _ _ _ with
  | error fault => rfl
  | ok d => rfl

/-- Nor does the save of a flip look at the flag; it leaves it lowered. -/
theorem commit_setBusy (s : Setup) (w : World) (o : FlipOrder) (p : Progress) (outcome : Outcome)
    (b : Bool) :
    (w.setBusy b).commit s (.flip o) p (.flipped outcome) =
      w.commit s (.flip o) p (.flipped outcome) := by
  unfold commit
  rw [show (w.setBusy b).store = w.store from rfl]
  cases saveProgress? w.store s.key p with
  | none => rfl
  | some saving => rfl

/-- On a game whose progress has been read a flip acts as soon as the flag is up. -/
theorem opened_of_loaded (s : Setup) (o : FlipOrder) (hloaded : w.game.loaded = true) :
    w.opened s (.flip o) = w.setBusy true := by
  have hread : ¬(Call.flip o).needsRead (w.enter (.flip o)).game = true := by
    show ¬(!w.game.loaded) = true
    rw [hloaded]
    decide
  rw [opened, if_neg hread]
  rfl

/-- On an idle game whose progress has been read, the call of a flip is the flip and, if that comes
to something, its save. -/
theorem run_flip_of_loaded (s : Setup) (o : FlipOrder) (hidle : w.game.busy = false)
    (hloaded : w.game.loaded = true) :
    w.run s (.flip o) =
      match w.flip s o with
      | (u, .error fault) => (u, .error (.number fault))
      | (u, .ok outcome) => u.commit s (.flip o) u.game.progress (.flipped outcome) := by
  have hflip := flip_setBusy s w o true
  rw [← opened_of_loaded s o hloaded] at hflip
  rcases hresult : w.flip s o with ⟨u, fault | outcome⟩
  · rw [hresult] at hflip
    have hgame : u.game = w.game := by
      have hstopped := flip_stopped (s := s) (w := w) (o := o) (congrArg (·.2) hresult)
      rwa [hresult] at hstopped
    rw [run_of_done hidle (act_flip_of_error hflip)]
    show ((u.setBusy true).setBusy false, _) = _
    have hlowered : (u.setBusy true).setBusy false = u := by
      rw [← hgame] at hidle
      rw [setBusy, setBusy, ← hidle]
    rw [hlowered]
  · rw [hresult] at hflip
    rw [run_of_save hidle (act_flip_of_ok hflip)]
    exact commit_setBusy s u o _ outcome true

/-! ## saves -/

/-- Progress that fits its text is saved or refused by the store, if there is any. -/
theorem isSome_saveProgress? {p : Progress} (hfits : p.isStorable = true) (store : Option Store)
    (key : String) : (saveProgress? store key p).isSome = true := by
  cases store with
  | none => rfl
  | some st => rw [saveProgress?, Option.isSome_map, Progress.text?_isSome, hfits]

/-- A recorded flip whose progress fits its text does not fail. -/
theorem commit_of_isStorable {p : Progress} (hfits : p.isStorable = true) (s : Setup) (w : World)
    (o : FlipOrder) (outcome : Outcome) :
    ∃ saved, (w.commit s (.flip o) p (.flipped outcome)).2 =
      .ok (.flipped { outcome with saved := saved }) := by
  obtain ⟨saving, hsaving⟩ := Option.isSome_iff_exists.1 (isSome_saveProgress? hfits w.store s.key)
  unfold commit
  rw [hsaving]
  exact ⟨saving.saved, rfl⟩

/-! ## flips that fail -/

/-- A flip that is not decided fails and changes neither game nor store. -/
theorem run_flip_of_error (hidle : w.game.busy = false) (hloaded : w.game.loaded = true)
    {fault : Decimal.NumberFault} (h : (w.flip s o).2 = .error fault) :
    (w.run s (.flip o)).2 = .error (.number fault) ∧
      (w.run s (.flip o)).1.game = w.game ∧ (w.run s (.flip o)).1.store = w.store := by
  have hgame := flip_stopped h
  have hstore : (w.flip s o).1.store = w.store := by
    obtain ⟨_, -, -, hstore⟩ | ⟨_, _, _, _, -, -, hstore⟩ := flip_cases s w o
    · exact hstore
    · exact hstore
  rw [run_flip_of_loaded s o hidle hloaded]
  rcases hflip : w.flip s o with ⟨u, undecided | outcome⟩
  · rw [hflip] at h hgame hstore
    obtain rfl := Except.error.inj h
    exact ⟨rfl, hgame, hstore⟩
  · rw [hflip] at h
    contradiction

/-- A flip that is decided is answered if its progress fits, and one flip more is counted. -/
theorem run_flip_of_ok (hidle : w.game.busy = false) (hloaded : w.game.loaded = true)
    {outcome : Outcome} (h : (w.flip s o).2 = .ok outcome)
    (hfits : (w.flip s o).1.game.progress.isStorable = true) :
    (∃ saved, (w.run s (.flip o)).2 = .ok (.flipped { outcome with saved := saved })) ∧
      (w.run s (.flip o)).1.game.progress.totalFlips = w.game.progress.totalFlips + 1 ∧
        (w.run s (.flip o)).1.game.busy = false := by
  have htotal : (w.flip s o).1.game.progress.totalFlips = w.game.progress.totalFlips + 1 := by
    obtain ⟨-, l, multiplier, source, -, hgame⟩ := flip_ok h
    rw [hgame]
    exact (playAll_flipMoves s.catalog _ l _ multiplier _ source).1
  rw [run_flip_of_loaded s o hidle hloaded]
  rcases hflip : w.flip s o with ⟨u, undecided | recorded⟩
  · rw [hflip] at h
    contradiction
  · rw [hflip] at h hfits htotal
    obtain rfl := Except.ok.inj h
    refine ⟨commit_of_isStorable hfits s u o recorded, ?_⟩
    dsimp only
    rw [(commit_flip s u o u.game.progress recorded).1]
    exact ⟨htotal, rfl⟩

/-- What the call of a flip leaves behind, on any game whose progress has been read, if progress
would fit its text after the flip.  If the call fails, game and store are as they were: it was
refused, and the flag stays up for the call under way, or the flip could not be decided, and the
flag is down.  If it answers, one flip more is counted.  It does answer on an idle game if the flip
is decided. -/
theorem flip_fails_or_counts (s : Setup) (w : World) (o : FlipOrder)
    (hloaded : w.game.loaded = true)
    (hfits : ∀ outcome, (w.flip s o).2 = .ok outcome →
      (w.flip s o).1.game.progress.isStorable = true) :
    let result := (w.run s (.flip o)).2
    let after := (w.run s (.flip o)).1
    (∀ fault, result = .error fault →
      after.game = w.game ∧ after.store = w.store ∧
        ((fault = .busy ∧ after.game.busy = true) ∨
          (after.game.busy = false ∧
            ∃ undecided, fault = .number undecided ∧ (w.flip s o).2 = .error undecided))) ∧
      (∀ reply, result = .ok reply →
        after.game.progress.totalFlips = w.game.progress.totalFlips + 1 ∧
          after.game.busy = false) ∧
        (result.isOk = true ↔ w.game.busy = false ∧ (w.flip s o).2.isOk = true) := by
  intro result after
  cases hbusy : w.game.busy with
  | true =>
      have hrun : w.run s (.flip o) = (w, .error .busy) := run_of_busy s hbusy rfl
      have hresult : result = .error .busy := congrArg (·.2) hrun
      have hafter : after = w := congrArg (·.1) hrun
      rw [hresult, hafter]
      refine ⟨fun fault hfault => ⟨rfl, rfl, .inl ⟨(Except.error.inj hfault).symm, hbusy⟩⟩,
        fun _ h => by contradiction, ?_⟩
      exact iff_of_false Bool.false_ne_true fun h => Bool.false_ne_true h.1.symm
  | false =>
      cases hflip : (w.flip s o).2 with
      | error undecided =>
          obtain ⟨hresult, hgame, hstore⟩ := run_flip_of_error hbusy hloaded hflip
          rw [show result = _ from hresult, show after.game = _ from hgame]
          refine ⟨fun fault hfault => ⟨rfl, hstore, .inr ⟨hbusy, undecided, ?_, rfl⟩⟩,
            fun _ h => by contradiction, ?_⟩
          · exact (Except.error.inj hfault).symm
          · exact iff_of_false Bool.false_ne_true fun h => Bool.false_ne_true h.2
      | ok outcome =>
          obtain ⟨⟨saved, hresult⟩, htotal, hidle⟩ :=
            run_flip_of_ok hbusy hloaded hflip (hfits outcome hflip)
          rw [show result = _ from hresult]
          exact ⟨fun _ h => by contradiction, fun _ _ => ⟨htotal, hidle⟩,
            iff_of_true rfl ⟨rfl, rfl⟩⟩

/-- A coin that flips by itself every second. -/
def clicker : Coin where
  path := "click"
  name := ""
  category := ""
  rarity := none
  unlock := none
  effect := some ⟨"", .autoClick 1000⟩

/-- A combo beyond all measure. -/
def boundless : Coin where
  path := "boundless"
  name := ""
  category := ""
  rarity := none
  unlock := none
  effect := some ⟨"", .combo ⟨.additive, 1e308⟩⟩

/-- A session with the two coins. -/
def boundlessSetup : Setup := ⟨⟨[clicker, boundless], by decide⟩, "progress", [], 1⟩

/-- A game whose progress has been read: there is none. -/
def readStart : World := { doublingStart with game := { Game.fresh with loaded := true } }

/-- A flip of both coins. -/
def boundlessFlip : FlipOrder := { heads := "click", tails := "boundless" }

/-- A flip of the first coin alone. -/
def clickFlip : FlipOrder := { heads := "click", tails := "click" }

/-- The flip of both coins cannot be decided; that of the first one alone counts. -/
theorem flip_fails_or_counts_boundless :
    ((readStart.run boundlessSetup (.flip boundlessFlip)).2.isOk = false ∧
        (readStart.run boundlessSetup (.flip boundlessFlip)).1.game = readStart.game) ∧
      (readStart.run boundlessSetup (.flip clickFlip)).2.isOk = true ∧
        (readStart.run boundlessSetup (.flip clickFlip)).1.game.progress.totalFlips = 1 := by
  obtain ⟨hfails, -, hboth⟩ :=
    flip_fails_or_counts boundlessSetup readStart boundlessFlip rfl fun _ _ => by decide +kernel
  obtain ⟨-, hcounts, halone⟩ :=
    flip_fails_or_counts boundlessSetup readStart clickFlip rfl fun _ _ => by decide +kernel
  refine ⟨?_, ?_⟩
  · have hundecided : (readStart.flip boundlessSetup boundlessFlip).2.isOk = false := by
      decide +kernel
    rw [hundecided] at hboth
    cases hresult : (readStart.run boundlessSetup (.flip boundlessFlip)).2 with
    | ok reply =>
        rw [hresult] at hboth
        exact absurd (hboth.1 rfl).2 Bool.false_ne_true
    | error fault => exact ⟨rfl, (hfails fault hresult).1⟩
  · have hdecided := halone.2 ⟨rfl, by decide +kernel⟩
    cases hresult : (readStart.run boundlessSetup (.flip clickFlip)).2 with
    | error fault =>
        rw [hresult] at hdecided
        exact absurd hdecided Bool.false_ne_true
    | ok reply => exact ⟨rfl, (hcounts reply hresult).1⟩

end World

end CoinToss

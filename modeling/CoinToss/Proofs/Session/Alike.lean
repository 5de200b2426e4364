import CoinToss.Proofs.Session.Agreement

/-!
# CoinToss.Proofs.Session.Alike

Worlds that cannot be told apart by calls.

No call reads the log, and each sets the time and meets the store in its own order.  So calls do the
same in two worlds that agree in all but these.

* `World.Alike` — the same game, draws and blobs;
* `World.Matches` — the same result in worlds that are alike;
* `Alike.meeting` — at one time, and with one order of the store, such worlds differ in the log only;
* `proceed_withLog`, `commit_withLog`, `readIn_withLog` — the steps of a call and the log;
* `proceed_cases` — where a call stands when it has acted;
* `proceed_loaded`, `meeting_proceed` — what it leaves as it was.
-/

namespace CoinToss

/-- A store with nothing out of order. -/
def Store.mended (st : Store) : Store := { st with faults := {} }

/-- What is under way once a result is there: nothing. -/
@[simp] def Phase.isEnded : Phase → Bool
  | .ended _ => true
  | _ => false

/-- Whether a call waits for its turn to read. -/
@[simp] def Phase.isQueued : Phase → Bool
  | .queued => true
  | _ => false

/-- Whether a call waits for the store to read. -/
@[simp] def Phase.isReading : Phase → Bool
  | .reading => true
  | _ => false

/-- Whether a call waits for the store to write. -/
@[simp] def Phase.isSaving : Phase → Bool
  | .saving _ _ => true
  | _ => false

namespace World

/-! ## worlds that are alike -/

/-- Worlds with the same game, draws and blobs.  Log and time may differ, and the order the store is
in. -/
structure Alike (v w : World) : Prop where
  game : v.game = w.game
  source : v.source = w.source
  store : v.store.map Store.mended = w.store.map Store.mended

namespace Alike

variable {u v w : World}

theorem refl (w : World) : w.Alike w := ⟨rfl, rfl, rfl⟩

theorem symm (h : v.Alike w) : w.Alike v := ⟨h.game.symm, h.source.symm, h.store.symm⟩

theorem trans (h : u.Alike v) (k : v.Alike w) : u.Alike w :=
  ⟨h.game.trans k.game, h.source.trans k.source, h.store.trans k.store⟩

theorem setBusy (h : v.Alike w) (b : Bool) : (v.setBusy b).Alike (w.setBusy b) := by
  refine ⟨?_, h.source, h.store⟩
  show { v.game with busy := b } = { w.game with busy := b }
  rw [h.game]

theorem enter (h : v.Alike w) (call : Call) : (v.enter call).Alike (w.enter call) := by
  unfold World.enter
  split
  · exact h.setBusy true
  · exact h

end Alike

/-- The same result, in worlds that are alike. -/
def Matches {α : Type} (x y : World × α) : Prop := x.1.Alike y.1 ∧ x.2 = y.2

namespace Matches

variable {α : Type} {x y z : World × α}

theorem refl (x : World × α) : Matches x x := ⟨.refl x.1, rfl⟩

theorem symm (h : Matches x y) : Matches y x := ⟨h.1.symm, h.2.symm⟩

theorem trans (h : Matches x y) (k : Matches y z) : Matches x z :=
  ⟨h.1.trans k.1, h.2.trans k.2⟩

end Matches

theorem alike_withLog (w : World) (log : Array Log.Record) : (w.withLog log).Alike w :=
  ⟨rfl, rfl, rfl⟩

theorem matches_withLog {α : Type} (x : World × α) (log : Array Log.Record) :
    Matches (x.1.withLog log, x.2) x := ⟨alike_withLog x.1 log, rfl⟩

theorem alike_meeting (w : World) (faults : Faults) (time : DateTime) :
    (w.meeting faults time).Alike w := by
  refine ⟨rfl, rfl, ?_⟩
  unfold meeting
  cases w.store <;> rfl

/-- Worlds that are alike differ at one time, and with one order of the store, in the log only. -/
theorem Alike.meeting {v w : World} (h : v.Alike w) (faults : Faults) (time : DateTime) :
    v.meeting faults time = (w.meeting faults time).withLog v.log := by
  have hmended (store : Option Store) : store.map (fun st => { st with faults := faults }) =
      (store.map Store.mended).map fun st => { st with faults := faults } := by
    cases store <;> rfl
  have hstore : v.store.map (fun st => { st with faults := faults }) =
      w.store.map fun st => { st with faults := faults } := by
    rw [hmended v.store, hmended w.store, h.store]
  unfold World.meeting withLog
  rw [hstore, h.game, h.source]

@[simp] theorem meeting_meeting (w : World) (faults : Faults) (time : DateTime) :
    (w.meeting faults time).meeting faults time = w.meeting faults time := by
  unfold meeting
  cases w.store <;> rfl

/-- A world is at a time, with its store in some order, if its clock and its store say so. -/
theorem meeting_of_same {v w : World} {faults : Faults} {time : DateTime}
    (hw : w.meeting faults time = w) (hstore : v.store = w.store) (hclock : v.clock = w.clock) :
    v.meeting faults time = v := by
  have hstores : w.store.map (fun st => { st with faults := faults }) = w.store :=
    congrArg World.store hw
  have htime : time = w.clock := congrArg World.clock hw
  unfold meeting
  rw [hstore, hstores, htime, ← hclock, ← hstore]

/-! ## the steps of a call and the log -/

theorem act_withLog (s : Setup) (w : World) (log : Array Log.Record) (call : Call) :
    ∃ later, (w.withLog log).act s call = ((w.act s call).1.withLog later, (w.act s call).2) := by
  obtain ⟨later, hlater⟩ := act_over s w w.store log call
  have hstore : (w.act s call).1.withStore w.store = (w.act s call).1 := by
    rw [withStore, ← act_store s w call]
  rw [hstore] at hlater
  exact ⟨later, hlater⟩

theorem leave_withLog (w : World) (log : Array Log.Record) (call : Call) :
    (w.withLog log).leave call = (w.leave call).withLog log := by
  unfold leave
  split <;> rfl

theorem readIn_withLog (s : Setup) (w : World) (log : Array Log.Record) :
    ∃ later, (w.withLog log).readIn s = (w.readIn s).withLog later := ⟨_, rfl⟩

theorem proceed_withLog (s : Setup) (w : World) (log : Array Log.Record) (call : Call) :
    ∃ later, (w.withLog log).proceed s call =
      ((w.proceed s call).1.withLog later, (w.proceed s call).2) := by
  obtain ⟨later, hlater⟩ := act_withLog s w log call
  rw [proceed, proceed, hlater]
  rcases w.act s call with ⟨u, result | reply⟩
  · exact ⟨later, by rw [← leave_withLog]⟩
  · exact ⟨later, rfl⟩

theorem commit_withLog (s : Setup) (w : World) (log : Array Log.Record) (call : Call)
    (snapshot : Progress) (reply : Reply) :
    ∃ later, (w.withLog log).commit s call snapshot reply =
      ((w.commit s call snapshot reply).1.withLog later,
        (w.commit s call snapshot reply).2) := by
  have hstore : (w.withLog log).store = w.store := rfl
  unfold commit
  rw [hstore]
  cases saveProgress? w.store s.key snapshot with
  | none => exact ⟨log, by rw [leave_withLog]⟩
  | some saving =>
      dsimp only
      cases reply.withSaved saving.saved <;> unfold leave <;> split <;> exact ⟨_, rfl⟩

/-! ## what acting leaves as it was -/

theorem act_clock (s : Setup) (w : World) (call : Call) : (w.act s call).1.clock = w.clock := by
  cases call with
  | flip o =>
      have hflip : (w.flip s o).1.clock = w.clock := by
        unfold flip
        dsimp only
        cases decideFlip _ _ _ _ <;> rfl
      rw [act, ← hflip]
      rcases w.flip s o with ⟨u, _ | _⟩ <;> rfl
  | _ => rfl

theorem leave_loaded (w : World) (call : Call) :
    (w.leave call).game.loaded = w.game.loaded := by
  unfold leave
  split <;> rfl

theorem leave_busy (w : World) (call : Call) :
    (w.leave call).game.busy = (w.game.busy && !call.isExclusive) := by
  unfold leave
  cases call.isExclusive with
  | false => exact (Bool.and_true _).symm
  | true => exact (Bool.and_false _).symm

/-- A call that has acted waits for the store to write, or it has let go. -/
theorem proceed_cases (s : Setup) (w : World) (call : Call) :
    (∃ result, (w.proceed s call).2 = .ended result ∧
        (w.proceed s call).1 = (w.act s call).1.leave call) ∨
      ∃ reply, (w.proceed s call).2 = .saving (w.act s call).1.game.progress reply ∧
        (w.proceed s call).1 = (w.act s call).1 ∧ call.isExclusive = true := by
  have hsave : ∀ reply, (w.act s call).2 = .save reply → call.isExclusive = true := by
    cases call with
    | ensureLoaded => exact fun _ h => nomatch h
    | _ => exact fun _ _ => rfl
  rcases hact : w.act s call with ⟨u, result | reply⟩
  · rw [proceed, hact]
    exact .inl ⟨result, rfl, rfl⟩
  · rw [proceed, hact]
    exact .inr ⟨reply, rfl, rfl, hsave reply (congrArg Prod.snd hact)⟩

theorem finish_proceed_game (s : Setup) (w : World) (call : Call) :
    (finish s call (w.proceed s call)).1.game = ((w.act s call).1.leave call).game := by
  rw [proceed]
  rcases w.act s call with ⟨u, result | reply⟩
  · rfl
  · exact commit_game s u call u.game.progress reply

theorem proceed_loaded (s : Setup) (w : World) (call : Call) :
    (w.proceed s call).1.game.loaded = w.game.loaded := by
  rw [← (act_marks s w call).1]
  obtain ⟨_, -, h⟩ | ⟨_, -, h, -⟩ := proceed_cases s w call
  · rw [h, leave_loaded]
  · rw [h]

/-- The time and the order of the store are as they were when a call has acted. -/
theorem meeting_proceed (s : Setup) {w : World} (call : Call) {faults : Faults} {time : DateTime}
    (h : w.meeting faults time = w) :
    (w.proceed s call).1.meeting faults time = (w.proceed s call).1 := by
  have hact := meeting_of_same h (act_store s w call) (act_clock s w call)
  obtain ⟨_, -, hw⟩ | ⟨_, -, hw, -⟩ := proceed_cases s w call
  · rw [hw]
    refine meeting_of_same hact ?_ ?_ <;> unfold leave <;> split <;> rfl
  · rw [hw]
    exact hact

end World

end CoinToss

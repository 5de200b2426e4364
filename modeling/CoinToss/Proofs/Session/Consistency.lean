import CoinToss.Proofs.Progress.Coherence
import CoinToss.Proofs.Session.Faces
import CoinToss.Proofs.Session.Turns

/-!
# CoinToss.Proofs.Session.Consistency

Progress that a session reaches is consistent.

Whatever becomes of saves and loads, the parts of progress belong together.  To tell how many
landings there have been the session has to be followed too.  As long as no save was refused, store
and game agree, so a load that can read the store brings back what the game holds already:

```
                 progress              store
flip, track      one landing more      the same progress
reset            none                  none
load             as stored             as it was
```

* `World.Holds.inTurn` — what calls in turn keep of progress;
* `Exchange`, `World.exchanges` — calls in turn, with what has become of each;
* `landingsSinceReset` — how often the calls since the last reset have landed on a coin;
* `Begun.found`, `Begun.agrees_run`, `Begun.total_run` — one call: what it finds, what it saves and
  how it lands;
* `consistent_inTurn` — the whole of it.
-/

namespace CoinToss

/-! ## coherence -/

/-- Calls in turn keep what empty progress has and every move keeps. -/
theorem World.Holds.inTurn {P : Progress → Prop} {s : Setup} {w : World} (hw : w.Holds s P)
    (hempty : P .empty) (hplay : ∀ p m, P p → P (p.play s.catalog m).1) (ms : List Making) :
    (w.inTurn s ms).1.Holds s P := by
  induction ms generalizing w with
  | nil => exact hw
  | cons m ms ih =>
      refine ih (w := (m.run s w).1) ?_
      unfold Making.run
      by_cases haccepted : m.accepted = true
      · rw [if_pos haccepted]
        exact (hw.meeting m.faults m.time).run hempty fun _ hv =>
          World.progress_act_keeps hempty hplay hv m.call
      · rw [if_neg haccepted]
        exact hw

/-! ## calls and what has become of them -/

/-- The path that a call has landed on, if it has come to a landing. -/
def Call.landed? : Call → Result → Option String
  | .flip _, .ok (.flipped o) => some o.landed
  | .track l _, .ok _ => some l.coin
  | _, _ => none

/-- Whether a call is a reset that was let in. -/
def Making.isReset (m : Making) : Bool :=
  match m.call with
  | .reset => m.accepted
  | _ => false

/-- Whether a call is a load that was let in. -/
def Making.isLoad (m : Making) : Bool :=
  match m.call with
  | .load => m.accepted
  | _ => false

theorem Making.isReset_iff {m : Making} :
    m.isReset = true ↔ m.accepted = true ∧ m.call = .reset := by
  cases hcall : m.call <;> simp [isReset, hcall]

theorem Making.isLoad_iff {m : Making} :
    m.isLoad = true ↔ m.accepted = true ∧ m.call = .load := by
  cases hcall : m.call <;> simp [isLoad, hcall]

/-- A call in its turn, with what has become of it. -/
structure Exchange where
  made : Making
  result : Result
  /-- What became of progress, if the call was let in. -/
  fate : World.Fate
  /-- The progress that it left. -/
  left : Progress

/-- Whether a call has landed on a coin. -/
def Exchange.lands (e : Exchange) : Bool := landsOnCoin (e.made.call.landed? e.result)

/-- A call in its turn. -/
def Making.exchange (s : Setup) (w : World) (m : Making) : Exchange where
  made := m
  result := (m.run s w).2
  fate := if m.accepted then (w.metBy m).fate s m.call else .unsaved
  left := (m.run s w).1.game.progress

@[simp] theorem Making.made_exchange (s : Setup) (w : World) (m : Making) :
    (m.exchange s w).made = m := rfl

/-- Calls one after the other. -/
def World.exchanges (s : Setup) : World → List Making → List Exchange
  | _, [] => []
  | w, m :: ms => m.exchange s w :: exchanges s (m.run s w).1 ms

/-- How many calls have landed on a coin since the last reset. -/
def landingsSinceReset (es : List Exchange) : Nat :=
  (es.reverse.takeWhile fun e => !e.made.isReset).countP Exchange.lands

theorem landingsSinceReset_snoc (es : List Exchange) (e : Exchange) :
    landingsSinceReset (es ++ [e]) =
      if e.made.isReset then 0
      else landingsSinceReset es + if e.lands then 1 else 0 := by
  cases h : e.made.isReset <;> simp [landingsSinceReset, h, List.countP_cons]

namespace World

theorem exchanges_snoc (s : Setup) (w : World) (ms : List Making) (m : Making) :
    w.exchanges s (ms ++ [m]) = w.exchanges s ms ++ [m.exchange s (w.inTurn s ms).1] := by
  induction ms generalizing w with
  | nil => rfl
  | cons n ms ih => simp [exchanges, ih, inTurn, through]

theorem inTurn_snoc (s : Setup) (w : World) (ms : List Making) (m : Making) :
    (w.inTurn s (ms ++ [m])).1 = (m.run s (w.inTurn s ms).1).1 := by
  simp [inTurn, through_append, through]

end World

/-! ## one call -/

/-- What a call that has acted answers, unless its save fails. -/
def Acted.result : Acted → Result
  | .done result => result
  | .save reply => .ok reply

/-- Word of the save does not change where a call has landed. -/
theorem landed?_withSaved (call : Call) (r : Reply) (saved : Bool) :
    call.landed? (.ok (r.withSaved saved)) = call.landed? (.ok r) := by
  cases call <;> cases r <;> rfl

namespace World

variable {s : Setup} {w : World} {call : Call}

/-- Acting is one more landing if it answers with one, a reset apart. -/
theorem total_act (s : Setup) (w : World) (hcall : call ≠ .reset) :
    (w.act s call).1.game.progress.landings.total = w.game.progress.landings.total +
      if landsOnCoin (call.landed? (w.act s call).2.result) = true then 1 else 0 := by
  have hplay := w.game.progress.total_play s.catalog
  cases call with
  | flip o =>
      rcases hflip : w.flip s o with ⟨u, fault | outcome⟩
      · have hgame : u.game = w.game := by
          have hstopped := flip_stopped (congrArg (·.2) hflip)
          rwa [hflip] at hstopped
        simp [act, hflip, hgame, Acted.result, Call.landed?, landsOnCoin]
      · obtain ⟨-, -, -, l, multiplier, source, hcoin, hprogress⟩ :=
          flip_shows (congrArg (·.2) hflip)
        have hlandings : u.game.progress.landings =
            (w.game.progress.play s.catalog (.land l outcome.streak w.clock)).1.landings := by
          rw [hflip, rollAll_eq] at hprogress
          exact congrArg (·.landings) hprogress
        have hland := hplay (.land l outcome.streak w.clock)
        rw [Move.landed?, hcoin] at hland
        simp [act, hflip, hlandings, hland, Acted.result, Call.landed?]
  | track l streak => exact hplay (.land l streak w.clock)
  | roll l multiplier => exact hplay (.roll l multiplier w.clock w.source)
  | unlock path => exact hplay (.unlock path w.clock)
  | reset => contradiction
  | load => simp [act, Call.landed?, landsOnCoin]
  | ensureLoaded => simp [act, Call.landed?, landsOnCoin]

/-- What a readable store holds is loaded, and empty progress if it holds none. -/
theorem loadProgress_of_readable {st : Store} (hstore : w.store = some st)
    (hread : st.faults.read = none) :
    (loadProgress w.store s.key).1 = (w.stored s).getD .empty := by
  cases hp : w.stored s with
  | some p => exact loadProgress_of_stored hstore hread hp
  | none =>
      obtain hempty | hloaded := loadProgress_cases s w
      · exact hempty
      · simp [hp] at hloaded

/-- Store and game agree: the store holds the game's progress, or neither holds any. -/
def Agrees (s : Setup) (w : World) : Prop := (w.stored s).getD .empty = w.game.progress

theorem Agrees.meeting (h : w.Agrees s) (faults : Faults) (time : DateTime) :
    (w.meeting faults time).Agrees s := by
  rw [Agrees, stored_meeting]
  exact h

/-- A session at rest over a store; as long as it has not read, there is nothing to read. -/
structure Begun (s : Setup) (w : World) : Prop where
  idle : w.game.busy = false
  store : ∃ st, w.store = some st
  unread : w.game.loaded = false → w.stored s = none ∧ w.game.progress = .empty

namespace Begun

theorem meeting (hw : w.Begun s) (faults : Faults) (time : DateTime) :
    (w.meeting faults time).Begun s := by
  obtain ⟨st, hst⟩ := hw.store
  refine ⟨hw.idle, ⟨_, store_meeting hst faults time⟩, fun hunread => ?_⟩
  rw [stored_meeting]
  exact hw.unread hunread

theorem run (hw : w.Begun s) (call : Call) : (w.run s call).1.Begun s := by
  obtain ⟨st, hst⟩ := hw.store
  obtain ⟨next, hnext, -⟩ := blobs_run s call hw.idle hst
  have hloaded := loaded_run s call hw.idle
  exact ⟨idle_run s call hw.idle, ⟨next, hnext⟩, fun hunread => by simp [hloaded] at hunread⟩

/-- A call finds the progress of the game, if a load brings that back. -/
theorem found (hw : w.Begun s)
    (hload : call = .load → (loadProgress w.store s.key).1 = w.game.progress) :
    w.found s call = w.game.progress := by
  unfold World.found
  by_cases hread : call.needsRead w.game = true
  · rw [if_pos hread]
    by_cases hcall : call = .load
    · exact hload hcall
    · have hunread : w.game.loaded = false := by
        rw [Bool.eq_false_iff]
        intro hloaded
        rw [needsRead_of_loaded hloaded hcall] at hread
        contradiction
      obtain ⟨hnone, hempty⟩ := hw.unread hunread
      obtain hnothing | hloaded := loadProgress_cases s w
      · rw [hnothing, hempty]
      · simp [hnone] at hloaded
  · rw [if_neg hread]

/-- A call that leaves progress that fits answers as it has acted, but for word of the save. -/
theorem landed?_run (hw : w.Begun s)
    (hfits : (w.run s call).1.game.progress.isStorable = true) :
    call.landed? (w.run s call).2 =
      call.landed? ((w.opened s call).act s call).2.result := by
  obtain ⟨st, hst⟩ := hw.store
  have hstore : ((w.opened s call).act s call).1.store = some st := by
    rw [act_store, opened_store, hst]
  rw [run_game s call hw.idle] at hfits
  rcases hact : (w.opened s call).act s call with ⟨u, result | reply⟩
  · rw [run_of_done hw.idle hact]
    rfl
  · rw [hact] at hfits hstore
    obtain ⟨text, htext⟩ := Option.isSome_iff_exists.1 (Progress.text?_isSome.trans hfits)
    rw [run_of_save hw.idle hact, commit, hstore]
    obtain hsaved | ⟨records, hsaved⟩ := saveProgress?_of_text? st s.key htext
    · rw [hsaved]
      exact landed?_withSaved call reply true
    · rw [hsaved]
      exact landed?_withSaved call reply false

/-- A call is one more landing if it answers with one, a reset apart. -/
theorem total_run (hw : w.Begun s) (hcall : call ≠ .reset)
    (hfits : (w.run s call).1.game.progress.isStorable = true) :
    (w.run s call).1.game.progress.landings.total = (w.found s call).landings.total +
      if landsOnCoin (call.landed? (w.run s call).2) = true then 1 else 0 := by
  have hact := total_act s (w.opened s call) hcall
  rw [hw.landed?_run hfits, run_game s call hw.idle]
  rw [opened_game] at hact
  exact hact

/-- Unless a save is refused, a call leaves store and game in agreement. -/
theorem agrees_run (hw : w.Begun s) (hagrees : w.Agrees s)
    (hfound : w.found s call = w.game.progress)
    (hfits : (w.run s call).1.game.progress.isStorable = true)
    (hfate : w.fate s call ≠ .refused) : (w.run s call).1.Agrees s := by
  obtain ⟨st, hst⟩ := hw.store
  have hleaves := fate_leaves s call hw.idle hst
  rw [Agrees, stored_run s call hw.idle hst]
  cases hf : w.fate s call with
  | unsaved =>
      rw [hf] at hleaves
      rw [hleaves.2, hfound]
      exact hagrees
  | kept => rfl
  | refused => contradiction
  | unstorable =>
      rw [hf] at hleaves
      have hnone := hleaves.2
      rw [Progress.text?, if_pos hfits] at hnone
      contradiction

end Begun

/-! ## calls in turn -/

/-- A session after some calls: its landings are those since the last reset, and store and game
agree unless a save was refused. -/
structure Accounted (s : Setup) (es : List Exchange) (w : World) : Prop where
  begun : w.Begun s
  total : w.game.progress.landings.total = landingsSinceReset es
  agrees : (∀ e ∈ es, e.fate ≠ .refused) → w.Agrees s

namespace Accounted

variable {es : List Exchange} {m : Making}

/-- A new game over a store with nothing under its key has no landings, and agrees with it. -/
theorem of_fresh {st : Store} (hfresh : w.game = .fresh) (hstore : w.store = some st)
    (hempty : st.blobs.get? s.key = none) : w.Accounted s [] := by
  have hnone : w.stored s = none := by simp [World.stored, hstore, hempty]
  have hprogress : w.game.progress = .empty := by simp [hfresh, Game.fresh]
  refine ⟨⟨by simp [hfresh, Game.fresh], ⟨st, hstore⟩, fun _ => ⟨hnone, hprogress⟩⟩, ?_, fun _ => ?_⟩
  · simp [hprogress, Progress.empty, Tally.total, Tally.empty, landingsSinceReset]
  · simp [World.Agrees, hnone, hprogress]

/-- A call that is not let in changes nothing. -/
theorem refuse (hw : w.Accounted s es) (hm : m.accepted = false) :
    (m.run s w).1.Accounted s (es ++ [m.exchange s w]) := by
  have hrun : m.run s w = (w, .error .busy) := by simp [Making.run, hm]
  have hreset : m.isReset = false := by simp [← Bool.not_eq_true, Making.isReset_iff, hm]
  have hlands : (m.exchange s w).lands = false := by
    cases hcall : m.call <;>
      simp [Exchange.lands, Making.exchange, hrun, hcall, Call.landed?, landsOnCoin]
  rw [hrun]
  refine ⟨hw.begun, ?_, fun hkept => hw.agrees fun e he => hkept e (by simp [he])⟩
  rw [landingsSinceReset_snoc, hlands, hw.total]
  simp [hreset]

theorem agrees_metBy (hw : w.Accounted s es) (m : Making)
    (hkept : ∀ e ∈ es, e.fate ≠ .refused) : (w.metBy m).Agrees s :=
  (hw.agrees hkept).meeting m.faults m.time

/-- A call finds the progress of the game: a load finds the store readable and in agreement. -/
theorem found (hw : w.Accounted s es) (hm : m.accepted = true)
    (hread : m.isLoad = true → m.faults.read = none)
    (hload : m.isLoad = true → ∀ e ∈ es, e.fate ≠ .refused) :
    (w.metBy m).found s m.call = w.game.progress := by
  refine (hw.begun.meeting m.faults m.time).found fun hcall => ?_
  have hisLoad : m.isLoad = true := Making.isLoad_iff.2 ⟨hm, hcall⟩
  obtain ⟨st, hst⟩ := hw.begun.store
  have hreadable : (loadProgress (w.metBy m).store s.key).1 =
      ((w.metBy m).stored s).getD .empty :=
    loadProgress_of_readable (store_meeting hst m.faults m.time) (hread hisLoad)
  rw [metBy] at hreadable
  rw [hreadable]
  exact hw.agrees_metBy m (hload hisLoad)

/-- A call that is let in leaves as many landings as the calls since the last reset have made. -/
theorem total_accept (hw : w.Accounted s es) (hm : m.accepted = true)
    (hfound : (w.metBy m).found s m.call = w.game.progress)
    (hfits : ((w.metBy m).run s m.call).1.game.progress.isStorable = true) :
    ((w.metBy m).run s m.call).1.game.progress.landings.total =
      landingsSinceReset (es ++ [m.exchange s w]) := by
  have hmet : (w.metBy m).Begun s := hw.begun.meeting m.faults m.time
  rw [landingsSinceReset_snoc, Making.made_exchange]
  by_cases hcall : m.call = .reset
  · rw [if_pos (Making.isReset_iff.2 ⟨hm, hcall⟩), run_game s m.call hmet.idle, hcall]
    rfl
  · have hreset : ¬m.isReset = true := fun h => hcall (Making.isReset_iff.1 h).2
    have hlands : (m.exchange s w).lands =
        landsOnCoin (m.call.landed? ((w.metBy m).run s m.call).2) := by
      simp [Exchange.lands, Making.exchange, Making.run, hm]
    rw [if_neg hreset, hmet.total_run hcall hfits, hfound, hw.total, ← hlands]
    cases (m.exchange s w).lands <;> simp

theorem accept (hw : w.Accounted s es) (hm : m.accepted = true)
    (hfits : (m.exchange s w).left.isStorable = true)
    (hread : m.isLoad = true → m.faults.read = none)
    (hload : m.isLoad = true → ∀ e ∈ es, e.fate ≠ .refused) :
    (m.run s w).1.Accounted s (es ++ [m.exchange s w]) := by
  have hrun : m.run s w = (w.metBy m).run s m.call := by simp [Making.run, hm]
  have hmet : (w.metBy m).Begun s := hw.begun.meeting m.faults m.time
  have hfound := hw.found hm hread hload
  have hleft : ((w.metBy m).run s m.call).1.game.progress.isStorable = true := by
    rw [← hrun]
    exact hfits
  rw [hrun]
  refine ⟨hmet.run m.call, hw.total_accept hm hfound hleft, fun hkept => ?_⟩
  have hlast := hkept (m.exchange s w) (by simp)
  have hagrees := hw.agrees_metBy m fun e he => hkept e (by simp [he])
  exact hmet.agrees_run hagrees hfound hleft (by simpa [Making.exchange, hm] using hlast)

/-- So do all calls, if loads find the store readable and are not made once a save was refused. -/
theorem inTurn (hw : w.Accounted s []) {ms : List Making}
    (hread : ∀ m ∈ ms, m.isLoad = true → m.faults.read = none)
    (hfits : ∀ e ∈ w.exchanges s ms, e.left.isStorable = true)
    (hload : (w.exchanges s ms).Pairwise fun e later =>
      e.fate = .refused → later.made.isLoad = false) :
    (w.inTurn s ms).1.Accounted s (w.exchanges s ms) := by
  induction ms using List.reverseRecOn with
  | nil => exact hw
  | append_singleton ms m ih =>
      rw [exchanges_snoc] at hfits hload ⊢
      rw [List.pairwise_append] at hload
      obtain ⟨hearlier, -, hlast⟩ := hload
      have hbefore := ih (fun n hn => hread n (List.mem_append_left [m] hn))
        (fun e he => hfits e (List.mem_append_left _ he)) hearlier
      rw [inTurn_snoc]
      cases hm : m.accepted with
      | false => exact hbefore.refuse hm
      | true =>
          refine hbefore.accept hm (hfits _ (by simp)) (hread m (by simp)) fun hisLoad e he => ?_
          intro hrefused
          have hnone := hlast e he (m.exchange s (w.inTurn s ms).1) (by simp) hrefused
          simp [hisLoad] at hnone

end Accounted

end World

/-- Progress that a session reaches from an empty store is consistent, whatever calls it has
answered, at whatever times and over the store in whatever order:

* heads and tails are all flips, and the longest streak is the longer one of both sides;
* whatever has been landed on, has been so at least once;
* whoever has been unlocked by chance or by hand, or told of, is stamped;
* a run is never longer than its coin asks for, and just as long only if the coin is stamped.

If the integers of progress fit 64 bits, loads find the store readable, and none is made once a save
was refused, then there have been as many landings, all in all, as the calls since the last reset
have made on coins. -/
theorem consistent_inTurn (s : Setup) {w : World} {st : Store} (hfresh : w.game = .fresh)
    (hstore : w.store = some st) (hempty : st.blobs.get? s.key = none) (ms : List Making) :
    let p := (w.inTurn s ms).1.game.progress
    let es := w.exchanges s ms
    p.headsFlips + p.tailsFlips = p.totalFlips ∧
      (p.longestStreak = max p.longestHeads p.longestTails ∧ 0 ≤ p.longestStreak) ∧
      (∀ path n, p.landings.get? path = some n → 1 ≤ n) ∧
      (∀ path, path ∈ p.randomUnlocks ∨ path ∈ p.notified → p.stamps.contains path = true) ∧
      (∀ coin ∈ s.catalog.coins, ∀ r, coin.goal = .run r → 0 < r.length →
        0 ≤ p.runLength coin.path ∧ p.runLength coin.path ≤ r.length ∧
          (p.runLength coin.path = r.length → p.stamps.contains coin.path = true)) ∧
      ((∀ m ∈ ms, m.isLoad = true → m.faults.read = none) →
        (∀ e ∈ es, e.left.isStorable = true) →
        es.Pairwise (fun e later => e.fate = .refused → later.made.isLoad = false) →
          p.landings.total = landingsSinceReset es) := by
  intro p es
  have hholds : w.Holds s (Progress.Coherent s.catalog) :=
    .of_fresh (.empty s.catalog) hfresh hstore hempty
  have hp : p.Coherent s.catalog :=
    (hholds.inTurn (.empty s.catalog) (fun _ m hq => hq.play m) ms).game
  have hstart : w.Accounted s [] := .of_fresh hfresh hstore hempty
  have hlongest := hp.counted.longest
  have hheads := hp.counted.longestHeads
  refine ⟨hp.counted.total, ⟨hlongest, by omega⟩, hp.landed, fun path hpath => ?_,
    fun coin hc r hgoal hlength => ?_,
    fun hread hfits hload => (hstart.inTurn hread hfits hload).total⟩
  · obtain hrandom | htold := hpath
    · exact hp.latched.randomUnlocks path hrandom
    · exact hp.latched.notified path htold
  · have hnonneg := (hp.counted.runs coin.path).1
    obtain hshort | ⟨hfull, hstamped⟩ := hp.runs coin hc r hgoal hlength
    · exact ⟨hnonneg, by omega, fun hfull => by omega⟩
    · exact ⟨hnonneg, by omega, fun _ => hstamped⟩

/-! ## a session of all kinds of calls, and one that cannot read -/

/-- A session with a coin that waits for two landings in a row. -/
def runSetup : Setup := ⟨secondRunCatalog, "progress", [], 1⟩

/-- A call that is let in. -/
def Making.ofCall (call : Call) (faults : Faults) : Making := ⟨call, faults, firstOfMay, true⟩

/-- Records a landing with a streak, whether there was one or not. -/
def landingOn (path : String) (streak : Int) (faults : Faults) : Making :=
  .ofCall (.track ⟨path, .heads, none, none⟩ streak) faults

/-- A load, then landings before and after a reset, one of them on no coin and one that is not
saved. -/
def variedCalls : List Making :=
  [.ofCall .load {}, landingOn "run" (-3) {}, .ofCall .reset {}, landingOn "run" 1 {},
    landingOn "" 2 {}, landingOn "run" 3 { write := some "disk full" },
    .ofCall (.flip { heads := "run", tails := "run" }) {}]

/-- The progress that these calls leave. -/
def variedEnd : Progress := (doublingStart.inTurn runSetup variedCalls).1.game.progress

/-- They leave a full run, whose coin is stamped, and the three landings on a coin since the
reset. -/
theorem consistent_inTurn_variedCalls :
    doublingStart.game = .fresh ∧ doublingStart.store = some (.empty .memory) ∧
      (Store.empty .memory).blobs.get? runSetup.key = none ∧
      variedEnd.runLength secondRunCoin.path = 2 ∧
      variedEnd.stamps.contains secondRunCoin.path = true ∧ variedEnd.landings.total = 3 := by
  have hstore : doublingStart.store = some (.empty .memory) := rfl
  obtain ⟨-, -, -, -, hruns, htotal⟩ := consistent_inTurn runSetup rfl hstore rfl variedCalls
  have hcoin : secondRunCoin ∈ runSetup.catalog.coins := List.mem_singleton_self _
  have hfull : variedEnd.runLength secondRunCoin.path = 2 := by decide +kernel
  have hstamped : variedEnd.stamps.contains secondRunCoin.path = true :=
    (hruns secondRunCoin hcoin _ rfl (by decide)).2.2 hfull
  have hlandings : variedEnd.landings.total =
      landingsSinceReset (doublingStart.exchanges runSetup variedCalls) :=
    htotal (by decide) (by decide +kernel) (by decide +kernel)
  have hthree : landingsSinceReset (doublingStart.exchanges runSetup variedCalls) = 3 := by
    decide +kernel
  exact ⟨rfl, hstore, rfl, hfull, hstamped, by rw [hlandings, hthree]; rfl⟩

/-- A landing and a load, over a store that can be written, but not read. -/
def unreadCalls : List Making :=
  [landingOn "run" 1 { read := some "disk on fire" },
    .ofCall .load { read := some "disk on fire" }]

/-- The load brings empty progress, though the landing was saved and nothing was reset. -/
theorem landing_lost_by_unread :
    let es := doublingStart.exchanges runSetup unreadCalls
    doublingStart.game = .fresh ∧ doublingStart.store = some (.empty .memory) ∧
      (∀ e ∈ es, e.fate ≠ .refused ∧ e.left.isStorable = true) ∧ landingsSinceReset es = 1 ∧
      (doublingStart.inTurn runSetup unreadCalls).1.game.progress.landings.total = 0 := by
  refine ⟨rfl, rfl, ?_⟩
  decide +kernel

end CoinToss

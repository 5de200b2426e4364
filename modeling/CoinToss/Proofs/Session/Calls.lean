import CoinToss.Proofs.Codec.Snapshots
import CoinToss.Proofs.Session.Flips

/-!
# CoinToss.Proofs.Session.Calls

What any call on an idle game does to the game and to the store.

A call that needs it reads, then the call acts, and then progress is saved if there is anything
new.  Whatever becomes of the save, the game is the one the call has made of it.

```
opened  --act-->  acted  --saveProgress?-->  unsaved | kept | refused | unstorable
```

* `act_over` — acting leaves the store alone, and depends on neither store nor log;
* `exists_moves_act`, `grows_act` — acting plays moves and lets progress grow, a reset apart;
* `progress_act_of_done` — where nothing is to be saved, progress is as it was;
* `run_game`, `fate_leaves`, `grows_run` — the whole call;
* `fate_of_saved?` — what its reply tells.
-/

namespace CoinToss

/-! ## saving -/

/-- A store that keeps a text under a key. -/
def Store.keeping (st : Store) (key text : String) : Store :=
  { st with blobs := st.blobs.insert key text.toUTF8 }

@[simp] theorem Store.get?_blobs_keeping (st : Store) (key text : String) :
    (st.keeping key text).blobs.get? key = some text.toUTF8 :=
  st.blobs.get?_insert_self key _

theorem Store.get?_blobs_keeping_of_ne (st : Store) {key other : String} (text : String)
    (h : other ≠ key) : (st.keeping key text).blobs.get? other = st.blobs.get? other :=
  st.blobs.get?_insert_of_ne _ h

/-- A store takes a text, or it is out of order and keeps what it has. -/
theorem saveProgress?_of_text? (st : Store) (key : String) {p : Progress} {text : String}
    (h : p.text? = some text) :
    saveProgress? (some st) key p = some ⟨some (st.keeping key text), true, []⟩ ∨
      ∃ records, saveProgress? (some st) key p = some ⟨some st, false, records⟩ := by
  have haccepts : st.accepts text.toUTF8 = true := by
    rw [Store.accepts, Progress.fromUTF8?_toUTF8]
    exact Bool.or_true _
  rw [saveProgress?, h, Option.map_some, Store.write, haccepts]
  cases st.faults.write with
  | none => exact .inl rfl
  | some message => exact .inr ⟨_, rfl⟩

/-- What a reply tells of the save. -/
def Reply.saved? : Reply → Option Bool
  | .flipped o => some o.saved
  | .saved b => some b
  | _ => none

/-! ## rolls that unlock nothing -/

/-- A roll that tells of no coin leaves progress as it was. -/
theorem rollAll_of_isEmpty {c : Catalog} {l : Landing} {multiplier : Float} {time : DateTime}
    {p : Progress} {source : Source}
    (h : (rollAll c l multiplier time p source).2 = []) :
    (rollAll c l multiplier time p source).1.1 = p := by
  suffices hsweep : ∀ (coins : List Coin) (s : Progress × Source),
      (sweep (rollCoin c l multiplier time) s coins).2 = [] →
        (sweep (rollCoin c l multiplier time) s coins).1.1 = s.1 from hsweep c.coins _ h
  intro coins
  induction coins with
  | nil => exact fun s _ => rfl
  | cons coin coins ih =>
      intro s hnone
      rw [sweep_cons] at hnone ⊢
      rcases rollCoin_cases c l multiplier time s coin with ⟨hp, hu⟩ | ⟨-, -, -, u, -, hu⟩
      · rw [hu] at hnone
        rw [← hp]
        exact ih _ hnone
      · rw [hu] at hnone
        contradiction

/-- A call that need not read finds that done. -/
theorem Call.loaded_of_needsRead {call : Call} {g : Game} (h : call.needsRead g = false) :
    g.loaded = true := by
  cases call with
  | load => contradiction
  | _ => simpa [Call.needsRead] using h

namespace World

/-! ## acting -/

/-- The world with another store. -/
def withStore (w : World) (store : Option Store) : World := { w with store := store }

/-- The world with another log. -/
def withLog (w : World) (log : Array Log.Record) : World := { w with log := log }

/-- Acting leaves the store alone, and depends on neither store nor log. -/
theorem act_over (s : Setup) (w : World) (store : Option Store) (log : Array Log.Record)
    (call : Call) :
    ∃ later, ((w.withStore store).withLog log).act s call =
      (((w.act s call).1.withStore store).withLog later, (w.act s call).2) := by
  cases call with
  | flip o =>
      let v := (w.withStore store).withLog log
      have hflip : ∃ later, v.flip s o =
          (((w.flip s o).1.withStore store).withLog later, (w.flip s o).2) := by
        unfold flip
        dsimp only
        -- both flips are decided on the same faces, streak and draw
        have hsame : decideFlip
            (s.catalog.faces (v.showFaces s o).1.1 (v.showFaces s o).1.2)
            (v.showFaces s o).2.draw.2.game.last (v.showFaces s o).2.draw.2.game.streak
            (v.showFaces s o).2.draw.1 =
          decideFlip (s.catalog.faces (w.showFaces s o).1.1 (w.showFaces s o).1.2)
            (w.showFaces s o).2.draw.2.game.last (w.showFaces s o).2.draw.2.game.streak
            (w.showFaces s o).2.draw.1 := rfl
        rw [hsame]
        cases decideFlip _ _ _ _ with
        | error fault => exact ⟨_, rfl⟩
        | ok d => exact ⟨_, rfl⟩
      obtain ⟨later, hlater⟩ := hflip
      rw [act, act, hlater]
      rcases w.flip s o with ⟨u, _ | _⟩ <;> exact ⟨later, rfl⟩
  | _ => exact ⟨_, rfl⟩

theorem act_store (s : Setup) (w : World) (call : Call) : (w.act s call).1.store = w.store := by
  obtain ⟨_, h⟩ := act_over s w w.store w.log call
  exact congrArg (·.1.store) h

/-- A flip stops with the game as it was, or plays its moves and is to be saved. -/
theorem act_flip_cases (s : Setup) (w : World) (o : FlipOrder) :
    (∃ fault, (w.act s (.flip o)).2 = .done (.error (.number fault)) ∧
        (w.act s (.flip o)).1.game = w.game) ∨
      ∃ outcome l multiplier source, (w.act s (.flip o)).2 = .save (.flipped outcome) ∧
        (w.act s (.flip o)).1.game =
          { w.game with
            progress := (w.game.progress.playAll s.catalog
              (flipMoves l outcome.streak multiplier w.clock source)).1
            streak := outcome.streak
            last := some l.side } := by
  have hcases := flip_cases s w o
  rw [act]
  generalize w.flip s o = flipped at hcases ⊢
  obtain ⟨u, fault | outcome⟩ := flipped
  · obtain ⟨_, -, hgame, -⟩ | ⟨_, _, _, _, hok, -, -⟩ := hcases
    · exact .inl ⟨fault, rfl, hgame⟩
    · contradiction
  · obtain ⟨_, hfault, -, -⟩ | ⟨_, l, multiplier, source, hok, hgame, -⟩ := hcases
    · contradiction
    · obtain rfl := Except.ok.inj hok
      exact .inr ⟨outcome, l, multiplier, source, rfl, hgame⟩

/-- Acting is neither reading nor entering. -/
theorem act_marks (s : Setup) (w : World) (call : Call) :
    (w.act s call).1.game.loaded = w.game.loaded ∧ (w.act s call).1.game.busy = w.game.busy := by
  cases call with
  | flip o =>
      obtain ⟨_, -, hgame⟩ | ⟨_, _, _, _, -, hgame⟩ := act_flip_cases s w o
      · rw [hgame]
        exact ⟨rfl, rfl⟩
      · rw [hgame]
        exact ⟨rfl, rfl⟩
  | _ => exact ⟨rfl, rfl⟩

/-- A call that is no reset plays moves. -/
theorem exists_moves_act (s : Setup) (w : World) {call : Call} (h : call ≠ .reset) :
    ∃ ms, (w.act s call).1.game.progress = (w.game.progress.playAll s.catalog ms).1 := by
  cases call with
  | flip o =>
      obtain ⟨_, -, hgame⟩ | ⟨outcome, l, multiplier, source, -, hgame⟩ := act_flip_cases s w o
      · exact ⟨[], by rw [hgame]; rfl⟩
      · exact ⟨flipMoves l outcome.streak multiplier w.clock source, by rw [hgame]⟩
  | track l streak => exact ⟨[.land l streak w.clock], rfl⟩
  | roll l multiplier => exact ⟨[.roll l multiplier w.clock w.source], rfl⟩
  | unlock path => exact ⟨[.unlock path w.clock], rfl⟩
  | reset => contradiction
  | load => exact ⟨[], rfl⟩
  | ensureLoaded => exact ⟨[], rfl⟩

/-- Acting keeps what empty progress has and every move keeps. -/
theorem progress_act_keeps {P : Progress → Prop} {s : Setup} (hempty : P .empty)
    (hplay : ∀ p m, P p → P (p.play s.catalog m).1) {w : World} (hw : P w.game.progress)
    (call : Call) : P (w.act s call).1.game.progress := by
  by_cases hreset : call = .reset
  · rw [hreset]
    exact hempty
  · obtain ⟨ms, hms⟩ := exists_moves_act s w hreset
    rw [hms]
    exact Progress.playAll_keeps (fun p m _ => hplay p m) hw

/-- Acting lets progress grow, unless it is reset. -/
theorem grows_act (s : Setup) (w : World) {call : Call} (h : call ≠ .reset) :
    w.game.progress.Grows (w.act s call).1.game.progress := by
  obtain ⟨ms, hms⟩ := exists_moves_act s w h
  rw [hms]
  exact Progress.playAll_keeps (fun q m _ hq => hq.trans (q.grows_play s.catalog m)) (.refl _)

/-- Where nothing is to be saved, progress is as it was. -/
theorem progress_act_of_done (s : Setup) (w : World) {call : Call} {result : Result}
    (h : (w.act s call).2 = .done result) :
    (w.act s call).1.game.progress = w.game.progress := by
  cases call with
  | flip o =>
      obtain ⟨_, -, hgame⟩ | ⟨_, _, _, _, hsave, -⟩ := act_flip_cases s w o
      · rw [hgame]
      · rw [hsave] at h
        contradiction
  | track l streak => contradiction
  | roll l multiplier =>
      by_cases hlucky : (w.rollChances s l multiplier).2.isEmpty = true
      · refine rollAll_of_isEmpty ?_
        exact List.map_eq_nil_iff.1 (List.isEmpty_iff.1 hlucky)
      · rw [act] at h
        dsimp only at h
        rw [if_neg hlucky] at h
        contradiction
  | unlock path =>
      by_cases hknown : w.game.progress.randomUnlocks.contains path = true
      · show (w.game.progress.unlockByHand path w.clock).1 = _
        rw [Progress.unlockByHand, if_pos hknown]
      · have hchanged : (w.game.progress.unlockByHand path w.clock).2 = true := by
          rw [Progress.unlockByHand, if_neg hknown]
        rw [act] at h
        dsimp only at h
        rw [hchanged] at h
        contradiction
  | reset => contradiction
  | load => rfl
  | ensureLoaded => rfl

/-! ## the whole call -/

/-- What becomes of progress in the end of a call. -/
inductive Fate where
  /-- Nothing was to be saved. -/
  | unsaved
  | kept
  | refused
  /-- Progress has no text. -/
  | unstorable
  deriving DecidableEq

/-- What becomes of progress in the end of a call on an idle game. -/
def fate (s : Setup) (w : World) (call : Call) : Fate :=
  match (w.opened s call).act s call with
  | (_, .done _) => .unsaved
  | (u, .save _) =>
    match saveProgress? u.store s.key u.game.progress with
    | none => .unstorable
    | some saving => if saving.saved then .kept else .refused

/-- The progress on which a call acts on an idle game. -/
def found (s : Setup) (w : World) (call : Call) : Progress :=
  if call.needsRead w.game then (loadProgress w.store s.key).1 else w.game.progress

theorem needsRead_enter (w : World) (call : Call) :
    call.needsRead (w.enter call).game = call.needsRead w.game := by
  cases call <;> rfl

theorem opened_game (s : Setup) (w : World) (call : Call) :
    (w.opened s call).game =
      { (w.enter call).game with progress := w.found s call, loaded := true } := by
  unfold opened found
  rw [needsRead_enter]
  by_cases hread : call.needsRead w.game = true
  · rw [if_pos hread, if_pos hread]
    cases call <;> rfl
  · have hloaded := Call.loaded_of_needsRead (Bool.eq_false_iff.2 hread)
    have henter : (w.enter call).game =
        { (w.enter call).game with progress := w.game.progress, loaded := w.game.loaded } := by
      cases call <;> rfl
    rw [if_neg hread, if_neg hread, ← hloaded]
    exact henter

/-- What becomes of the store, and of the progress a call has found. -/
def Fate.Leaves (key : String) (st : Store) (p q : Progress) (store : Option Store) : Fate → Prop
  | .unsaved => store = some st ∧ q = p
  | .kept => ∃ text, q.text? = some text ∧ store = some (st.keeping key text)
  | .refused => store = some st
  | .unstorable => store = some st ∧ q.text? = none

theorem leave_game {w : World} {call : Call} (h : call.isExclusive = false → w.game.busy = false) :
    (w.leave call).game = { w.game with busy := false } := by
  unfold leave
  split
  · rfl
  · next hcall =>
    rw [← h (Bool.eq_false_iff.2 hcall)]

theorem commit_game (s : Setup) (w : World) (call : Call) (p : Progress) (reply : Reply) :
    (w.commit s call p reply).1.game = (w.leave call).game := by
  unfold commit
  split
  · rfl
  · dsimp only
    split <;> unfold leave <;> split <;> rfl

theorem commit_store (s : Setup) (w : World) (call : Call) (p : Progress) (reply : Reply) :
    (w.commit s call p reply).1.store =
      ((saveProgress? w.store s.key p).map (·.store)).getD w.store := by
  unfold commit
  split
  · next h =>
    rw [h]
    unfold leave
    split <;> rfl
  · next h =>
    rw [h]
    dsimp only
    split <;> unfold leave <;> split <;> rfl

theorem run_of_done {s : Setup} {w u : World} {call : Call} {result : Result}
    (hidle : w.game.busy = false) (h : (w.opened s call).act s call = (u, .done result)) :
    w.run s call = (u.leave call, result) := by
  rw [run_of_idle s call hidle, proceed, h]
  rfl

theorem run_of_save {s : Setup} {w u : World} {call : Call} {reply : Reply}
    (hidle : w.game.busy = false) (h : (w.opened s call).act s call = (u, .save reply)) :
    w.run s call = u.commit s call u.game.progress reply := by
  rw [run_of_idle s call hidle, proceed, h]
  rfl

/-- Whatever becomes of the save, the game is the one that the call has made of it. -/
theorem run_game (s : Setup) {w : World} (call : Call) (hidle : w.game.busy = false) :
    (w.run s call).1.game = { ((w.opened s call).act s call).1.game with busy := false } := by
  have hbusy : call.isExclusive = false → ((w.opened s call).act s call).1.game.busy = false := by
    intro hcall
    rw [(act_marks s _ call).2, opened_game]
    show (w.enter call).game.busy = false
    rw [enter, hcall]
    exact hidle
  rcases hact : (w.opened s call).act s call with ⟨u, result | reply⟩
  · rw [hact] at hbusy
    rw [run_of_done hidle hact, leave_game hbusy]
  · rw [hact] at hbusy
    rw [run_of_save hidle hact, commit_game, leave_game hbusy]

/-- A call on an idle game does to progress and store what its fate says. -/
theorem fate_leaves (s : Setup) {w : World} (call : Call) {st : Store}
    (hidle : w.game.busy = false) (hstore : w.store = some st) :
    (w.fate s call).Leaves s.key st (w.found s call) (w.run s call).1.game.progress
      (w.run s call).1.store := by
  have hst : ((w.opened s call).act s call).1.store = some st := by
    rw [act_store, opened_store, hstore]
  rw [fate, run_game s call hidle]
  rcases hact : (w.opened s call).act s call with ⟨u, result | reply⟩
  · have hdone := progress_act_of_done s (w.opened s call) (congrArg (·.2) hact)
    rw [hact, opened_game] at hdone
    rw [hact] at hst
    rw [run_of_done hidle hact]
    refine ⟨?_, hdone⟩
    unfold leave
    split <;> exact hst
  · rw [hact] at hst
    change u.store = some st at hst
    rw [run_of_save hidle hact, commit_store]
    dsimp only
    rw [hst]
    cases htext : u.game.progress.text? with
    | none =>
        have hnone : saveProgress? (some st) s.key u.game.progress = none := by
          rw [saveProgress?, htext]
          rfl
        rw [hnone]
        exact ⟨rfl, htext⟩
    | some text =>
        obtain hsaved | ⟨records, hsaved⟩ := saveProgress?_of_text? st s.key htext
        · rw [hsaved]
          exact ⟨text, htext, rfl⟩
        · rw [hsaved]
          exact rfl

theorem idle_run (s : Setup) {w : World} (call : Call) (hidle : w.game.busy = false) :
    (w.run s call).1.game.busy = false := by
  rw [run_game s call hidle]

theorem loaded_run (s : Setup) {w : World} (call : Call) (hidle : w.game.busy = false) :
    (w.run s call).1.game.loaded = true := by
  rw [run_game s call hidle]
  show ((w.opened s call).act s call).1.game.loaded = true
  rw [(act_marks s _ call).1, opened_game]

/-- A call lets the progress it finds grow, unless it resets it. -/
theorem grows_run (s : Setup) {w : World} {call : Call} (hidle : w.game.busy = false)
    (hcall : call ≠ .reset) : (w.found s call).Grows (w.run s call).1.game.progress := by
  have hgrows := grows_act s (w.opened s call) hcall
  rw [opened_game] at hgrows
  rw [run_game s call hidle]
  exact hgrows

/-! ## what the reply tells -/

/-- A call that saves nothing tells of no save. -/
theorem saved?_of_done (s : Setup) (w : World) (call : Call) {r : Reply}
    (h : (w.act s call).2 = .done (.ok r)) : r.saved? = none := by
  cases call with
  | flip o =>
      obtain ⟨_, hdone, -⟩ | ⟨_, _, _, _, hsave, -⟩ := act_flip_cases s w o
      · rw [hdone] at h
        cases h
      · rw [hsave] at h
        cases h
  | track l streak => contradiction
  | roll l multiplier =>
      rw [act] at h
      dsimp only at h
      split at h
      · cases h
        rfl
      · contradiction
  | unlock path =>
      rw [act] at h
      dsimp only at h
      split at h
      · contradiction
      · cases h
        rfl
  | reset => contradiction
  | load =>
      cases h
      rfl
  | ensureLoaded =>
      cases h
      rfl

theorem saved?_withSaved {r : Reply} {saved b : Bool} (h : (r.withSaved saved).saved? = some b) :
    b = saved := by
  cases r with
  | flipped o => exact (Option.some.inj h).symm
  | saved _ => exact (Option.some.inj h).symm
  | _ => contradiction

/-- A reply that tells of the save tells what has become of it. -/
theorem fate_of_saved? (s : Setup) {w : World} (call : Call) (hidle : w.game.busy = false)
    {r : Reply} {b : Bool} (hresult : (w.run s call).2 = .ok r) (hb : r.saved? = some b) :
    w.fate s call = if b then .kept else .refused := by
  rcases hact : (w.opened s call).act s call with ⟨u, result | reply⟩
  · rw [run_of_done hidle hact] at hresult
    change result = _ at hresult
    have hnone := saved?_of_done s (w.opened s call) call (r := r) (by rw [hact, hresult])
    rw [hnone] at hb
    contradiction
  · rw [run_of_save hidle hact, commit] at hresult
    rw [fate, hact]
    dsimp only
    cases hsaving : saveProgress? u.store s.key u.game.progress with
    | none =>
        rw [hsaving] at hresult
        cases hresult
    | some saving =>
        rw [hsaving] at hresult
        have hr : reply.withSaved saving.saved = r := by
          simpa using hresult
        rw [← hr] at hb
        rw [saved?_withSaved hb]

end World

end CoinToss

import CoinToss.Proofs.Codec.Data
import CoinToss.Proofs.Decimal.Places
import CoinToss.Proofs.Flip.Pace
import CoinToss.Proofs.Service.Landings
import CoinToss.Proofs.Session.Failing

/-!
# CoinToss.Proofs.Service.Answered

Which flips that have been recorded are answered.

Once a flip has been decided, the game has recorded it, and three things are left to do: to save
progress, to tell the pause that the faces set, and to send the answer.  Progress is handed to a
store only if its integers fit.  The faces have decided the flip, so their pause can be told.  The
odds are finite and the rest is integers and texts, so the answer is sent, unless an integer has too
many digits or a random face shows a given path that is no text:

```
flip  --decide-->  recorded  --commit-->  outcome  --flipJson-->  JSON  --send-->  200
                             --fail--------------------------------------fail-->  500
```

* `Outcome.Decided`, `decided_flip`, `decided_proceed` — an outcome has been decided by its faces;
* `Tellable`, `sendFault?_flipMembers_eq_none_iff` — the outcomes that can be told;
* `tell_flipJson`, `next_of_commit` — so a recorded flip is answered, or the server fails;
* `recorded_flip_answered_iff` — all of it, from the faces to the answer.
-/

namespace CoinToss

/-! ## decided flips -/

/-- An outcome with the odds by which its faces have decided the flip. -/
def Outcome.Decided (s : Setup) (outcome : Outcome) : Prop :=
  ∃ last draw r, (s.catalog.faces outcome.heads outcome.tails).resolve last draw = .ok r ∧
    outcome.odds = r.odds

namespace World

variable {s : Setup} {w : World} {o : FlipOrder}

theorem decided_flip {outcome : Outcome} (h : (w.flip s o).2 = .ok outcome) :
    outcome.Decided s := by
  unfold flip at h
  dsimp only at h
  cases hd : decideFlip _ _ _ _ with
  | error fault =>
      rw [hd] at h
      contradiction
  | ok d =>
      rw [hd] at h
      obtain ⟨r, hr, hdecided⟩ := bind_eq_ok.1 hd
      obtain ⟨streak, -, hd⟩ := bind_eq_ok.1 hdecided
      have houtcome := Except.ok.inj h
      rw [← houtcome]
      refine ⟨_, _, r, hr, ?_⟩
      rw [← Except.ok.inj hd]
      rfl

/-- A flip that is to be saved has been decided. -/
theorem decided_proceed {u : World} {snapshot : Progress} {reply : Reply}
    (h : w.proceed s (.flip o) = (u, .saving snapshot reply)) :
    ∃ outcome, reply = .flipped outcome ∧ outcome.Decided s := by
  unfold proceed at h
  rcases hflip : w.flip s o with ⟨v, fault | outcome⟩
  · rw [act_flip_of_error hflip] at h
    cases h
  · rw [act_flip_of_ok hflip] at h
    cases h
    exact ⟨outcome, rfl, decided_flip (congrArg (·.2) hflip)⟩

end World

namespace Service

open Json Decimal

/-! ## outcomes that can be told -/

/-- The answer to a flip, with the pause that its faces set. -/
def flipAnswer (outcome : Outcome) (pause : Option Int) : Response :=
  .ok (.object (outcome.members ++ [("auto_click_interval", .orNull .int pause)]))

/-- A flip can be told if neither its streak nor its pause has too many digits, and if each face
that nothing could be picked for, in a game, has been given a path that is a text. -/
structure Tellable (s : Setup) (b : FlipBody) (g : Game) (outcome : Outcome)
    (pause : Option Int) : Prop where
  streak : (natDigits outcome.streak.natAbs).length ≤ digitLimit
  pause : ∀ n, pause = some n → (natDigits n.natAbs).length ≤ digitLimit
  heads : b.headsRandom = true → nothingToPick s g = true → b.heads.isText = true
  tails : b.tailsRandom = true → nothingToPick s g = true → b.tails.isText = true

section Told

variable {s : Setup} {b : FlipBody} {g : Game} {outcome : Outcome} {pause : Option Int}

theorem sendable_int_iff_length {n : Int} :
    Sendable (.int n) ↔ (natDigits n.natAbs).length ≤ digitLimit := by
  rw [sendable_int_iff, isOverlong_eq_false_iff]

theorem sendable_pause_iff : Sendable (.orNull .int pause) ↔
    ∀ n, pause = some n → (natDigits n.natAbs).length ≤ digitLimit := by
  cases pause with
  | none => exact iff_of_true sendable_null fun n hn => by contradiction
  | some n => simp [Json.orNull, sendable_int_iff_length]

theorem sendable_summaries (coins : List Coin) :
    Sendable (.array (coins.map Coin.summary)) := by
  refine sendable_array_iff.2 fun j hj => ?_
  obtain ⟨coin, -, rfl⟩ := List.mem_map.1 hj
  have hsummary : Sendable coin.summary := by
    refine sendable_object_iff.2 fun m hm => ?_
    simp only [List.mem_cons, List.not_mem_nil, or_false] at hm
    obtain rfl | rfl | rfl := hm <;> exact sendable_string _
  exact ⟨hsummary.written, hsummary.whole⟩

/-- A face is told unless it shows a given path that is no text. -/
theorem sendable_face_iff {given : GivenPath} {isRandom nothing : Bool} {shown : String} :
    Sendable (given.told (isRandom && nothing) shown) ↔
      (isRandom = true → nothing = true → given.isText = true) := by
  rw [sendable_told_iff, Bool.and_eq_true, and_imp]

/-- What has been decided is sent exactly if it can be told. -/
theorem sendFault?_flipMembers_eq_none_iff (hodds : outcome.odds.isFinite = true) :
    sendFault? (.object (flipMembers s b g outcome pause)) = none ↔
      Tellable s b g outcome pause := by
  have hplaces := sendable_number_iff.2 (isFinite_roundPlaces hodds 4)
  have hparts {landed : Json} :
      (∀ m ∈ outcome.membersWith landed
          (b.heads.told (b.headsRandom && nothingToPick s g) outcome.heads)
          (b.tails.told (b.tailsRandom && nothingToPick s g) outcome.tails) ++
            [("auto_click_interval", .orNull .int pause)], Sendable m.2) ↔
        Sendable landed ∧ Tellable s b g outcome pause := by
    simp only [Outcome.membersWith, List.cons_append, List.nil_append, List.forall_mem_cons,
      sendable_face_iff, sendable_int_iff_length, sendable_pause_iff]
    constructor
    · rintro ⟨-, hlanded, hheads, htails, -, hstreak, -, -, -, hpause, -⟩
      exact ⟨hlanded, hstreak, hpause, hheads, htails⟩
    · rintro ⟨hlanded, h⟩
      exact ⟨sendable_string _, hlanded, h.heads, h.tails, hplaces, h.streak,
        sendable_summaries _, sendable_summaries _, sendable_bool _, h.pause,
        List.forall_mem_nil _⟩
  rw [sendFault?_object_eq_none_iff, flipMembers, hparts]
  -- The face that the flip has landed on is one of the two.
  refine and_iff_right_of_imp fun h => ?_
  cases outcome.side with
  | heads => exact sendable_face_iff.2 h.heads
  | tails => exact sendable_face_iff.2 h.tails

/-- What can be told is told by the paths that the game knows. -/
theorem Tellable.flipMembers_eq (h : Tellable s b g outcome pause) :
    flipMembers s b g outcome pause =
      outcome.members ++ [("auto_click_interval", .orNull .int pause)] := by
  have hheads (shown : String) :
      b.heads.told (b.headsRandom && nothingToPick s g) shown = .string shown :=
    told_eq_string (sendable_face_iff.2 h.heads)
  have htails (shown : String) :
      b.tails.told (b.tailsRandom && nothingToPick s g) shown = .string shown :=
    told_eq_string (sendable_face_iff.2 h.tails)
  rw [flipMembers, Outcome.members]
  cases outcome.side <;> simp only [hheads, htails]

end Told

/-! ## answers to recorded flips -/

/-- Progress that can be handed to a store, if there is any: its integers fit 64 bits. -/
def Keepable (store : Option Store) (p : Progress) : Prop :=
  store.isSome = true → p.isStorable = true

theorem isSome_saveProgress?_iff {store : Option Store} {key : String} {p : Progress} :
    (saveProgress? store key p).isSome = true ↔ Keepable store p := by
  cases store with
  | none => exact iff_of_true rfl fun h => by contradiction
  | some st =>
      rw [saveProgress?, Option.isSome_map, Progress.text?_isSome]
      exact ⟨fun h _ => h, fun h => h rfl⟩

section Answer

variable (cfg : Config) {b : FlipBody} {g : Game} {outcome : Outcome} {pause : Option Int}

/-- JSON is sent if nothing keeps it from that. -/
theorem send_of_eq_none {j : Json} (h : sendFault? j = none) :
    send cfg (.ok j) = .answer [] (.ok j) := by
  have hcontent : (Response.ok j).content?.bind sendFault? = none := h
  rw [send, hcontent]

theorem send_of_eq_some {j : Json} {fault : SendFault} (h : sendFault? j = some fault) :
    send cfg (.ok j) = crash cfg fault.message := by
  have hcontent : (Response.ok j).content?.bind sendFault? = some fault := h
  rw [send, hcontent]

/-- The faces of a decided flip have a pause, and its odds are finite. -/
theorem pace_of_decided {s : Setup} (h : outcome.Decided s) :
    outcome.odds.isFinite = true ∧ ∃ pause,
      (s.catalog.faces outcome.heads outcome.tails).autoClickInterval = .ok pause := by
  obtain ⟨last, draw, r, hr, hodds⟩ := h
  have hok : ((s.catalog.faces outcome.heads outcome.tails).resolve last draw).isOk = true := by
    rw [hr]
    rfl
  obtain ⟨pause, hpause, -⟩ := Faces.pace_of_resolve hok
  rw [hodds]
  exact ⟨Faces.isFinite_odds hr, pause, hpause⟩

/-- A flip is answered if it can be told with its pause; else the server fails. -/
theorem tell_flipJson (hodds : outcome.odds.isFinite = true)
    (hpause : (cfg.setup.catalog.faces outcome.heads outcome.tails).autoClickInterval =
      .ok pause) :
    (Tellable cfg.setup b g outcome pause →
        tell cfg (flipJson cfg b g outcome) = .answer [] (flipAnswer outcome pause)) ∧
      (¬ Tellable cfg.setup b g outcome pause →
        ∃ reason, tell cfg (flipJson cfg b g outcome) = crash cfg reason) := by
  have htell : tell cfg (flipJson cfg b g outcome) =
      send cfg (.ok (.object (flipMembers cfg.setup b g outcome pause))) := by
    rw [flipJson, hpause]
    rfl
  have hsent : sendFault? (.object (flipMembers cfg.setup b g outcome pause)) = none ↔
      Tellable cfg.setup b g outcome pause := sendFault?_flipMembers_eq_none_iff hodds
  rw [htell]
  refine ⟨fun htold => ?_, fun htold => ?_⟩
  · rw [send_of_eq_none cfg (hsent.2 htold), htold.flipMembers_eq, flipAnswer]
  · obtain ⟨fault, hfault⟩ := Option.ne_none_iff_exists'.1 (mt hsent.1 htold)
    exact ⟨fault.message, send_of_eq_some cfg hfault⟩

/-- What follows the save of a decided flip is the answer that tells of it if progress could be
handed to the store and the flip can be told; else the server fails. -/
theorem next_of_commit (h : outcome.Decided cfg.setup) {rejection : List Log.Record}
    {next : Game → Result → Job Response}
    (hnext : callGame cfg (.flip b.order) rejection (flipReplyJson cfg b g) =
      .call (.flip b.order) next) (saving : World) (snapshot : Progress) (later : Game) :
    let result := (saving.commit cfg.setup (.flip b.order) snapshot (.flipped outcome)).2
    ∃ pause,
      (cfg.setup.catalog.faces outcome.heads outcome.tails).autoClickInterval = .ok pause ∧
        (Keepable saving.store snapshot ∧ Tellable cfg.setup b g outcome pause →
          ∃ saved, next later result =
            .answer [] (flipAnswer { outcome with saved := saved } pause)) ∧
        (¬ (Keepable saving.store snapshot ∧ Tellable cfg.setup b g outcome pause) →
          ∃ reason, next later result = crash cfg reason) := by
  intro result
  obtain ⟨hodds, pause, hpause⟩ := pace_of_decided h
  have hkept : (saveProgress? saving.store cfg.setup.key snapshot).isSome = true ↔
      Keepable saving.store snapshot := isSome_saveProgress?_iff
  have hresult : result = (World.savedFlip saving.store outcome
      (saveProgress? saving.store cfg.setup.key snapshot)).1 :=
    congrArg (·.1) (World.commit_flip cfg.setup saving b.order snapshot outcome).2
  obtain ⟨-, rfl⟩ := Job.call.inj hnext
  refine ⟨pause, hpause, ?_⟩
  rw [hresult]
  cases hsaving : saveProgress? saving.store cfg.setup.key snapshot with
  | none =>
      rw [hsaving] at hkept
      refine ⟨fun hboth => ?_, fun _ => ⟨_, rfl⟩⟩
      exact absurd (hkept.2 hboth.1) (by decide)
  | some saved =>
      rw [hsaving] at hkept
      -- whether progress has been saved is told, but has no bearing on whether that can be told
      have hodds' : ({ outcome with saved := saved.saved } : Outcome).odds.isFinite = true := hodds
      obtain ⟨hanswered, hfailed⟩ := tell_flipJson cfg hodds' hpause
      exact ⟨fun ⟨_, h⟩ => ⟨_, hanswered ⟨h.streak, h.pause, h.heads, h.tails⟩⟩,
        fun hnot => hfailed fun h =>
          hnot ⟨hkept.1 rfl, ⟨h.streak, h.pause, h.heads, h.tails⟩⟩⟩

end Answer

/-- **A flip that has been recorded is answered exactly if its progress can be handed to the store
and it can be told.**

* Faces by which a flip can be decided, whatever their effects, the last result and the draw, have a
  pause that can be told: none exactly if neither flips by itself, else a tenth of a second at least.
* A flip that has been decided, recorded and is to be saved, whatever else is done meanwhile, is
  answered with success, its outcome and its pause, if the progress to be saved is `Keepable` and
  the flip `Tellable`; else the server fails.
* In particular a request whose flip nothing interrupts is answered so if the flip is decided.
  Either way the game keeps what has been recorded: it counts one flip more. -/
theorem recorded_flip_answered_iff (cfg : Config) :
    (∀ (f : Faces Float) (last : Option String) (draw : Float),
      (f.resolve (last.bind Side.ofWord?) draw).isOk = true →
        ∃ pause, f.autoClickInterval = .ok pause ∧ (pause = none ↔ f.has .autoClick = false) ∧
          ∀ n, pause = some n → 100 ≤ n) ∧
    (∀ (b : FlipBody) (g : Game) (rejection : List Log.Record)
      (next : Game → Result → Job Response),
      callGame cfg (.flip b.order) rejection (flipReplyJson cfg b g) =
          .call (.flip b.order) next →
        ∀ (acting acted saving : World) (snapshot : Progress) (reply : Reply) (later : Game),
          acting.proceed cfg.setup (.flip b.order) = (acted, .saving snapshot reply) →
            let result := (saving.commit cfg.setup (.flip b.order) snapshot reply).2
            ∃ outcome pause, reply = .flipped outcome ∧
              (cfg.setup.catalog.faces outcome.heads outcome.tails).autoClickInterval =
                .ok pause ∧
              (Keepable saving.store snapshot ∧ Tellable cfg.setup b g outcome pause →
                ∃ saved, next later result =
                  .answer [] (flipAnswer { outcome with saved := saved } pause)) ∧
              (¬ (Keepable saving.store snapshot ∧ Tellable cfg.setup b g outcome pause) →
                ∃ reason, next later result = crash cfg reason)) ∧
    ∀ (w : World) (r : Request) (b : FlipBody) (outcome : Outcome),
      let read := (w.run cfg.setup .ensureLoaded).1
      let recorded := (read.flip cfg.setup b.order).1
      w.game.busy = false →
      Route.ofPath r.path = .endpoint .flip → r.method = Endpoint.flip.method →
      readBody FlipBody.ofMembers r.body = .ok b →
      (∀ path ∈ b.named, isKnown cfg.setup.catalog path = true) →
      (read.flip cfg.setup b.order).2 = .ok outcome →
        (answer cfg w r).1.game = { recorded.game with busy := false } ∧
          recorded.game.progress.totalFlips = read.game.progress.totalFlips + 1 ∧
          ∃ pause,
            (cfg.setup.catalog.faces outcome.heads outcome.tails).autoClickInterval = .ok pause ∧
            (Keepable recorded.store recorded.game.progress ∧
                Tellable cfg.setup b read.game outcome pause →
              ∃ saved, (answer cfg w r).2 = flipAnswer { outcome with saved := saved } pause) ∧
            (¬ (Keepable recorded.store recorded.game.progress ∧
                Tellable cfg.setup b read.game outcome pause) →
              ∃ reason, (answer cfg w r).2 = .crashed cfg.debug reason) := by
  refine ⟨fun f last draw h => Faces.pace_of_resolve h, ?_, ?_⟩
  · intro b g rejection next hnext acting acted saving snapshot reply later hacted result
    obtain ⟨outcome, rfl, hdecided⟩ := World.decided_proceed hacted
    obtain ⟨pause, hanswer⟩ := next_of_commit cfg hdecided hnext saving snapshot later
    exact ⟨outcome, pause, rfl, hanswer⟩
  · intro w r b outcome read recorded hidle hroute hmethod hbody hnamed hflip
    have hrest := World.idle_run cfg.setup .ensureLoaded hidle
    have hloaded := World.loaded_run cfg.setup .ensureLoaded hidle
    let committed := recorded.commit cfg.setup (.flip b.order) recorded.game.progress
      (.flipped outcome)
    have hrun : read.run cfg.setup (.flip b.order) = committed := by
      have hacted : read.flip cfg.setup b.order = (recorded, .ok outcome) := by rw [← hflip]
      rw [World.run_flip_of_loaded cfg.setup b.order hrest hloaded, hacted]
    obtain ⟨next, hcall⟩ : ∃ next,
        callGame cfg (.flip b.order) [turnedAway] (flipReplyJson cfg b read.game) =
          .call (.flip b.order) next := ⟨_, rfl⟩
    have hanswer : answer cfg w r =
        (next committed.1.game committed.2).run cfg.setup committed.1 := by
      rw [answer_flip_eq cfg w hroute hmethod hbody hnamed]
      show (callGame cfg (.flip b.order) [turnedAway] (flipReplyJson cfg b read.game)).run cfg.setup
        read = _
      rw [hcall, Job.run, hrun]
    have hgame : (answer cfg w r).1.game = { recorded.game with busy := false } := by
      rw [game_answer_flip cfg w hroute hmethod hbody hnamed]
      show (read.run cfg.setup (.flip b.order)).1.game = _
      rw [hrun, (World.commit_flip cfg.setup recorded b.order _ outcome).1]
    have htotal : recorded.game.progress.totalFlips = read.game.progress.totalFlips + 1 := by
      obtain ⟨-, l, multiplier, source, -, hplayed⟩ := World.flip_ok hflip
      rw [hplayed]
      exact (World.playAll_flipMoves cfg.setup.catalog _ l _ multiplier _ source).1
    obtain ⟨pause, hpause, hanswered, hfailed⟩ := next_of_commit cfg (World.decided_flip hflip)
      hcall recorded recorded.game.progress committed.1.game
    refine ⟨hgame, htotal, pause, hpause, fun h => ?_, fun h => ?_⟩
    · obtain ⟨saved, hnext⟩ := hanswered h
      rw [hanswer, hnext]
      exact ⟨saved, rfl⟩
    · obtain ⟨reason, hnext⟩ := hfailed h
      rw [hanswer, hnext]
      exact ⟨reason, rfl⟩

/-- A service with a coin that flips by itself and a combo that doubles its pace. -/
def clickingConfig : Config := ⟨⟨⟨[World.clicker, doubler], by decide⟩, "progress", [], 1⟩, false⟩

/-- A flip of the two coins. -/
def clickingRequest : Request where
  method := "POST"
  path := "/api/flip"
  body := "\x7b\"heads_path\":\"click\",\"tails_path\":\"double\"\x7d".toUTF8

/-- What the flip orders. -/
def clickingBody : FlipBody := ⟨.text "click", .text "double", false, false, none⟩

/-- The game when the flip is called. -/
def clickingGame : World := (doublingStart.run clickingConfig.setup .ensureLoaded).1

/-- What comes of the two coins can be told. -/
theorem tellable_clicking {outcome : Outcome} {pause : Option Int}
    (hflip : (clickingGame.flip clickingConfig.setup clickingBody.order).2 = .ok outcome)
    (hpause : (clickingConfig.setup.catalog.faces outcome.heads outcome.tails).autoClickInterval =
      .ok pause) (g : Game) : Tellable clickingConfig.setup clickingBody g outcome pause := by
  have hshown : (clickingGame.flip clickingConfig.setup clickingBody.order).2.toOption.map
      (fun o => (o.heads, o.tails, o.streak)) = some ("click", "double", 1) := by decide +kernel
  rw [hflip] at hshown
  obtain ⟨hheads, htails, hstreak⟩ :
      outcome.heads = "click" ∧ outcome.tails = "double" ∧ outcome.streak = 1 := by
    simpa [Except.toOption] using hshown
  have hpace : (clickingConfig.setup.catalog.faces "click" "double").autoClickInterval.toOption =
      some (some 500) := by decide +kernel
  rw [hheads, htails] at hpause
  rw [hpause] at hpace
  obtain rfl : pause = some 500 := Option.some.inj hpace
  refine ⟨?_, fun n hn => ?_, fun h => ?_, fun h => ?_⟩
  · rw [hstreak]
    decide
  · obtain rfl := Option.some.inj hn
    decide
  · cases h
  · cases h

/-- A flip with a random face that falls back on half of a character. -/
def halvedRequest : Request where
  method := "POST"
  path := "/api/flip"
  body :=
    "\x7b\"heads_path\":\"heads\",\"tails_path\":\"\\ud800\",\"tails_random\":true\x7d".toUTF8

/-- What this flip orders. -/
def halvedBody : FlipBody := ⟨.text "heads", .broken [0xD800], false, true, none⟩

/-- A combo that makes any streak one beyond 64 bits. -/
def soarer : Coin :=
  { doubler with path := "soar", effect := some ⟨"", .combo ⟨.multiplicative, 1e20⟩⟩ }

/-- A service with this combo and a coin that always shows heads. -/
def soaringConfig : Config := ⟨⟨⟨[twoHeads, soarer], by decide⟩, "progress", [], 1⟩, false⟩

/-- A flip of its coins. -/
def soaringRequest : Request where
  method := "POST"
  path := "/api/flip"
  body := "\x7b\"heads_path\":\"heads\",\"tails_path\":\"soar\"\x7d".toUTF8

/-- What this flip orders. -/
def soaringBody : FlipBody := ⟨.text "heads", .text "soar", false, false, none⟩

/-- The faces of the first two coins have a pause, and their flip is answered with success, alone as
among other requests.  A flip that shows half of a character and one whose streak is beyond 64 bits
are recorded, yet the server fails. -/
theorem recorded_flip_answered_iff_clicking :
    (∃ n, (⟨.autoClick 1000, .combo ⟨.multiplicative, 2⟩⟩ : Faces Float).autoClickInterval =
        .ok (some n) ∧ 100 ≤ n) ∧
      (∃ next recorded snapshot reply response,
        callGame clickingConfig (.flip clickingBody.order) [turnedAway]
            (flipReplyJson clickingConfig clickingBody clickingGame.game) =
              .call (.flip clickingBody.order) next ∧
          clickingGame.proceed clickingConfig.setup (.flip clickingBody.order) =
            (recorded, .saving snapshot reply) ∧
          next .fresh (recorded.commit clickingConfig.setup (.flip clickingBody.order) snapshot
            reply).2 = .answer [] response ∧ response.status = 200) ∧
      (answer clickingConfig doublingStart clickingRequest).2.status = 200 ∧
      ((answer lockedConfig doublingStart halvedRequest).1.game.progress.totalFlips = 1 ∧
        (answer lockedConfig doublingStart halvedRequest).2.status = 500) ∧
      (answer soaringConfig doublingStart soaringRequest).1.game.progress.totalFlips = 1 ∧
        (answer soaringConfig doublingStart soaringRequest).2.status = 500 := by
  obtain ⟨hpaces, hlater, hanswers⟩ := recorded_flip_answered_iff clickingConfig
  obtain ⟨clicked, hclicked⟩ : ∃ outcome,
      (clickingGame.flip clickingConfig.setup clickingBody.order).2 = .ok outcome :=
    exists_of_isOk (by decide +kernel)
  have hkept : Keepable (clickingGame.flip clickingConfig.setup clickingBody.order).1.store
      (clickingGame.flip clickingConfig.setup clickingBody.order).1.game.progress :=
    fun _ => by decide +kernel
  refine ⟨?_, ?_, ?_, ?_, ?_⟩
  · obtain ⟨pause, hpause, hnone, hleast⟩ := hpaces
      ⟨.autoClick 1000, .combo ⟨.multiplicative, 2⟩⟩ (some "heads") 0.5 (by decide +kernel)
    cases pause with
    | none => exact absurd (hnone.1 rfl) (by decide)
    | some n => exact ⟨n, hpause, hleast n rfl⟩
  · obtain ⟨next, hcall⟩ : ∃ next,
        callGame clickingConfig (.flip clickingBody.order) [turnedAway]
          (flipReplyJson clickingConfig clickingBody clickingGame.game) =
            .call (.flip clickingBody.order) next := ⟨_, rfl⟩
    rcases hflip : clickingGame.flip clickingConfig.setup clickingBody.order with ⟨u, result⟩
    rw [hflip] at hkept
    obtain rfl : result = .ok clicked := by
      rw [hflip] at hclicked
      exact hclicked
    have hacted : clickingGame.proceed clickingConfig.setup (.flip clickingBody.order) =
        (u, .saving u.game.progress (.flipped clicked)) := by
      rw [World.proceed, World.act_flip_of_ok hflip]
    obtain ⟨outcome, pause, houtcome, hpause, hanswered, -⟩ := hlater clickingBody
      clickingGame.game [turnedAway] next hcall clickingGame u u u.game.progress (.flipped clicked)
      .fresh hacted
    obtain rfl : clicked = outcome := Reply.flipped.inj houtcome
    obtain ⟨saved, hnext⟩ := hanswered ⟨hkept, tellable_clicking hclicked hpause _⟩
    exact ⟨next, u, _, _, _, hcall, hacted, hnext, rfl⟩
  · have hbody : readBody FlipBody.ofMembers clickingRequest.body = .ok clickingBody :=
      eq_ok_of_members (by decide +kernel)
    obtain ⟨-, -, pause, hpause, hanswered, -⟩ := hanswers doublingStart clickingRequest
      clickingBody clicked rfl (by decide +kernel) rfl hbody (by decide) hclicked
    obtain ⟨saved, hanswer⟩ := hanswered ⟨hkept, tellable_clicking hclicked hpause _⟩
    rw [hanswer]
    rfl
  · have hbody : readBody FlipBody.ofMembers halvedRequest.body = .ok halvedBody :=
      eq_ok_of_members (by decide +kernel)
    obtain ⟨outcome, hflip⟩ : ∃ outcome,
        ((doublingStart.run lockedConfig.setup .ensureLoaded).1.flip lockedConfig.setup
          halvedBody.order).2 = .ok outcome := exists_of_isOk (by decide +kernel)
    obtain ⟨hgame, htotal, pause, -, -, hfailed⟩ := (recorded_flip_answered_iff lockedConfig).2.2
      doublingStart halvedRequest halvedBody outcome rfl (by decide +kernel) rfl hbody (by decide)
      hflip
    obtain ⟨reason, hcrash⟩ := hfailed fun h =>
      absurd (h.2.tails rfl (by decide +kernel)) (by decide)
    rw [hgame, hcrash]
    exact ⟨htotal, rfl⟩
  · have hbody : readBody FlipBody.ofMembers soaringRequest.body = .ok soaringBody :=
      eq_ok_of_members (by decide +kernel)
    obtain ⟨outcome, hflip⟩ : ∃ outcome,
        ((doublingStart.run soaringConfig.setup .ensureLoaded).1.flip soaringConfig.setup
          soaringBody.order).2 = .ok outcome := exists_of_isOk (by decide +kernel)
    obtain ⟨hgame, htotal, pause, -, -, hfailed⟩ := (recorded_flip_answered_iff soaringConfig).2.2
      doublingStart soaringRequest soaringBody outcome rfl (by decide +kernel) rfl hbody
      (by decide) hflip
    obtain ⟨reason, hcrash⟩ := hfailed fun h => absurd (h.1 rfl) (by decide +kernel)
    rw [hgame, hcrash]
    exact ⟨htotal, rfl⟩

end Service

end CoinToss

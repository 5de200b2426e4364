import CoinToss.Proofs.Flip.Faults
import CoinToss.Proofs.Service.Sent
import CoinToss.Proofs.Session.Faces
import CoinToss.Proofs.Session.Saving
import CoinToss.Service.Answer

/-!
# CoinToss.Proofs.Service.Landings

Which paths the service records.

A request is answered by a job, and a job changes the game by its calls alone.  The calls that
answering makes are known from the request, so what they can land on is: coins of the catalog, and
the paths that a flip gives for random faces, which nobody looks up.

```
request  --job-->  calls on the session  --run-->  game, answer
```

* `Job.CallsOnly`, `Job.run_keeps` — a job keeps what its calls keep;
* `callsOnly_job` — the calls that answer a request;
* `Asking`, `afterRequests` — requests one after the other;
* `answer_flip_cases` — what answering a flip comes to, by the status;
* `flip_records_faces` — what is recorded.
-/

namespace CoinToss

/-! ## jobs and their calls -/

section Jobs

variable {α : Type}

/-- All calls that a job may make are of some kind. -/
inductive Job.CallsOnly (allowed : Call → Prop) : Job α → Prop
  | answer (records : List Log.Record) (a : α) : CallsOnly allowed (.answer records a)
  | call {c : Call} {next : Game → Result → Job α} (hcall : allowed c)
      (hnext : ∀ g result, CallsOnly allowed (next g result)) : CallsOnly allowed (.call c next)

/-- A job keeps what its calls keep. -/
theorem Job.CallsOnly.run_keeps {allowed : Call → Prop} {keeps : World → Prop} {s : Setup}
    (htell : ∀ w records, keeps w → keeps (w.tell records))
    (hcall : ∀ w c, allowed c → keeps w → keeps (w.run s c).1) {job : Job α}
    (hjob : job.CallsOnly allowed) {w : World} (hw : keeps w) : keeps (job.run s w).1 := by
  induction hjob generalizing w with
  | answer records a => exact htell w records hw
  | call hc _ ih => exact ih _ _ (hcall w _ hc hw)

end Jobs

namespace World

theorem Lands.tell {s : Setup} {known : String → Prop} {w : World} (hw : w.Lands s known)
    (records : List Log.Record) : (w.tell records).Lands s known :=
  ⟨hw.idle, hw.store, hw.game, hw.stored⟩

theorem Lands.meeting {s : Setup} {known : String → Prop} {w : World} (hw : w.Lands s known)
    (faults : Faults) (time : DateTime) : (w.meeting faults time).Lands s known :=
  .of_holds (hw.holds.meeting faults time)

end World

namespace Service

/-! ## answers without calls -/

section Answers

variable {allowed : Call → Prop} (cfg : Config)

theorem callsOnly_crash (reason : String) : (crash cfg reason).CallsOnly allowed := .answer _ _

theorem callsOnly_send (r : Response) : (send cfg r).CallsOnly allowed := by
  unfold send
  split
  · exact .answer _ _
  · exact callsOnly_crash cfg _

theorem callsOnly_tell (j : Except Decimal.NumberFault Json) :
    (tell cfg j).CallsOnly allowed := by
  cases j with
  | ok j => exact callsOnly_send cfg _
  | error fault => exact callsOnly_crash cfg _

theorem callsOnly_visit (hread : allowed .ensureLoaded) {look : Game → Job Response}
    (hlook : ∀ g, (look g).CallsOnly allowed) : (visit look).CallsOnly allowed :=
  .call hread fun g _ => hlook g

theorem callsOnly_callGame {call : Call} (hcall : allowed call) (rejection : List Log.Record)
    (reply : Reply → Except Decimal.NumberFault Json) :
    (callGame cfg call rejection reply).CallsOnly allowed := by
  refine .call hcall fun _ result => ?_
  split
  · exact callsOnly_tell cfg _
  · exact .answer _ _
  · exact callsOnly_crash cfg _

end Answers

/-! ## the calls of a request -/

/-- The flip that a request asks for, if it is one and its body can be read. -/
def Request.flip? (r : Request) : Option FlipBody :=
  if Route.ofPath r.path = .endpoint .flip ∧ r.method = Endpoint.flip.method then
    match readBody FlipBody.ofMembers r.body with
    | .ok b => some b
    | .error _ => none
  else none

/-- The paths that a flip gives for its random faces. -/
def FlipBody.randomPaths (b : FlipBody) : List String :=
  (if b.headsRandom then [b.heads.mended] else []) ++
    if b.tailsRandom then [b.tails.mended] else []

/-- The paths that a request gives for random faces. -/
def Request.randomPaths (r : Request) : List String := (r.flip?.map (·.randomPaths)).getD []

section Known

variable {known : String → Prop}

/-- What a face of a flip shows: a coin of the catalog, or the path that was given for a random face
if nothing could be picked for it. -/
def ShownFor (s : Setup) (p : Progress) (given : GivenPath) (isRandom : Bool) (path : String) :
    Prop :=
  s.catalog.contains path = true ∨
    isRandom = true ∧ path = given.mended ∧
      ∃ source, (pickWeighted s.weights (s.catalog.selectable p) source).1 = none

/-- A face that is not random shows a coin if its path has been looked up. -/
theorem shownFor_of_shows {s : Setup} {p : Progress} {given : GivenPath} {isRandom : Bool}
    {path : String} (hnamed : isRandom = false → isKnown s.catalog given = true)
    (h : s.Shows p given.mended isRandom path) : ShownFor s p given isRandom path := by
  cases h with
  | chosen =>
      have hknown := hnamed rfl
      cases given with
      | text path => exact .inl hknown
      | broken codes => contradiction
  | picked hcoin => exact .inl hcoin
  | unpicked source hnone => exact .inr ⟨rfl, rfl, source, hnone⟩

theorem isKnown_of_named {c : Catalog} {b : FlipBody}
    (h : ∀ path ∈ b.named, isKnown c path = true) :
    (b.headsRandom = false → isKnown c b.heads = true) ∧
      (b.tailsRandom = false → isKnown c b.tails = true) := by
  refine ⟨fun hheads => h b.heads ?_, fun htails => h b.tails ?_⟩
  · rw [FlipBody.named, hheads]
    exact List.mem_append_left _ List.mem_cons_self
  · rw [FlipBody.named, htails]
    exact List.mem_append_right _ List.mem_cons_self

/-- A flip whose paths have been looked up lands on coins, or on what it gives for random faces. -/
theorem landsOn_order {s : Setup} {b : FlipBody}
    (hcatalog : ∀ path, s.catalog.contains path = true → known path)
    (hrandom : ∀ path ∈ b.randomPaths, known path)
    (hnamed : ∀ path ∈ b.named, isKnown s.catalog path = true) :
    (Call.flip b.order).LandsOn s known := by
  intro p path hshows
  obtain ⟨hheads, htails⟩ := isKnown_of_named hnamed
  rcases hshows with h | h
  · obtain hcoin | ⟨hrandomHeads, hpath, -⟩ := shownFor_of_shows hheads h
    · exact hcatalog path hcoin
    · refine hrandom path ?_
      rw [FlipBody.randomPaths, if_pos hrandomHeads, hpath]
      exact List.mem_append_left _ List.mem_cons_self
  · obtain hcoin | ⟨hrandomTails, hpath, -⟩ := shownFor_of_shows htails h
    · exact hcatalog path hcoin
    · refine hrandom path ?_
      rw [FlipBody.randomPaths, if_pos hrandomTails, hpath]
      exact List.mem_append_right _ List.mem_cons_self

/-- Paths are looked up before anything else is done with them. -/
theorem withCoins_cases (cfg : Config) (paths : List GivenPath) (next : Job Response) :
    (∃ path, withCoins cfg paths next = send cfg (.unknownCoin path)) ∨
      withCoins cfg paths next = next ∧
        ∀ path ∈ paths, isKnown cfg.setup.catalog path = true := by
  unfold withCoins
  cases hfind : paths.find? fun path => !isKnown cfg.setup.catalog path with
  | some path => exact .inl ⟨path, rfl⟩
  | none =>
      refine .inr ⟨rfl, fun path hpath => ?_⟩
      simpa using List.find?_eq_none.1 hfind path hpath

/-- Answering a request lands on coins, or on what the request gives for random faces. -/
theorem callsOnly_job (cfg : Config) (r : Request)
    (hcatalog : ∀ path, cfg.setup.catalog.contains path = true → known path)
    (hrandom : ∀ path ∈ r.randomPaths, known path) :
    (job cfg r).CallsOnly (Call.LandsOn cfg.setup known) := by
  have hread : Call.ensureLoaded.LandsOn cfg.setup known := trivial
  unfold job
  split
  · exact .answer _ _
  · exact .answer _ _
  · next e hroute =>
    split
    · next hmethod =>
      cases e with
      | coins => exact callsOnly_visit hread fun g => callsOnly_tell cfg _
      | coin path =>
          refine callsOnly_visit hread fun g => ?_
          split
          · exact callsOnly_tell cfg _
          · exact callsOnly_send cfg _
      | standing => exact callsOnly_visit hread fun g => callsOnly_send cfg _
      | reset => exact callsOnly_visit hread fun g => callsOnly_callGame cfg trivial _ _
      | unlock =>
          rw [Endpoint.job]
          split
          · exact callsOnly_send cfg _
          · next path _ =>
            refine callsOnly_visit hread fun g => ?_
            obtain ⟨_, hunknown⟩ | ⟨hknown, -⟩ := withCoins_cases cfg [path]
              (callGame cfg (.unlock path.mended) [] replyJson)
            · rw [hunknown]
              exact callsOnly_send cfg _
            · rw [hknown]
              exact callsOnly_callGame cfg trivial _ _
      | flip =>
          rw [Endpoint.job]
          split
          · exact callsOnly_send cfg _
          · next b hbody =>
            refine callsOnly_visit hread fun g => ?_
            obtain ⟨_, hunknown⟩ | ⟨hknown, hnamed⟩ := withCoins_cases cfg b.named
              (callGame cfg (.flip b.order) [turnedAway] (flipReplyJson cfg b g))
            · rw [hunknown]
              exact callsOnly_send cfg _
            · rw [hknown]
              refine callsOnly_callGame cfg
                (landsOn_order hcatalog (fun path hpath => ?_) hnamed) _ _
              refine hrandom path ?_
              rw [Request.randomPaths, Request.flip?, if_pos ⟨hroute, hmethod⟩, hbody]
              exact hpath
    · exact .answer _ _

end Known

/-! ## requests one after the other -/

/-- A request that comes at a time, while the store is in such order. -/
structure Asking where
  request : Request
  faults : Faults
  time : DateTime

/-- The world after requests, one after the other. -/
def afterRequests (cfg : Config) (w : World) (as : List Asking) : World :=
  as.foldl (fun w a => (answer cfg (w.meeting a.faults a.time) a.request).1) w

section Requests

variable {known : String → Prop} {cfg : Config}

theorem lands_answer {w : World} (hw : w.Lands cfg.setup known) (r : Request)
    (hcatalog : ∀ path, cfg.setup.catalog.contains path = true → known path)
    (hrandom : ∀ path ∈ r.randomPaths, known path) :
    (answer cfg w r).1.Lands cfg.setup known :=
  (callsOnly_job cfg r hcatalog hrandom).run_keeps (fun _ records hw => hw.tell records)
    (fun _ _ hcall hw => hw.run hcall) hw

theorem lands_afterRequests {w : World} (hw : w.Lands cfg.setup known) {as : List Asking}
    (hcatalog : ∀ path, cfg.setup.catalog.contains path = true → known path)
    (hrandom : ∀ a ∈ as, ∀ path ∈ a.request.randomPaths, known path) :
    (afterRequests cfg w as).Lands cfg.setup known := by
  induction as generalizing w with
  | nil => exact hw
  | cons a as ih =>
      exact ih (lands_answer (hw.meeting a.faults a.time) a.request hcatalog
        (hrandom a List.mem_cons_self)) fun b hb => hrandom b (List.mem_cons_of_mem a hb)

end Requests

/-! ## answering a flip -/

section Flip

variable (cfg : Config) (w : World)

/-- Sending changes the log alone; it may fail. -/
theorem run_send (r : Response) :
    ∃ records, ((send cfg r).run cfg.setup w).1 = w.tell records ∧
      (r.content?.bind sendFault? = none ∧ ((send cfg r).run cfg.setup w).2 = r ∨
        ((send cfg r).run cfg.setup w).2.status = 500) := by
  unfold send
  split
  · next hsent => exact ⟨_, rfl, .inl ⟨hsent, rfl⟩⟩
  · exact ⟨_, rfl, .inr rfl⟩

/-- Nothing has been recorded: the game stands where it stood, and the store is as it was. -/
structure Unrecorded (s : Setup) (before after : World) : Prop where
  standing : after.standing s = before.standing s
  streak : after.game.streak = before.game.streak
  last : after.game.last = before.game.last
  store : after.store = before.store

theorem found_ensureLoaded (s : Setup) : w.found s .ensureLoaded = w.standing s := by
  unfold World.found World.standing Call.needsRead
  cases w.game.loaded <;> rfl

/-- Reading saved progress records nothing. -/
theorem unrecorded_ensureLoaded (s : Setup) (hidle : w.game.busy = false) :
    Unrecorded s w (w.run s .ensureLoaded).1 := by
  have hact : (w.opened s .ensureLoaded).act s .ensureLoaded =
      (w.opened s .ensureLoaded, .done (.ok .nothing)) := rfl
  have hgame := w.opened_game s .ensureLoaded
  rw [World.run_of_done hidle hact]
  refine ⟨?_, ?_, ?_, w.opened_store s .ensureLoaded⟩
  · show (w.opened s .ensureLoaded).standing s = _
    rw [World.standing, hgame, ← found_ensureLoaded]
    rfl
  · show (w.opened s .ensureLoaded).game.streak = _
    rw [hgame]
    rfl
  · show (w.opened s .ensureLoaded).game.last = _
    rw [hgame]
    rfl

/-- A flip on an idle game is not turned away. -/
theorem not_busy_run_flip (s : Setup) (o : FlipOrder) (hidle : w.game.busy = false) :
    (w.run s (.flip o)).2 ≠ .error .busy := by
  intro hbusy
  obtain ⟨_, hfault, -, -⟩ | ⟨outcome, _, _, _, -, hsaved⟩ := World.run_flip_cases s o hidle
  · rw [hfault] at hbusy
    cases hbusy
  · have hresult := congrArg (·.1) hsaved
    change (w.run s (.flip o)).2 = _ at hresult
    rw [hbusy] at hresult
    cases hsaving : saveProgress? w.store s.key (w.run s (.flip o)).1.game.progress with
    | none =>
        rw [hsaving] at hresult
        cases hresult
    | some saving =>
        rw [hsaving] at hresult
        cases hresult

/-- What the game comes to by a call is not changed by telling of it. -/
theorem game_run_callGame (call : Call) (rejection : List Log.Record)
    (reply : Reply → Except Decimal.NumberFault Json) :
    ((callGame cfg call rejection reply).run cfg.setup w).1.game =
      (w.run cfg.setup call).1.game := by
  rw [callGame, Job.run]
  generalize w.run cfg.setup call = ran
  obtain ⟨u, result⟩ := ran
  have htell : ∀ v records, v.game = u.game → (World.tell v records).game = u.game :=
    fun _ _ h => h
  have hanswers {job : Job Response} (h : job.CallsOnly fun _ => False) :
      (job.run cfg.setup u).1.game = u.game :=
    h.run_keeps htell (fun _ _ h => h.elim) rfl
  cases result with
  | ok r => exact hanswers (callsOnly_tell cfg _)
  | error fault =>
      cases fault with
      | busy => exact hanswers (.answer _ _)
      | number fault => exact hanswers (callsOnly_crash cfg _)
      | unstorable => exact hanswers (callsOnly_crash cfg _)

/-- A flip that has been let through is answered with its faces, or the server fails. -/
theorem run_callGame_flip (hidle : w.game.busy = false) (hloaded : w.game.loaded = true)
    {b : FlipBody} (hnamed : ∀ path ∈ b.named, isKnown cfg.setup.catalog path = true) (g : Game) :
    let ran := (callGame cfg (.flip b.order) [turnedAway] (flipReplyJson cfg b g)).run cfg.setup w
    (∃ outcome j, flipJson cfg b g outcome = .ok j ∧ sendFault? j = none ∧ ran.2 = .ok j ∧
        ShownFor cfg.setup w.game.progress b.heads b.headsRandom outcome.heads ∧
        ShownFor cfg.setup w.game.progress b.tails b.tailsRandom outcome.tails) ∨
      ran.2.status = 500 := by
  have hbusy := not_busy_run_flip w cfg.setup b.order hidle
  obtain ⟨hheads, htails⟩ := isKnown_of_named hnamed
  intro ran
  unfold ran
  rw [callGame, Job.run]
  dsimp only
  cases hresult : (w.run cfg.setup (.flip b.order)).2 with
  | error fault =>
      cases fault with
      | busy => exact absurd hresult hbusy
      | number fault => exact .inr rfl
      | unstorable => exact .inr rfl
  | ok r =>
      obtain ⟨outcome, rfl, hshowsHeads, hshowsTails⟩ := World.run_flip_shows hidle hresult
      rw [World.found_of_loaded hloaded (by simp)] at hshowsHeads hshowsTails
      dsimp only
      rw [flipReplyJson]
      cases hjson : flipJson cfg b g outcome with
      | error fault => exact .inr rfl
      | ok j =>
          obtain ⟨records, -, ⟨hsent, hanswer⟩ | hfailed⟩ :=
            run_send cfg (w.run cfg.setup (.flip b.order)).1 (.ok j)
          · exact .inl ⟨outcome, j, hjson, hsent, hanswer, shownFor_of_shows hheads hshowsHeads,
              shownFor_of_shows htails hshowsTails⟩
          · exact .inr hfailed

/-- A request that reaches an endpoint, with its method, is for the endpoint to answer. -/
theorem job_of_endpoint {r : Request} {e : Endpoint} (hroute : Route.ofPath r.path = .endpoint e)
    (hmethod : r.method = e.method) : job cfg r = e.job cfg r.body := by
  rw [job, hroute]
  exact if_pos hmethod

/-- A flip whose paths have been looked up is answered by its call, once the game has been read. -/
theorem answer_flip_eq {r : Request} (hroute : Route.ofPath r.path = .endpoint .flip)
    (hmethod : r.method = Endpoint.flip.method) {b : FlipBody}
    (hbody : readBody FlipBody.ofMembers r.body = .ok b)
    (hnamed : ∀ path ∈ b.named, isKnown cfg.setup.catalog path = true) :
    answer cfg w r =
      let read := (w.run cfg.setup .ensureLoaded).1
      (callGame cfg (.flip b.order) [turnedAway] (flipReplyJson cfg b read.game)).run cfg.setup
        read := by
  have hlookup (next : Job Response) : withCoins cfg b.named next = next := by
    rw [withCoins, List.find?_eq_none.2 fun path hpath => by simp [hnamed path hpath]]
  rw [answer, job_of_endpoint cfg hroute hmethod, Endpoint.job, hbody]
  dsimp only
  rw [visit, Job.run]
  dsimp only
  rw [hlookup]

/-- A flip whose paths have been looked up changes the game as the call does. -/
theorem game_answer_flip {r : Request} (hroute : Route.ofPath r.path = .endpoint .flip)
    (hmethod : r.method = Endpoint.flip.method) {b : FlipBody}
    (hbody : readBody FlipBody.ofMembers r.body = .ok b)
    (hnamed : ∀ path ∈ b.named, isKnown cfg.setup.catalog path = true) :
    (answer cfg w r).1.game =
      ((w.run cfg.setup .ensureLoaded).1.run cfg.setup (.flip b.order)).1.game := by
  rw [answer_flip_eq cfg w hroute hmethod hbody hnamed, game_run_callGame]

/-- What answering a flip comes to.  An answer of success tells of faces that the flip may show;
any other answer but an error of the server means that nothing has been recorded. -/
theorem answer_flip_cases {w : World} (hidle : w.game.busy = false) {r : Request}
    (hroute : Route.ofPath r.path = .endpoint .flip) (hmethod : r.method = Endpoint.flip.method) :
    (∃ b g outcome j, readBody FlipBody.ofMembers r.body = .ok b ∧
        flipJson cfg b g outcome = .ok j ∧ sendFault? j = none ∧ (answer cfg w r).2 = .ok j ∧
        ShownFor cfg.setup (w.standing cfg.setup) b.heads b.headsRandom outcome.heads ∧
        ShownFor cfg.setup (w.standing cfg.setup) b.tails b.tailsRandom outcome.tails) ∨
      (answer cfg w r).2.status = 500 ∨
      (answer cfg w r).2.status ≠ 200 ∧ Unrecorded cfg.setup w (answer cfg w r).1 := by
  rw [answer, job_of_endpoint cfg hroute hmethod, Endpoint.job]
  cases hbody : readBody FlipBody.ofMembers r.body with
  | error fault =>
      dsimp only
      obtain ⟨records, hworld, ⟨-, hsent⟩ | hfailed⟩ := run_send cfg w (.ofBodyFault fault)
      · refine .inr (.inr ⟨?_, ?_⟩)
        · rw [hsent]
          cases fault with
          | unreadable => decide
          | rejected reasons =>
              show 422 ≠ 200
              decide
        · rw [hworld]
          exact ⟨rfl, rfl, rfl, rfl⟩
      · exact .inr (.inl hfailed)
  | ok b =>
      have hread := unrecorded_ensureLoaded w cfg.setup hidle
      have hrest := World.idle_run cfg.setup .ensureLoaded hidle
      have hloaded := World.loaded_run cfg.setup .ensureLoaded hidle
      have hstanding := World.standing_of_loaded cfg.setup hloaded
      dsimp only
      rw [visit, Job.run]
      dsimp only
      generalize (w.run cfg.setup .ensureLoaded).1 = v at hread hrest hloaded hstanding ⊢
      obtain ⟨path, hunknown⟩ | ⟨hknown, hnamed⟩ := withCoins_cases cfg b.named
        (callGame cfg (.flip b.order) [turnedAway] (flipReplyJson cfg b v.game))
      · rw [hunknown]
        obtain ⟨records, hworld, ⟨-, hsent⟩ | hfailed⟩ := run_send cfg v (.unknownCoin path)
        · refine .inr (.inr ⟨?_, ?_⟩)
          · rw [hsent]
            show 404 ≠ 200
            decide
          · rw [hworld]
            exact ⟨hread.standing, hread.streak, hread.last, hread.store⟩
        · exact .inr (.inl hfailed)
      · rw [hknown]
        obtain ⟨outcome, j, hjson, hsent, hanswer, hheads, htails⟩ | hfailed :=
          run_callGame_flip cfg v hrest hloaded hnamed v.game
        · rw [← hstanding, hread.standing] at hheads htails
          exact .inl ⟨b, v.game, outcome, j, rfl, hjson, hsent, hanswer, hheads, htails⟩
        · exact .inr (.inl hfailed)

/-- An answer to a flip that is sent tells of both faces. -/
theorem field?_flipJson {b : FlipBody} {g : Game} {outcome : Outcome} {j : Json}
    (h : flipJson cfg b g outcome = .ok j) (hsent : sendFault? j = none) :
    j.field? "heads_path" = some (.string outcome.heads) ∧
      j.field? "tails_path" = some (.string outcome.tails) := by
  obtain ⟨pause, -, hjson⟩ := bind_eq_ok.1 h
  rw [← Except.ok.inj hjson] at hsent ⊢
  have hmembers := sendFault?_object_eq_none_iff.1 hsent
  simp only [flipMembers, Outcome.membersWith, List.cons_append, List.nil_append,
    List.forall_mem_cons] at hmembers
  obtain ⟨-, -, hheads, htails, -⟩ := hmembers
  simp [Json.field?, flipMembers, Outcome.membersWith, Json.Members.field?,
    told_eq_string hheads, told_eq_string htails]

end Flip

/-- Which faces the service shows and records, over an empty store and after any requests.

* A flip that is answered with success tells of faces that are coins of the catalog, a random face
  for which nothing can be picked apart: that one shows the path the body gives for it.
* A flip that is answered otherwise, an error of the server apart, has recorded nothing.
* All that is ever recorded as landed on is a coin, or was given by a flip for a random face. -/
theorem flip_records_faces (cfg : Config) {w : World} {st : Store} (hfresh : w.game = .fresh)
    (hstore : w.store = some st) (hempty : st.blobs.get? cfg.setup.key = none)
    (earlier : List Asking) (a : Asking) :
    let before := (afterRequests cfg w earlier).meeting a.faults a.time
    let after := (answer cfg before a.request).1
    let response := (answer cfg before a.request).2
    (Route.ofPath a.request.path = .endpoint .flip → a.request.method = Endpoint.flip.method →
        (response.status = 200 → ∃ b heads tails j,
          readBody FlipBody.ofMembers a.request.body = .ok b ∧ response.content = .json j ∧
            j.field? "heads_path" = some (.string heads) ∧
            j.field? "tails_path" = some (.string tails) ∧
            ShownFor cfg.setup (before.standing cfg.setup) b.heads b.headsRandom heads ∧
            ShownFor cfg.setup (before.standing cfg.setup) b.tails b.tailsRandom tails) ∧
        (response.status ≠ 200 → response.status ≠ 500 →
          Unrecorded cfg.setup before after)) ∧
      ∀ path ∈ after.game.progress.landings.keys, cfg.setup.catalog.contains path = true ∨
        ∃ asked ∈ earlier ++ [a], path ∈ asked.request.randomPaths := by
  intro before after response
  let known (path : String) : Prop := cfg.setup.catalog.contains path = true ∨
    ∃ asked ∈ earlier ++ [a], path ∈ asked.request.randomPaths
  have hcatalog : ∀ path, cfg.setup.catalog.contains path = true → known path := fun _ => .inl
  have hrandom : ∀ asked ∈ earlier ++ [a], ∀ path ∈ asked.request.randomPaths, known path :=
    fun asked hasked path hpath => .inr ⟨asked, hasked, hpath⟩
  have hstart : w.Lands cfg.setup known :=
    .of_holds (.of_fresh (Progress.landsOn_empty known) hfresh hstore hempty)
  have hbefore : before.Lands cfg.setup known :=
    (lands_afterRequests hstart hcatalog fun b hb =>
      hrandom b (List.mem_append_left [a] hb)).meeting a.faults a.time
  have hafter : after.Lands cfg.setup known :=
    lands_answer hbefore a.request hcatalog (hrandom a (by simp))
  refine ⟨fun hroute hmethod => ?_, hafter.game⟩
  obtain ⟨b, g, outcome, j, hbody, hjson, hsent, hanswer, hheads, htails⟩ | hfailed |
      ⟨hstatus, hnothing⟩ := answer_flip_cases cfg hbefore.idle hroute hmethod
  · have hresponse : response = .ok j := hanswer
    obtain ⟨hfieldHeads, hfieldTails⟩ := field?_flipJson cfg hjson hsent
    refine ⟨fun _ => ⟨b, outcome.heads, outcome.tails, j, hbody, ?_, hfieldHeads, hfieldTails,
      hheads, htails⟩, fun h200 => ?_⟩
    · rw [hresponse]
      rfl
    · rw [hresponse] at h200
      exact absurd rfl h200
  · have hresponse : response.status = 500 := hfailed
    refine ⟨fun h200 => ?_, fun _ h500 => absurd hresponse h500⟩
    rw [hresponse] at h200
    contradiction
  · exact ⟨fun h200 => absurd h200 hstatus, fun _ _ => hnothing⟩

/-! ## a path of no coin -/

/-- A coin that always shows heads, and is locked for five flips. -/
def lockedTwoHeads : Coin :=
  { twoHeads with unlock := some ⟨.totalFlips 5, [], "", "", .common⟩ }

/-- A service with the coin alone, so that nothing can be picked at first. -/
def lockedConfig : Config := ⟨⟨⟨[lockedTwoHeads], by decide⟩, "progress", [], 1⟩, false⟩

/-- A flip with a random face that falls back on a path of no coin. -/
def unlistedFlip : Asking where
  request :=
    { method := "POST"
      path := "/api/flip"
      body := "\x7b\"heads_path\":\"nope\",\"tails_path\":\"heads\",\"heads_random\":true\x7d".toUTF8 }
  faults := {}
  time := firstOfMay

/-- What the flip orders. -/
def unlistedBody : FlipBody := ⟨.text "nope", .text "heads", true, false, none⟩

/-- A flip that gives no multiplier is told by its other members. -/
theorem eq_ok_of_members {read : Except BodyFault FlipBody} {heads tails : GivenPath}
    {headsRandom tailsRandom : Bool}
    (h : read.toOption.map
      (fun b => (b.heads, b.tails, b.headsRandom, b.tailsRandom, b.multiplier.isNone)) =
        some (heads, tails, headsRandom, tailsRandom, true)) :
    read = .ok ⟨heads, tails, headsRandom, tailsRandom, none⟩ := by
  cases read with
  | error fault => cases h
  | ok b =>
      obtain ⟨_, _, _, _, multiplier⟩ := b
      simp only [Except.toOption, Option.map_some, Option.some.injEq, Prod.mk.injEq,
        Option.isNone_iff_eq_none] at h
      obtain ⟨rfl, rfl, rfl, rfl, rfl⟩ := h
      rfl

theorem readBody_unlistedFlip :
    readBody FlipBody.ofMembers unlistedFlip.request.body = .ok unlistedBody :=
  eq_ok_of_members (by decide +kernel)

/-- The world after the flip. -/
def unlistedEnd : World :=
  (answer lockedConfig ((afterRequests lockedConfig doublingStart []).meeting unlistedFlip.faults
    unlistedFlip.time) unlistedFlip.request).1

theorem landings_unlistedEnd : unlistedEnd.game.progress.landings.keys = ["nope"] := by
  have hroute : Route.ofPath unlistedFlip.request.path = .endpoint .flip := by decide +kernel
  have hstart : (afterRequests lockedConfig doublingStart []).meeting unlistedFlip.faults
      unlistedFlip.time = doublingStart := rfl
  have hidle : (doublingStart.run lockedConfig.setup .ensureLoaded).1.game.busy = false := rfl
  obtain ⟨source, hflip⟩ := World.flip_of_nothing_selectable (s := lockedConfig.setup)
    (w := (doublingStart.run lockedConfig.setup .ensureLoaded).1.opened lockedConfig.setup
      (.flip unlistedBody.order))
    (show lockedConfig.setup.catalog.selectable .empty = [] from rfl) unlistedBody.order
  rw [unlistedEnd, hstart, game_answer_flip lockedConfig doublingStart hroute rfl
    readBody_unlistedFlip (by decide), World.run_game _ _ hidle, World.act_flip, hflip]
  rfl

/-- The flip lands on the path of no coin, and the landing is recorded. -/
theorem flip_records_faces_unlisted :
    lockedConfig.setup.catalog.contains "nope" = false ∧
      "nope" ∈ unlistedEnd.game.progress.landings.keys ∧
      "nope" ∈ unlistedFlip.request.randomPaths := by
  have hcoin : lockedConfig.setup.catalog.contains "nope" = false := by decide
  have hrecorded : "nope" ∈ unlistedEnd.game.progress.landings.keys := by
    rw [landings_unlistedEnd]
    exact List.mem_cons_self
  have hkeys : ∀ path ∈ unlistedEnd.game.progress.landings.keys,
      lockedConfig.setup.catalog.contains path = true ∨
        ∃ asked ∈ [] ++ [unlistedFlip], path ∈ asked.request.randomPaths := by
    unfold unlistedEnd
    exact (flip_records_faces lockedConfig (w := doublingStart) rfl
      (show doublingStart.store = some (.empty .memory) from rfl) rfl [] unlistedFlip).2
  obtain hlisted | ⟨asked, hasked, hgiven⟩ := hkeys "nope" hrecorded
  · exact absurd (hcoin.symm.trans hlisted) (by decide)
  · rw [List.mem_singleton.1 hasked] at hgiven
    exact ⟨hcoin, hrecorded, hgiven⟩

end Service

end CoinToss

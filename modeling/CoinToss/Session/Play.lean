import CoinToss.Session.Basic

/-!
# CoinToss.Session.Play

What each call does to the game once saved progress has been read.

A flip shows the faces, draws, works out the streak, records the landing and rolls the chance
coins.  All that can fail comes before anything is recorded, as long as the streak and the counts
have at most `digitLimit` digits: the records of a flip tell them whatever their size, while a host
that writes no longer integers fails there.

* `nextStreak` — one more of the same, or a new start;
* `World.act` — what a call does and whether progress is to be saved then.
-/

namespace CoinToss

open Decimal

/-! ## flipping -/

/-- What the coin at a path does on a face. -/
def Catalog.effectAt (c : Catalog) (path : String) : Effect Float :=
  ((c.get? path).map (·.faceEffect)).getD .none

/-- The effects of the coins at two paths. -/
def Catalog.faces (c : Catalog) (heads tails : String) : Faces Float :=
  ⟨c.effectAt heads, c.effectAt tails⟩

/-- The streak after a result: one more of the same, or a new start. -/
def nextStreak (last : Option Side) (streak : Int) (side : Side) : Int :=
  if last = some side then streak + 1 else 1

/-- A decided flip with the streak it makes. -/
structure Decision where
  side : Side
  odds : Float
  streak : Int

/-- Decides a flip and its streak. -/
def decideFlip (faces : Faces Float) (last : Option Side) (streak : Int) (draw : Float) :
    Except NumberFault Decision := do
  let r ← faces.resolve last draw
  pure ⟨r.side, r.odds, ← faces.comboStreak (nextStreak last streak r.side)⟩

/-- The paths shown on the two faces. -/
def World.showFaces (s : Setup) (w : World) (o : FlipOrder) : (String × String) × World :=
  let (heads, source) :=
    showFace s.catalog w.game.progress s.weights o.heads o.headsRandom w.source
  let (tails, source) :=
    showFace s.catalog w.game.progress s.weights o.tails o.tailsRandom source
  ((heads, tails), { w with source := source })

/-- The next draw. -/
def World.draw (w : World) : Float × World :=
  let (x, source) := w.source.draw
  (x, { w with source := source })

/-- Rolls the chance coins for a landing. -/
def World.rollChances (s : Setup) (w : World) (l : Landing) (multiplier : Float) :
    World × List Coin :=
  let ((p, source), lucky) := rollAll s.catalog l multiplier w.clock w.game.progress w.source
  (({ w with source := source }.setProgress p).tell (lucky.map LuckyUnlock.record), lucky.map (·.coin))

/-- Records a landing. -/
def World.trackLanding (s : Setup) (w : World) (l : Landing) (streak : Int) :
    World × List Coin :=
  let (p, tracked) := w.game.progress.track s.catalog l streak w.clock
  ((w.setProgress p).tell (tracked.records p.totalFlips), tracked.unlocked)

/-- Records a decided flip and rolls the chance coins. -/
def World.recordFlip (s : Setup) (w : World) (o : FlipOrder) (heads tails : String)
    (d : Decision) : World × Outcome :=
  let landed :=
    match d.side with
    | .heads => heads
    | .tails => tails
  let l : Landing := ⟨landed, d.side, some heads, some tails⟩
  let w := { w with game := { w.game with streak := d.streak, last := some d.side } }
  let (w, unlocked) := w.trackLanding s l d.streak
  let multiplier := (s.catalog.faces heads tails).luck (o.multiplier.getD s.multiplier)
  let (w, lucky) := w.rollChances s l multiplier
  (w, ⟨d.side, landed, heads, tails, d.odds, d.streak, unlocked, lucky, false⟩)

/-- A whole flip, but for saving it. -/
def World.flip (s : Setup) (w : World) (o : FlipOrder) : World × Except NumberFault Outcome :=
  let ((heads, tails), w) := w.showFaces s o
  let (draw, w) := w.draw
  match decideFlip (s.catalog.faces heads tails) w.game.last w.game.streak draw with
  | .error fault => (w, .error fault)
  | .ok d =>
    let (w, outcome) := w.recordFlip s o heads tails d
    (w, .ok outcome)

/-- What is logged of a saved flip. -/
def Outcome.record (o : Outcome) (flips : Int) : Log.Record :=
  Log.record Log.debug "session" <|
    "Flip #" ++ intText flips ++ ": " ++ o.side.word ++ " on " ++ o.landed ++ " (p_heads=" ++
      fixedText 2 o.odds ++ ", streak=" ++ intText o.streak ++ ")"

/-! ## acting -/

/-- What a call has come to when it has acted. -/
inductive Acted where
  | done (result : Result)
  /-- Progress is to be saved before the reply is given. -/
  | save (reply : Reply)

/-- What a call does once saved progress has been read. -/
def World.act (s : Setup) (w : World) : Call → World × Acted
  | .flip o =>
    match w.flip s o with
    | (w, .error fault) => (w, .done (.error (.number fault)))
    | (w, .ok outcome) => (w, .save (.flipped outcome))
  | .track l streak =>
    let (w, unlocked) := w.trackLanding s l streak
    (w, .save (.coins unlocked))
  | .roll l multiplier =>
    let (w, lucky) := w.rollChances s l multiplier
    (w, if lucky.isEmpty then .done (.ok (.coins [])) else .save (.coins lucky))
  | .unlock path =>
    let (p, changed) := w.game.progress.unlockByHand path w.clock
    (w.setProgress p, if changed then .save (.changed true) else .done (.ok (.changed false)))
  | .reset =>
    let w := { w with game := { w.game with progress := .empty, streak := 0, last := none } }
    (w.tell [Log.record Log.info "session" "Progress reset"], .save (.saved false))
  | .load | .ensureLoaded => (w, .done (.ok .nothing))

end CoinToss

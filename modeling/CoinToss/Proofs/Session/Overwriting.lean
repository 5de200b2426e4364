import CoinToss.Proofs.Session.Agreement
import Mathlib.Data.List.Induction

/-!
# CoinToss.Proofs.Session.Overwriting

When stored progress is lost.

A session that cannot read saved progress starts afresh, and from then on cannot tell its new
progress from what it should have read: its next save that is kept overwrites what is stored.  Of
sessions that are not reset, nothing else makes stored progress less.

```
blind, kept save      stored := the game's progress, whatever was stored
anything else         stored grows
```

* `Course` — a session with word of whether it goes on from progress it could not read;
* `Course.Sound` — a session that does not holds all that is stored, and keeps that up;
* `Course.stored_grows_or_overwritten` — one happening;
* `stored_grows_unless_overwritten` — a run of them.
-/

namespace CoinToss

/-- Whether a happening resets progress. -/
def Happening.isReset : Happening → Bool
  | .call .reset _ _ => true
  | _ => false

/-- A session, and whether its progress goes back to a read that failed. -/
structure Course where
  world : World
  blind : Bool := false

namespace Course

/-- What happens to a session also decides whether it goes on from a read that failed. -/
def happen (s : Setup) (c : Course) (h : Happening) : Course where
  world := c.world.happen s h
  blind :=
    match h with
    | .renew _ => false
    | .call call faults _ => if call.needsRead c.world.game then faults.read.isSome else c.blind

/-- The session after all this has happened. -/
def afterAll (s : Setup) (c : Course) (hs : List Happening) : Course := hs.foldl (happen s) c

/-- Whether a happening overwrites what is stored: a save that is kept, in a session that goes on
from a read that failed. -/
def overwrites (s : Setup) (c : Course) : Happening → Bool
  | .renew _ => false
  | .call call faults time =>
    (c.happen s (.call call faults time)).blind &&
      decide ((c.world.meeting faults time).fate s call = .kept)

theorem afterAll_snoc (s : Setup) (c : Course) (hs : List Happening) (h : Happening) :
    c.afterAll s (hs ++ [h]) = (c.afterAll s hs).happen s h := by
  rw [afterAll, List.foldl_append]
  rfl

/-- A session at rest over a store that holds progress, all of which the game holds too if the
session has read it. -/
structure Sound (s : Setup) (c : Course) (p : Progress) : Prop where
  idle : c.world.game.busy = false
  store : ∃ st, c.world.store = some st
  stored : c.world.stored s = some p
  grown : c.world.game.loaded = true → c.blind = false → p.Grows c.world.game.progress

/-- A call finds all that is stored, unless the session is blind then. -/
theorem Sound.found {s : Setup} {c : Course} {p : Progress} (hc : c.Sound s p) (call : Call)
    (faults : Faults) (time : DateTime)
    (hsight : (c.happen s (.call call faults time)).blind = false) :
    p.Grows ((c.world.meeting faults time).found s call) := by
  obtain ⟨hidle, ⟨st, hst⟩, hstored, hgrown⟩ := hc
  have hmeeting := World.store_meeting hst faults time
  rw [World.found]
  change (if call.needsRead c.world.game then faults.read.isSome else c.blind) = false at hsight
  change p.Grows (if call.needsRead c.world.game then _ else c.world.game.progress)
  by_cases hread : call.needsRead c.world.game = true
  · rw [if_pos hread] at hsight ⊢
    have hp := World.loadProgress_of_stored hmeeting (by simpa using hsight)
      ((World.stored_meeting s c.world faults time).trans hstored)
    rw [hp]
    exact .refl p
  · rw [if_neg hread] at hsight ⊢
    exact hgrown (Call.loaded_of_needsRead (Bool.eq_false_iff.2 hread)) hsight

/-- A happening lets stored progress grow, or overwrites it. -/
theorem Sound.happen {s : Setup} {c : Course} {p : Progress} (hc : c.Sound s p) {h : Happening}
    (hreset : h.isReset = false) :
    ∃ q, (c.happen s h).Sound s q ∧
      (p.Grows q ∨ c.overwrites s h = true ∧ q = (c.happen s h).world.game.progress) := by
  cases h with
  | renew source =>
      exact ⟨p, ⟨rfl, hc.store, hc.stored, fun hloaded => absurd hloaded Bool.false_ne_true⟩,
        .inl (.refl p)⟩
  | call call faults time =>
      have hfound := hc.found call faults time
      obtain ⟨hidle, ⟨st, hst⟩, hstored, -⟩ := hc
      have hmeeting := World.store_meeting hst faults time
      have hcall : call ≠ .reset := by
        rintro rfl
        contradiction
      have hquiet : (c.world.meeting faults time).game.busy = false := hidle
      have hgrows := World.grows_run s hquiet hcall
      have hrun := World.stored_run s call hquiet hmeeting
      obtain ⟨next, hnext, -⟩ := World.blobs_run s call hquiet hmeeting
      have hrest := World.idle_run s call hquiet
      by_cases hkept : (c.world.meeting faults time).fate s call = .kept
      · rw [if_pos hkept] at hrun
        refine ⟨_, ⟨hrest, ⟨next, hnext⟩, hrun, fun _ _ => .refl _⟩, ?_⟩
        cases hblind : (c.happen s (.call call faults time)).blind with
        | false => exact .inl ((hfound hblind).trans hgrows)
        | true => exact .inr ⟨by rw [overwrites, hblind, hkept]; rfl, rfl⟩
      · rw [if_neg hkept, World.stored_meeting, hstored] at hrun
        exact ⟨p, ⟨hrest, ⟨next, hnext⟩, hrun, fun _ hblind => (hfound hblind).trans hgrows⟩,
          .inl (.refl p)⟩

theorem Sound.afterAll {s : Setup} {c : Course} {p : Progress} (hc : c.Sound s p)
    {hs : List Happening} (hreset : ∀ h ∈ hs, h.isReset = false) :
    ∃ q, (c.afterAll s hs).Sound s q ∧
      ((∀ k h, k ++ [h] <+: hs → (c.afterAll s k).overwrites s h = false) → p.Grows q) := by
  induction hs using List.reverseRecOn with
  | nil => exact ⟨p, hc, fun _ => .refl p⟩
  | append_singleton hs h ih =>
      obtain ⟨q, hq, hgrows⟩ := ih fun k hk => hreset k (List.mem_append_left [h] hk)
      obtain ⟨r, hr, hcases⟩ := hq.happen (hreset h (by simp))
      rw [afterAll_snoc]
      refine ⟨r, hr, fun hnone => ?_⟩
      have hearlier := hgrows fun k h' hk => hnone k h' (hk.trans (List.prefix_append hs [h]))
      obtain hlast | ⟨hover, -⟩ := hcases
      · exact hearlier.trans hlast
      · rw [hnone hs h List.prefix_rfl] at hover
        contradiction

end Course

theorem Course.world_afterAll (s : Setup) (c : Course) (hs : List Happening) :
    (c.afterAll s hs).world = c.world.afterAll s hs := by
  induction hs generalizing c with
  | nil => rfl
  | cons h hs ih => exact ih (c.happen s h)

/-- A session that has just been opened over a store that holds progress. -/
theorem Course.sound_of_fresh {s : Setup} {w : World} {p : Progress} (hfresh : w.game = .fresh)
    (hstored : w.stored s = some p) : Course.Sound s { world := w } p := by
  obtain ⟨st, hst, -⟩ := Option.bind_eq_some_iff.1 hstored
  refine ⟨by rw [hfresh]; rfl, ⟨st, hst⟩, hstored, fun hloaded => ?_⟩
  rw [hfresh] at hloaded
  contradiction

/-! ## reads that do not fail -/

/-- Whether the store can be read, if it has to be. -/
def Happening.isReadable : Happening → Bool
  | .renew _ => true
  | .call _ faults _ => faults.read.isNone

theorem Course.sight_happen {s : Setup} {c : Course} (hblind : c.blind = false) {h : Happening}
    (hread : h.isReadable = true) : (c.happen s h).blind = false := by
  cases h with
  | renew source => rfl
  | call call faults time =>
      have hnone : faults.read.isSome = false := by
        rw [Happening.isReadable] at hread
        simpa using hread
      show (if call.needsRead c.world.game then faults.read.isSome else c.blind) = false
      rw [hnone, hblind, ite_self]

theorem Course.sight_afterAll {s : Setup} {c : Course} (hblind : c.blind = false)
    {hs : List Happening} (hread : ∀ h ∈ hs, h.isReadable = true) :
    (c.afterAll s hs).blind = false := by
  induction hs generalizing c with
  | nil => exact hblind
  | cons h hs ih =>
      exact ih (sight_happen hblind (hread h List.mem_cons_self)) fun k hk =>
        hread k (List.mem_cons_of_mem h hk)

/-- As long as the store can be read, stored progress grows, whichever saves are kept. -/
theorem stored_grows_of_isReadable (s : Setup) {w : World} {p : Progress}
    (hfresh : w.game = .fresh) (hstored : w.stored s = some p) {hs : List Happening}
    (hreset : ∀ h ∈ hs, h.isReset = false) (hread : ∀ h ∈ hs, h.isReadable = true) :
    ∃ q, (w.afterAll s hs).stored s = some q ∧ p.Grows q := by
  obtain ⟨q, hq, hgrows⟩ := (Course.sound_of_fresh hfresh hstored).afterAll hreset
  have hworld := Course.world_afterAll s { world := w } hs
  refine ⟨q, hworld ▸ hq.stored, hgrows fun k h hk => ?_⟩
  have hsofar : ∀ h' ∈ k ++ [h], h'.isReadable = true := fun h' hh => hread h' (hk.subset hh)
  have hsight : (Course.afterAll s { world := w } k).blind = false :=
    Course.sight_afterAll rfl fun h' hh => hsofar h' (List.mem_append_left [h] hh)
  have hlast := Course.sight_happen (s := s) hsight (hsofar h (by simp))
  cases h with
  | renew source => rfl
  | call call faults time => rw [Course.overwrites, hlast, Bool.false_and]

/-! ## reads that may fail -/

/-- What becomes of the progress that a store holds, in sessions that are not reset, whatever is out
of order.  It can be decoded in the end, and every happening lets it grow, or else is a save that
was kept in a session that goes on from a read that failed: it puts the progress of the game in its
place.  Without such a save nothing is lost over the whole run. -/
theorem stored_grows_unless_overwritten (s : Setup) {w : World} {p : Progress}
    (hfresh : w.game = .fresh) (hstored : w.stored s = some p) (hs : List Happening)
    (hreset : ∀ h ∈ hs, h.isReset = false) :
    let overwritten (k : List Happening) (h : Happening) : Bool :=
      (Course.afterAll s { world := w } k).overwrites s h
    (∀ k h, k ++ [h] <+: hs →
        ∃ q r, (w.afterAll s k).stored s = some q ∧ (w.afterAll s (k ++ [h])).stored s = some r ∧
          (q.Grows r ∨
            overwritten k h = true ∧ r = (w.afterAll s (k ++ [h])).game.progress)) ∧
      ∃ q, (w.afterAll s hs).stored s = some q ∧
        ((∀ k h, k ++ [h] <+: hs → overwritten k h = false) → p.Grows q) := by
  intro overwritten
  have hstart := Course.sound_of_fresh hfresh hstored
  have hworld (k : List Happening) := Course.world_afterAll s { world := w } k
  refine ⟨fun k h hk => ?_, ?_⟩
  · have hbefore : ∀ h' ∈ k ++ [h], h'.isReset = false := fun h' hh => hreset h' (hk.subset hh)
    obtain ⟨q, hq, -⟩ := hstart.afterAll fun h' hh => hbefore h' (List.mem_append_left [h] hh)
    obtain ⟨r, hr, hcases⟩ := hq.happen (hbefore h (by simp))
    rw [← Course.afterAll_snoc] at hr hcases
    exact ⟨q, r, hworld k ▸ hq.stored, hworld (k ++ [h]) ▸ hr.stored, hworld (k ++ [h]) ▸ hcases⟩
  · obtain ⟨q, hq, hgrows⟩ := hstart.afterAll hreset
    exact ⟨q, hworld hs ▸ hq.stored, hgrows⟩

/-! ## a save that loses five flips -/

/-- Progress of five flips. -/
def fiveFlips : Progress := { Progress.empty with totalFlips := 5 }

/-- A new session over a store that holds five flips. -/
def fiveStart : World :=
  { doublingStart with
    store := some
      (.keeping (.empty .memory) doublingSetup.key (Json.print .compact fiveFlips.toJson)) }

/-- A flip while the store can be written, but not read. -/
def unreadFlip : Happening := .call (.flip doublingFlip) { read := some "locked" } firstOfMay

/-- The flip starts afresh and puts one flip in the place of five. -/
theorem stored_grows_unless_overwritten_unreadFlip :
    fiveStart.game = .fresh ∧ fiveStart.stored doublingSetup = some fiveFlips ∧
      unreadFlip.isReset = false ∧
      ∃ r, (fiveStart.afterAll doublingSetup [unreadFlip]).stored doublingSetup = some r ∧
        r.totalFlips = 1 ∧ ¬fiveFlips.Grows r := by
  have htext : fiveFlips.text? = some (Json.print .compact fiveFlips.toJson) := by
    rw [Progress.text?, if_pos (by decide)]
  have hstored : fiveStart.stored doublingSetup = some fiveFlips :=
    World.stored_of_keeping htext rfl
  obtain ⟨hsteps, -⟩ := stored_grows_unless_overwritten doublingSetup (w := fiveStart) rfl hstored
    [unreadFlip] (by decide)
  obtain ⟨q, r, -, hr, -⟩ := hsteps [] unreadFlip (List.prefix_refl _)
  let met := fiveStart.meeting { read := some "locked" } firstOfMay
  have hkept : met.fate doublingSetup (.flip doublingFlip) = .kept := by decide +kernel
  have hrun := World.stored_run doublingSetup (w := met) (.flip doublingFlip) rfl rfl
  rw [if_pos hkept] at hrun
  have hone : r.totalFlips = 1 := by
    rw [Option.some.inj (hr.symm.trans hrun)]
    decide +kernel
  refine ⟨rfl, hstored, rfl, r, hr, hone, fun hgrows => ?_⟩
  have hle := hgrows.totalFlips
  rw [hone] at hle
  exact absurd hle (by decide)

end CoinToss

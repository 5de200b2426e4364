import CoinToss.Progress.Codec
import CoinToss.Proofs.Unlock.Moves

/-!
# CoinToss.Proofs.Progress.Range

How large the integers of progress can become.

The stored text has room for integers of 64 bits.  Of a game played from the start only two
integers can outgrow it: all counters are bounded by the number of flips, and all streaks by the
longest one.

```
heads + tails = flips     land counts, runs ≤ flips     longest = max of both sides
```

* `Counted.play` — every move keeps these relations;
* `Counted.isStorable_iff` — so the flips and the longest streak decide whether progress fits.
-/

namespace CoinToss

namespace Tally

variable {V : Type}

theorem find?_eq_some_iff {path : String} {v : V} {l : List (String × V)}
    (hnd : (l.map (·.1)).Nodup) : find? path l = some v ↔ (path, v) ∈ l := by
  induction l with
  | nil => simp [find?]
  | cons e rest ih =>
      obtain ⟨key, w⟩ := e
      rw [List.map_cons, List.nodup_cons] at hnd
      rw [find?, List.mem_cons, Prod.mk.injEq]
      by_cases h : key = path
      · subst h
        have hnot : (key, v) ∉ rest := fun hm => hnd.1 (List.mem_map.2 ⟨(key, v), hm, rfl⟩)
        simp [hnot, eq_comm]
      · rw [if_neg h, ih hnd.2]
        simp [Ne.symm h]

/-- The entries of a tally are the values of its paths. -/
theorem mem_entries_iff (t : Tally V) (path : String) (v : V) :
    (path, v) ∈ t.entries ↔ t.get? path = some v :=
  (find?_eq_some_iff t.nodup).symm

end Tally

/-! ## counters and streaks of a game -/

/-- Progress whose counters and streaks bound each other, as those of any game do. -/
structure Progress.Counted (p : Progress) : Prop where
  heads : 0 ≤ p.headsFlips
  tails : 0 ≤ p.tailsFlips
  total : p.headsFlips + p.tailsFlips = p.totalFlips
  longestHeads : 0 ≤ p.longestHeads
  longestTails : 0 ≤ p.longestTails
  longest : p.longestStreak = max p.longestHeads p.longestTails
  landings : ∀ path, 0 ≤ p.landCount path ∧ p.landCount path ≤ p.totalFlips
  runs : ∀ path, 0 ≤ p.runLength path ∧ p.runLength path ≤ p.totalFlips

namespace Progress

variable {c : Catalog} {p : Progress}

section Streaks

variable (p : Progress) (l : Landing) (streak : Int)

theorem longestHeads_count : (p.count l streak).longestHeads =
    if l.side = .heads then max p.longestHeads streak else p.longestHeads := by
  have h := p.longestOn_count l streak (some .heads)
  cases hs : l.side <;> simpa [longestOn, hs] using h

theorem longestTails_count : (p.count l streak).longestTails =
    if l.side = .tails then max p.longestTails streak else p.longestTails := by
  have h := p.longestOn_count l streak (some .tails)
  cases hs : l.side <;> simpa [longestOn, hs] using h

theorem longestStreak_count : (p.count l streak).longestStreak = max p.longestStreak streak :=
  p.longestOn_count l streak none

end Streaks

/-- What a landing does to a run: it stands, breaks or goes on. -/
theorem runLength_land_cases (c : Catalog) (p : Progress) (l : Landing) (streak : Int)
    (path : String) :
    (p.land c l streak).1.runLength path = p.runLength path ∨
      (p.land c l streak).1.runLength path = 0 ∨
        (p.land c l streak).1.runLength path = p.runLength path + 1 := by
  by_cases hpath : path ∈ c.coins.map (·.path)
  · obtain ⟨coin, hc, rfl⟩ := List.mem_map.1 hpath
    rw [runLength_congr (sight_land hc), ← p.runLength_count l streak]
    obtain he | he | ⟨-, he⟩ := runLength_advanceRun_cases c l (p.count l streak) coin
    · exact .inl he
    · exact .inr (.inl he)
    · exact .inr (.inr he)
  · have hsight : (p.land c l streak).1.sight path = (p.count l streak).sight path :=
      view_sweep_of_notMem (advanceRun_local c l).elsewhere _ hpath
    rw [runLength_congr hsight]
    exact .inl (runLength_count p l streak path)

namespace Counted

theorem empty : Counted .empty where
  heads := Int.le_refl 0
  tails := Int.le_refl 0
  total := rfl
  longestHeads := Int.le_refl 0
  longestTails := Int.le_refl 0
  longest := rfl
  landings _ := ⟨Int.le_refl 0, Int.le_refl 0⟩
  runs _ := ⟨Int.le_refl 0, Int.le_refl 0⟩

/-- Counting a landing counts one more flip, on one of the sides. -/
theorem count (h : p.Counted) (l : Landing) (streak : Int) : (p.count l streak).Counted where
  heads := by
    have hheads := h.heads
    rw [headsFlips_count]
    split <;> omega
  tails := by
    have htails := h.tails
    rw [tailsFlips_count]
    split <;> omega
  total := by
    have htotal := h.total
    rw [headsFlips_count, tailsFlips_count, totalFlips_count]
    cases l.side with
    | heads =>
        show p.headsFlips + 1 + (p.tailsFlips + 0) = p.totalFlips + 1
        omega
    | tails =>
        show p.headsFlips + 0 + (p.tailsFlips + 1) = p.totalFlips + 1
        omega
  longestHeads := by
    have hheads := h.longestHeads
    rw [longestHeads_count]
    split <;> omega
  longestTails := by
    have htails := h.longestTails
    rw [longestTails_count]
    split <;> omega
  longest := by
    have hlongest := h.longest
    rw [longestStreak_count, longestHeads_count, longestTails_count]
    cases l.side with
    | heads =>
        show max p.longestStreak streak = max (max p.longestHeads streak) p.longestTails
        omega
    | tails =>
        show max p.longestStreak streak = max p.longestHeads (max p.longestTails streak)
        omega
  landings path := by
    have hland := h.landings path
    rw [landCount_count, totalFlips_count]
    split <;> omega
  runs path := by
    have hrun := h.runs path
    rw [runLength_count, totalFlips_count]
    omega

/-- A run that goes on gets no longer than the flips that were counted just before. -/
theorem land (h : p.Counted) (c : Catalog) (l : Landing) (streak : Int) :
    (p.land c l streak).1.Counted := by
  have hruns : ∀ path, 0 ≤ (p.land c l streak).1.runLength path ∧
      (p.land c l streak).1.runLength path ≤ (p.count l streak).totalFlips := by
    intro path
    have hrun := h.runs path
    rw [totalFlips_count]
    rcases runLength_land_cases c p l streak path with he | he | he <;> rw [he] <;> omega
  rw [land_eq] at hruns ⊢
  exact { h.count l streak with runs := hruns }

/-- Every move keeps the relations. -/
theorem play (h : p.Counted) (c : Catalog) (m : Move) : (p.play c m).1.Counted := by
  cases m with
  | land l streak time =>
      have hland := h.land c l streak
      rw [Progress.play, track_eq]
      exact { hland with }
  | roll l multiplier time source =>
      rw [Progress.play, rollAll_eq]
      exact { h with }
  | unlock path time =>
      rw [Progress.play, unlockByHand_eq]
      exact { h with }

theorem playAll (h : p.Counted) (c : Catalog) (ms : List Move) : (p.playAll c ms).1.Counted :=
  playAll_keeps (fun _ m _ hq => hq.play c m) h

end Counted

/-! ## 64 bits -/

/-- Progress fits exactly if its counters, its land counts and its runs do. -/
theorem isStorable_iff_fits64 : p.isStorable = true ↔
    (∀ n ∈ [p.totalFlips, p.headsFlips, p.tailsFlips, p.longestStreak, p.longestHeads,
        p.longestTails], Json.fits64 n = true) ∧
      (∀ path n, p.landings.get? path = some n → Json.fits64 n = true) ∧
        ∀ path n, p.runs.get? path = some n → Json.fits64 n = true := by
  have hvalues (t : Tally Int) : (∀ n ∈ t.entries.map (·.2), Json.fits64 n = true) ↔
      ∀ path n, t.get? path = some n → Json.fits64 n = true := by
    constructor
    · intro h path n hn
      exact h n (List.mem_map.2 ⟨(path, n), (t.mem_entries_iff path n).2 hn, rfl⟩)
    · intro h n hn
      obtain ⟨⟨path, m⟩, hm, rfl⟩ := List.mem_map.1 hn
      exact h path m ((t.mem_entries_iff path m).1 hm)
  rw [isStorable, List.all_eq_true, integers, ← hvalues, ← hvalues]
  simp only [List.mem_append, or_imp, forall_and, and_assoc]

/-- Of counted progress the number of flips and the longest streak decide whether it fits. -/
theorem Counted.isStorable_iff (h : p.Counted) : p.isStorable = true ↔
    p.totalFlips < Json.unsignedLimit ∧ p.longestStreak < Json.unsignedLimit := by
  obtain ⟨hheads, htails, htotal, hlongestHeads, hlongestTails, hlongest, hlandings, hruns⟩ := h
  have hfits (n : Int) (h0 : 0 ≤ n) : Json.fits64 n = true ↔ n < Json.unsignedLimit := by
    rw [Json.fits64, decide_eq_true_iff, Json.signedLimit]
    omega
  have htally (t : Tally Int)
      (ht : ∀ path, 0 ≤ (t.get? path).getD 0 ∧ (t.get? path).getD 0 ≤ p.totalFlips)
      (hlt : p.totalFlips < Json.unsignedLimit) (path : String) (n : Int)
      (hn : t.get? path = some n) : Json.fits64 n = true := by
    have hbound := ht path
    rw [hn, Option.getD_some] at hbound
    rw [hfits n hbound.1]
    omega
  rw [isStorable_iff_fits64]
  constructor
  · rintro ⟨hcounters, -, -⟩
    have htotalFits := hcounters p.totalFlips (by simp)
    have hlongestFits := hcounters p.longestStreak (by simp)
    rw [hfits _ (by omega)] at htotalFits hlongestFits
    exact ⟨htotalFits, hlongestFits⟩
  · rintro ⟨hltTotal, hltLongest⟩
    refine ⟨?_, htally p.landings hlandings hltTotal, htally p.runs hruns hltTotal⟩
    simp only [List.mem_cons, List.not_mem_nil, or_false, forall_eq_or_imp, forall_eq]
    refine ⟨?_, ?_, ?_, ?_, ?_, ?_⟩ <;> rw [hfits _ (by omega)] <;> omega

end Progress

end CoinToss

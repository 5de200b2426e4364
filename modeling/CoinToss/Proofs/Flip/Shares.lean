import CoinToss.Flip.Face
import CoinToss.Proofs.Decimal.Exact
import CoinToss.Proofs.Flip.Precedence
import Mathlib.Algebra.Order.BigOperators.Group.List
import Mathlib.Algebra.Order.Field.Basic
import Mathlib.Tactic.Linarith

/-!
# CoinToss.Proofs.Flip.Shares

How a random face shares out the draws.

The candidates that weigh something lie side by side, each as long as it weighs, and a draw from zero
to one is stretched to their full length.  It picks the candidate on which it falls, and where two of
them meet the one before:

```
weights       2         0         1
lengths       |---------|----|    from 0 to 3
draws         a a a a a a c c     a up to 2/3, c beyond
```

Over the rationals that is so exactly.  Doubles round, overflow and may be no number at all, and a
draw may be beyond one, but no more is lost than the proportions.

* `pickFrom`, `pickWeighted_eq` — a pick by one draw, in both readings;
* `pickShare_eq_none_iff`, `pickShare_eq_some` — what a walk along any weights comes to;
* `Summed`, `hasWeight_counting_iff` — sums of doubles are above zero if something is summed;
* `SafePick`, `safePick` — a pick by a double;
* `StopsAt`, `walk_eq_some_iff` — a walk along rational weights;
* `InShare`, `SharesOut`, `sharesOut` — a pick by a rational;
* `Catalog.Drawable`, `showFace_random` — what a random face shows;
* `randomFace_safe_and_proportional` — together.
-/

namespace CoinToss

open Decimal

/-! ## candidates -/

section Pick

variable {α β : Type} [Quantity α]

/-- What a weight counts for: nothing unless it is positive. -/
def counted (w : α) : α :=
  if Quantity.lt (Quantity.ofRatio 0 1) w then w else Quantity.ofRatio 0 1

/-- Candidates with what their weights count for. -/
def counting (weight : β → α) (items : List β) : List (β × α) :=
  items.map fun b => (b, counted (weight b))

/-- The candidate that a draw picks, if there is anything to pick from. -/
def pickFrom (candidates : List (β × α)) (draw : α) : Option β :=
  if hasWeight candidates then pickByDraw candidates draw else none

variable {target sum : α} {last : Option β} {candidates : List (β × α)}

/-- A walk finds nothing only where nothing weighs anything. -/
theorem pickShare_eq_none_iff :
    pickShare target sum last candidates = none ↔
      last = none ∧ ∀ c ∈ candidates, Quantity.le c.2 (Quantity.ofRatio 0 1) = true := by
  induction candidates generalizing sum last with
  | nil => simp [pickShare]
  | cons c rest ih =>
      rw [pickShare, List.forall_mem_cons]
      by_cases hlight : Quantity.le c.2 (Quantity.ofRatio 0 1) = true
      · rw [if_pos hlight, ih]
        simp [hlight]
      · rw [if_neg hlight]
        split
        · simp [hlight]
        · rw [ih]
          simp [hlight]

/-- A walk finds a candidate that weighs something. -/
theorem pickShare_eq_some {b : β} (h : pickShare target sum last candidates = some b) :
    last = some b ∨
      ∃ w, (b, w) ∈ candidates ∧ Quantity.le w (Quantity.ofRatio 0 1) = false := by
  induction candidates generalizing sum last with
  | nil => exact .inl h
  | cons c rest ih =>
      have hrest (hfound : ∃ w, (b, w) ∈ rest ∧ Quantity.le w (Quantity.ofRatio 0 1) = false) :
          ∃ w, (b, w) ∈ c :: rest ∧ Quantity.le w (Quantity.ofRatio 0 1) = false := by
        obtain ⟨w, hmem, hw⟩ := hfound
        exact ⟨w, List.mem_cons_of_mem _ hmem, hw⟩
      rw [pickShare] at h
      split at h
      · exact (ih h).imp_right hrest
      · next hheavy =>
          have hc : c.1 = b → ∃ w, (b, w) ∈ c :: rest ∧
              Quantity.le w (Quantity.ofRatio 0 1) = false := by
            rintro rfl
            exact ⟨c.2, List.mem_cons_self, Bool.not_eq_true _ ▸ hheavy⟩
          split at h
          · exact .inr (hc (Option.some.inj h))
          · exact .inr ((ih h).elim (fun hlast => hc (Option.some.inj hlast)) hrest)

/-- A pick finds nothing only where nothing weighs anything, if that is what the sum tells. -/
theorem pickFrom_eq_none_iff {draw : α} (h : hasWeight candidates = false →
      ∀ c ∈ candidates, Quantity.le c.2 (Quantity.ofRatio 0 1) = true) :
    pickFrom candidates draw = none ↔
      ∀ c ∈ candidates, Quantity.le c.2 (Quantity.ofRatio 0 1) = true := by
  unfold pickFrom
  split
  · rw [pickByDraw, pickShare_eq_none_iff]
    exact and_iff_right rfl
  · next hnone => exact iff_of_true rfl (h (Bool.not_eq_true _ ▸ hnone))

theorem pickFrom_eq_some {draw : α} {b : β} (h : pickFrom candidates draw = some b) :
    ∃ w, (b, w) ∈ candidates ∧ Quantity.le w (Quantity.ofRatio 0 1) = false := by
  unfold pickFrom at h
  split at h
  · exact (pickShare_eq_some h).resolve_left (by simp)
  · contradiction

end Pick

/-! ## doubles -/

theorem Coin.weight_eq (table : WeightTable) (coin : Coin) :
    coin.weight table = counted (table.orStandard.weight coin.effectiveRarity) := by
  unfold Coin.weight counted
  dsimp only
  rw [ofRatio_zero]
  by_cases h : 0 < table.orStandard.weight coin.effectiveRarity
  · rw [if_pos h, if_pos ((lt_iff _ _).2 h)]
  · rw [if_neg h, if_neg (mt (lt_iff _ _).1 h)]

theorem weighed_eq (table : WeightTable) (coins : List Coin) :
    weighed table coins =
      counting (fun coin => table.orStandard.weight coin.effectiveRarity) coins :=
  List.map_congr_left fun coin _ => congrArg (Prod.mk coin) (coin.weight_eq table)

/-- A pick is one by a draw, which is taken only if there is anything to pick from. -/
theorem pickWeighted_eq (table : WeightTable) (coins : List Coin) (source : Source) :
    pickWeighted table coins source = (pickFrom (weighed table coins) source.draw.1,
      if hasWeight (weighed table coins) then source.draw.2 else source) := by
  unfold pickWeighted pickFrom
  dsimp only
  split <;> rfl

section Doubles

variable {β : Type} {w s : Float} {p : Prop}

theorem counted_cases (w : Float) : 0 < w ∧ counted w = w ∨ ¬0 < w ∧ counted w = 0 := by
  unfold counted
  rw [ofRatio_zero]
  by_cases h : 0 < w
  · exact .inl ⟨h, if_pos ((lt_iff _ _).2 h)⟩
  · exact .inr ⟨h, if_neg (mt (lt_iff _ _).1 h)⟩

theorem counted_pos_iff : 0 < counted w ↔ 0 < w := by
  obtain ⟨h, heq⟩ | ⟨h, heq⟩ := counted_cases w
  · exact iff_of_true (heq.symm ▸ h) h
  · rw [heq]
    exact iff_of_false (by decide +kernel) h

/-- What is above zero or zero is not above it exactly if it is none. -/
theorem le_zero_eq_false_iff (h : 0 < s ∨ s = 0) :
    Quantity.le s (Quantity.ofRatio 0 1) = false ↔ 0 < s := by
  rw [ofRatio_zero]
  obtain hs | rfl := h
  · exact iff_of_true (decide_eq_false (Double.not_le_zero_of_pos hs)) hs
  · decide +kernel

theorem le_counted_eq_false_iff :
    Quantity.le (counted w) (Quantity.ofRatio 0 1) = false ↔ 0 < w := by
  rw [← counted_pos_iff]
  refine le_zero_eq_false_iff ((counted_cases w).imp (fun h => ?_) (·.2))
  rw [h.2]
  exact h.1

/-- A sum that is above zero if something has been summed, and else zero. -/
def Summed (p : Prop) (s : Float) : Prop := p ∧ 0 < s ∨ ¬p ∧ s = 0

/-- One more weight, even if the sum overflows. -/
theorem Summed.add_counted (h : Summed p s) : Summed (p ∨ 0 < w) (s + counted w) := by
  obtain ⟨hw, heq⟩ | ⟨hw, heq⟩ := counted_cases w <;> rw [heq]
  · refine .inl ⟨.inr hw, ?_⟩
    obtain ⟨-, hs⟩ | ⟨-, rfl⟩ := h
    · exact Double.add_pos hs hw
    · exact Double.zero_add_pos hw
  · obtain ⟨hp, hs⟩ | ⟨hp, rfl⟩ := h
    · exact .inl ⟨.inl hp, Double.add_zero_pos hs⟩
    · exact .inr ⟨not_or.2 ⟨hp, hw⟩, by decide +kernel⟩

theorem Summed.foldl (weight : β → Float) (items : List β) (h : Summed p s) :
    Summed (p ∨ ∃ b ∈ items, 0 < weight b)
      ((counting weight items).foldl (fun sum c => sum + c.2) s) := by
  induction items generalizing p s with
  | nil => simpa [counting] using h
  | cons b rest ih =>
      rw [List.exists_mem_cons_iff, ← or_assoc]
      exact ih h.add_counted

/-- There is something to pick from exactly if something weighs more than nothing. -/
theorem hasWeight_counting_iff (weight : β → Float) (items : List β) :
    hasWeight (counting weight items) = true ↔ ∃ b ∈ items, 0 < weight b := by
  have htotal : Summed (False ∨ ∃ b ∈ items, 0 < weight b) (totalWeight (counting weight items)) :=
    Summed.foldl weight items (.inr ⟨not_false, ofRatio_zero⟩)
  rw [false_or] at htotal
  rw [hasWeight, Bool.not_eq_true', le_zero_eq_false_iff (htotal.imp (·.2) (·.2))]
  obtain ⟨h, hpos⟩ | ⟨h, heq⟩ := htotal
  · exact iff_of_true hpos h
  · rw [heq]
    exact iff_of_false (by decide +kernel) h

theorem pickFrom_counting_eq_none_iff (weight : β → Float) (items : List β) (draw : Float) :
    pickFrom (counting weight items) draw = none ↔ ∀ b ∈ items, ¬0 < weight b := by
  have hlight : (∀ c ∈ counting weight items, Quantity.le c.2 (Quantity.ofRatio 0 1) = true) ↔
      ∀ b ∈ items, ¬0 < weight b := by
    simp only [counting, List.forall_mem_map, ← le_counted_eq_false_iff, Bool.not_eq_false]
  rw [← hlight]
  refine pickFrom_eq_none_iff fun h => hlight.2 fun b hb hpos => ?_
  rw [(hasWeight_counting_iff weight items).2 ⟨b, hb, hpos⟩] at h
  contradiction

end Doubles

/-- A pick, by a draw that may be any double at all. -/
structure SafePick (table : WeightTable) (coins : List Coin) (source : Source) : Prop where
  /-- Nothing is picked exactly where no coin weighs more than nothing. -/
  none_iff : (pickWeighted table coins source).1 = none ↔ ∀ coin ∈ coins, ¬0 < coin.weight table
  /-- A pick of nothing draws nothing. -/
  source_of_none : (pickWeighted table coins source).1 = none →
    (pickWeighted table coins source).2 = source
  /-- What is picked is one of the coins that weigh more than nothing, by one draw. -/
  of_some : ∀ coin, (pickWeighted table coins source).1 = some coin →
    coin ∈ coins ∧ 0 < coin.weight table ∧ (pickWeighted table coins source).2 = source.draw.2 ∧
      pickFrom (weighed table coins) source.draw.1 = some coin

theorem safePick (table : WeightTable) (coins : List Coin) (source : Source) :
    SafePick table coins source := by
  have hweight (coin : Coin) :
      0 < coin.weight table ↔ 0 < table.orStandard.weight coin.effectiveRarity := by
    rw [coin.weight_eq, counted_pos_iff]
  have hnone : (pickWeighted table coins source).1 = none ↔
      ∀ coin ∈ coins, ¬0 < coin.weight table := by
    simp only [hweight, pickWeighted_eq, weighed_eq]
    exact pickFrom_counting_eq_none_iff _ coins source.draw.1
  have hsource : hasWeight (weighed table coins) = true ↔
      ¬(pickWeighted table coins source).1 = none := by
    rw [hnone, weighed_eq, hasWeight_counting_iff]
    simp [hweight]
  refine ⟨hnone, fun h => ?_, fun coin h => ?_⟩
  · rw [pickWeighted_eq]
    exact if_neg fun hw => hsource.1 hw h
  · have hdrawn := hsource.2 (by rw [h]; exact Option.some_ne_none coin)
    rw [pickWeighted_eq] at h ⊢
    obtain ⟨w, hmem, hw⟩ := pickFrom_eq_some h
    obtain ⟨other, hother, heq⟩ := List.mem_map.1 hmem
    obtain ⟨rfl, rfl⟩ := Prod.mk.inj heq
    rw [Coin.weight_eq, le_counted_eq_false_iff, ← hweight] at hw
    exact ⟨hother, hw, if_pos hdrawn, h⟩

/-! ## rationals -/

section Rationals

variable {β : Type} (weight : β → Rat)

/-- The candidates that weigh something. -/
def heavy (items : List β) : List β := items.filter fun b => decide (0 < weight b)

/-- What some candidates weigh together. -/
def weightOf (bs : List β) : Rat := (bs.map weight).sum

/-- Whether a draw falls on the candidate of an index, of those that weigh something: beyond what
those before it weigh and up to that and its own weight, in parts of the full weight.  The draw at
zero falls on the first one. -/
def InShare (items : List β) (k : Nat) (u : Rat) : Prop :=
  (weightOf weight ((heavy weight items).take k) < u * weightOf weight (heavy weight items) ∨
      k = 0 ∧ u = 0) ∧
    u * weightOf weight (heavy weight items) ≤ weightOf weight ((heavy weight items).take (k + 1))

variable {weight}

theorem weightOf_cons (b : β) (bs : List β) :
    weightOf weight (b :: bs) = weight b + weightOf weight bs := by
  rw [weightOf, List.map_cons, List.sum_cons, weightOf]

theorem weightOf_take_succ {bs : List β} {k : Nat} {b : β} (h : bs[k]? = some b) :
    weightOf weight (bs.take (k + 1)) = weightOf weight (bs.take k) + weight b := by
  rw [List.take_add_one, h, Option.toList_some, weightOf, List.map_append, List.sum_append]
  simp [weightOf]

theorem heavy_cons_of_pos {b : β} (items : List β) (h : 0 < weight b) :
    heavy weight (b :: items) = b :: heavy weight items :=
  List.filter_cons_of_pos (decide_eq_true h)

theorem heavy_cons_of_not_pos {b : β} (items : List β) (h : ¬0 < weight b) :
    heavy weight (b :: items) = heavy weight items :=
  List.filter_cons_of_neg (mt of_decide_eq_true h)

theorem pos_of_mem_heavy {items : List β} {b : β} (h : b ∈ heavy weight items) : 0 < weight b :=
  of_decide_eq_true (List.mem_filter.1 h).2

/-- More candidates weigh more. -/
theorem weightOf_take_mono {bs : List β} (hpos : ∀ b ∈ bs, 0 < weight b) {j k : Nat} (h : j ≤ k) :
    weightOf weight (bs.take j) ≤ weightOf weight (bs.take k) := by
  refine List.Sublist.sum_le_sum ((List.take_sublist_take_left h).map weight) fun x hx => ?_
  obtain ⟨b, hb, rfl⟩ := List.mem_map.1 hx
  exact (hpos b (List.mem_of_mem_take hb)).le

theorem weightOf_take_le {bs : List β} (hpos : ∀ b ∈ bs, 0 < weight b) (k : Nat) :
    weightOf weight (bs.take k) ≤ weightOf weight bs := by
  obtain hle | hle := Nat.le_total k bs.length
  · have h := weightOf_take_mono hpos hle
    rwa [List.take_length] at h
  · rw [List.take_of_length_le hle]

theorem weightOf_nonneg {bs : List β} (hpos : ∀ b ∈ bs, 0 < weight b) : 0 ≤ weightOf weight bs := by
  have h := weightOf_take_mono hpos (Nat.zero_le bs.length)
  rwa [List.take_length, List.take_zero] at h

/-! ### walks -/

theorem counted_exact (w : Rat) : counted w = if 0 < w then w else 0 := by
  unfold counted
  rw [ofRatio_zero_exact]
  by_cases h : 0 < w
  · rw [if_pos h, if_pos (lt_iff_exact.2 h)]
  · rw [if_neg h, if_neg (mt lt_iff_exact.1 h)]

theorem counting_cons (b : β) (items : List β) :
    counting weight (b :: items) = (b, counted (weight b)) :: counting weight items := rfl

theorem foldl_counting (s : Rat) (items : List β) :
    (counting weight items).foldl (fun sum c => sum + c.2) s =
      s + weightOf weight (heavy weight items) := by
  induction items generalizing s with
  | nil => simp [counting, heavy, weightOf]
  | cons b rest ih =>
      rw [counting_cons, List.foldl_cons, ih, counted_exact]
      by_cases h : 0 < weight b
      · rw [if_pos h, heavy_cons_of_pos rest h, weightOf_cons, add_assoc]
      · rw [if_neg h, heavy_cons_of_not_pos rest h, add_zero]

theorem totalWeight_counting (items : List β) :
    totalWeight (counting weight items) = weightOf weight (heavy weight items) := by
  rw [totalWeight, foldl_counting, ofRatio_zero_exact, zero_add]

theorem pickShare_cons_of_pos {t s : Rat} {last : Option β} {b : β} {w : Rat}
    {rest : List (β × Rat)} (h : 0 < w) :
    pickShare t s last ((b, w) :: rest) =
      if t ≤ s + w then some b else pickShare t (s + w) (some b) rest := by
  rw [pickShare, ofRatio_zero_exact, if_neg (mt le_iff_exact.1 (not_le.2 h))]
  by_cases ht : t ≤ s + w
  · rw [if_pos ht, if_pos (le_iff_exact.2 ht)]
  · rw [if_neg ht, if_neg (mt le_iff_exact.1 ht)]

/-- What weighs nothing is stepped over. -/
theorem pickShare_counting (t s : Rat) (last : Option β) (items : List β) :
    pickShare t s last (counting weight items) =
      pickShare t s last ((heavy weight items).map fun b => (b, weight b)) := by
  induction items generalizing s last with
  | nil => rfl
  | cons b rest ih =>
      rw [counting_cons, counted_exact]
      by_cases h : 0 < weight b
      · rw [if_pos h, heavy_cons_of_pos rest h, List.map_cons, pickShare_cons_of_pos h,
          pickShare_cons_of_pos h, ih]
      · rw [if_neg h, heavy_cons_of_not_pos rest h, pickShare, ofRatio_zero_exact,
          if_pos (le_iff_exact.2 (le_refl 0)), ih]

/-- Whether a walk from a sum on stops at the candidate of an index: its target is beyond the sum
before it, or the walk has just begun, and not beyond the sum after it. -/
def StopsAt (weight : β → Rat) (t s : Rat) (bs : List β) (k : Nat) : Prop :=
  (k = 0 ∨ s + weightOf weight (bs.take k) < t) ∧ t ≤ s + weightOf weight (bs.take (k + 1))

section StopsAt

variable {t s : Rat} {x : β} {rest : List β}

theorem stopsAt_zero_iff : StopsAt weight t s (x :: rest) 0 ↔ t ≤ s + weight x := by
  simp [StopsAt, weightOf]

theorem weightOf_take_cons_succ (k : Nat) :
    s + weightOf weight ((x :: rest).take (k + 1)) =
      s + weight x + weightOf weight (rest.take k) := by
  rw [List.take_succ_cons, weightOf_cons, add_assoc]

/-- Beyond the first candidate a walk goes on from its weight. -/
theorem stopsAt_succ_iff (hx : s + weight x < t) (k : Nat) :
    StopsAt weight t s (x :: rest) (k + 1) ↔ StopsAt weight t (s + weight x) rest k := by
  rw [StopsAt, weightOf_take_cons_succ, weightOf_take_cons_succ, StopsAt]
  refine and_congr_left fun _ => ⟨fun h => .inr (h.resolve_left k.succ_ne_zero), ?_⟩
  rintro (rfl | hbefore)
  · exact .inr (by simpa [weightOf] using hx)
  · exact .inr hbefore

/-- Up to the first candidate it does not go on. -/
theorem not_stopsAt_succ (hpos : ∀ c ∈ rest, 0 < weight c) (hx : t ≤ s + weight x) (k : Nat) :
    ¬StopsAt weight t s (x :: rest) (k + 1) := by
  rintro ⟨hzero | hbefore, -⟩
  · contradiction
  · rw [weightOf_take_cons_succ] at hbefore
    have hnonneg : 0 ≤ weightOf weight (rest.take k) :=
      weightOf_nonneg fun c hc => hpos c (List.mem_of_mem_take hc)
    linarith

end StopsAt

/-- A walk whose target is not beyond the full weight finds the candidate at which it stops; it never
falls back. -/
theorem walk_eq_some_iff {t s : Rat} {last : Option β} {bs : List β} {b : β}
    (hpos : ∀ b ∈ bs, 0 < weight b) (hne : bs ≠ []) (ht : t ≤ s + weightOf weight bs) :
    pickShare t s last (bs.map fun b => (b, weight b)) = some b ↔
      ∃ k, bs[k]? = some b ∧ StopsAt weight t s bs k := by
  -- on the candidates ahead, from any sum: each one passed moves the sum on
  induction bs generalizing s last with
  | nil => contradiction
  | cons x rest ih =>
      have hrest : ∀ c ∈ rest, 0 < weight c := fun c hc => hpos c (List.mem_cons_of_mem _ hc)
      rw [List.map_cons, pickShare_cons_of_pos (hpos x List.mem_cons_self)]
      by_cases hx : t ≤ s + weight x
      · rw [if_pos hx]
        refine ⟨fun h => ⟨0, h, stopsAt_zero_iff.2 hx⟩, ?_⟩
        rintro ⟨k, hk, hstops⟩
        cases k with
        | zero => exact hk
        | succ k => exact absurd hstops (not_stopsAt_succ hrest hx k)
      · rw [if_neg hx]
        have hne : rest ≠ [] := by
          rintro rfl
          exact hx (by simpa [weightOf] using ht)
        rw [weightOf_cons, ← add_assoc] at ht
        rw [ih hrest hne ht]
        constructor
        · rintro ⟨k, hk, hstops⟩
          exact ⟨k + 1, hk, (stopsAt_succ_iff (not_le.1 hx) k).2 hstops⟩
        · rintro ⟨k, hk, hstops⟩
          cases k with
          | zero => exact absurd (stopsAt_zero_iff.1 hstops) hx
          | succ k => exact ⟨k, hk, (stopsAt_succ_iff (not_le.1 hx) k).1 hstops⟩

/-! ### shares -/

/-- How rational draws from zero to one are shared out to the candidates that weigh something. -/
structure SharesOut (weight : β → Rat) (items : List β) : Prop where
  /-- There is nothing to pick only where no candidate weighs anything. -/
  none_iff : ∀ u, pickFrom (counting weight items) u = none ↔ heavy weight items = []
  /-- A draw picks the candidate on which it falls. -/
  some_iff : ∀ u b, 0 ≤ u → u < 1 → (pickFrom (counting weight items) u = some b ↔
    ∃ k, (heavy weight items)[k]? = some b ∧ InShare weight items k u)
  /-- The draws of a candidate are those between two numbers from zero to one, as far from each other
  as the candidate's part of the full weight. -/
  share : ∀ k b, (heavy weight items)[k]? = some b → ∃ low high, 0 ≤ low ∧ high ≤ 1 ∧
    high - low = weight b / weightOf weight (heavy weight items) ∧
      ∀ u, InShare weight items k u ↔ (low < u ∨ k = 0 ∧ u = 0) ∧ u ≤ high
  /-- Of two draws the larger one does not pick the earlier candidate. -/
  mono : ∀ u v j k, u ≤ v → InShare weight items j u → InShare weight items k v → j ≤ k

section

variable (weight : β → Rat) (items : List β)

theorem heavy_eq_nil_iff : heavy weight items = [] ↔ ∀ b ∈ items, ¬0 < weight b := by
  simp [heavy, List.filter_eq_nil_iff]

theorem full_pos (h : heavy weight items ≠ []) : 0 < weightOf weight (heavy weight items) := by
  obtain ⟨b, bs, heq⟩ := List.exists_cons_of_ne_nil h
  have hpos : ∀ c ∈ b :: bs, 0 < weight c := fun c hc => pos_of_mem_heavy (heq ▸ hc)
  rw [heq, weightOf_cons]
  exact add_pos_of_pos_of_nonneg (hpos b List.mem_cons_self)
    (weightOf_nonneg fun c hc => hpos c (List.mem_cons_of_mem _ hc))

theorem hasWeight_counting_exact_iff :
    hasWeight (counting weight items) = true ↔ heavy weight items ≠ [] := by
  rw [hasWeight, totalWeight_counting, ofRatio_zero_exact, Bool.not_eq_true', ← Bool.not_eq_true,
    le_iff_exact, not_le]
  refine ⟨fun hpos hnil => ?_, full_pos weight items⟩
  rw [hnil] at hpos
  exact lt_irrefl _ hpos

theorem pickFrom_counting_exact_eq_none_iff (u : Rat) :
    pickFrom (counting weight items) u = none ↔ heavy weight items = [] := by
  have hlight : (∀ c ∈ counting weight items, Quantity.le c.2 (Quantity.ofRatio 0 1) = true) ↔
      heavy weight items = [] := by
    simp only [heavy_eq_nil_iff, counting, List.forall_mem_map, le_iff_exact, ofRatio_zero_exact,
      counted_exact]
    refine forall₂_congr fun b _ => ?_
    split <;> simp [*]
  rw [← hlight]
  refine pickFrom_eq_none_iff fun h => hlight.2 (not_not.1 fun hne => ?_)
  rw [(hasWeight_counting_exact_iff weight items).2 hne] at h
  contradiction

theorem pickFrom_counting_exact_eq_some_iff {u : Rat} (hu : 0 ≤ u) (hlt : u < 1) (b : β) :
    pickFrom (counting weight items) u = some b ↔
      ∃ k, (heavy weight items)[k]? = some b ∧ InShare weight items k u := by
  by_cases hnil : heavy weight items = []
  · rw [(pickFrom_counting_exact_eq_none_iff weight items u).2 hnil, hnil]
    simp
  · have hfull := full_pos weight items hnil
    have htarget : u * weightOf weight (heavy weight items) ≤
        0 + weightOf weight (heavy weight items) := by
      rw [zero_add]
      exact mul_le_of_le_one_left hfull.le hlt.le
    rw [pickFrom, if_pos ((hasWeight_counting_exact_iff weight items).2 hnil), pickByDraw,
      totalWeight_counting, ofRatio_zero_exact, pickShare_counting,
      walk_eq_some_iff (fun _ => pos_of_mem_heavy) hnil htarget]
    simp only [StopsAt, zero_add, InShare]
    refine exists_congr fun k => and_congr_right fun _ => and_congr_left fun _ => ?_
    constructor
    · rintro (rfl | hbefore)
      · obtain rfl | hpos := hu.eq_or_lt
        · exact .inr ⟨rfl, rfl⟩
        · exact .inl (by simpa [weightOf] using mul_pos hpos hfull)
      · exact .inl hbefore
    · rintro (hbefore | ⟨rfl, -⟩)
      · exact .inr hbefore
      · exact .inl rfl

theorem sharesOut : SharesOut weight items where
  none_iff := pickFrom_counting_exact_eq_none_iff weight items
  some_iff _ b hu hlt := pickFrom_counting_exact_eq_some_iff weight items hu hlt b
  share k b hb := by
    have hpos : ∀ b ∈ heavy weight items, 0 < weight b := fun _ => pos_of_mem_heavy
    have hfull := full_pos weight items (List.ne_nil_of_mem (List.mem_of_getElem? hb))
    refine ⟨weightOf weight ((heavy weight items).take k) / weightOf weight (heavy weight items),
      weightOf weight ((heavy weight items).take (k + 1)) / weightOf weight (heavy weight items),
      ?_, ?_, ?_, fun u => ?_⟩
    · exact div_nonneg (weightOf_nonneg fun c hc => hpos c (List.mem_of_mem_take hc)) hfull.le
    · rw [div_le_one hfull]
      exact weightOf_take_le hpos (k + 1)
    · rw [← sub_div, weightOf_take_succ hb, add_sub_cancel_left]
    · rw [InShare, div_lt_iff₀ hfull, le_div_iff₀ hfull]
  mono u v j k huv hj hk := by
    have hpos : ∀ b ∈ heavy weight items, 0 < weight b := fun _ => pos_of_mem_heavy
    by_contra hlt
    have hstart : weightOf weight ((heavy weight items).take j) <
        u * weightOf weight (heavy weight items) := hj.1.resolve_right (by omega)
    have hbetween := weightOf_take_mono hpos (show k + 1 ≤ j by omega)
    have hdraws := mul_le_mul_of_nonneg_right huv (weightOf_nonneg hpos)
    have hend := hk.2
    linarith

end

end Rationals

/-! ## faces -/

/-- Coins that a random face may show. -/
def Catalog.Drawable (c : Catalog) (p : Progress) (table : WeightTable) (coin : Coin) : Prop :=
  coin ∈ c.coins ∧ coin.isConfigured = true ∧ coin.isUnlocked c.known p = true ∧
    0 < coin.weight table

theorem showFace_random (c : Catalog) (p : Progress) (table : WeightTable) (chosen : String)
    (source : Source) :
    (∃ coin, c.Drawable p table coin ∧
        showFace c p table chosen true source = (coin.path, source.draw.2)) ∨
      (∀ coin, ¬c.Drawable p table coin) ∧
        showFace c p table chosen true source = (chosen, source) := by
  have hpick := safePick table (c.selectable p) source
  have hshow : showFace c p table chosen true source =
      (((pickWeighted table (c.selectable p) source).1.map (·.path)).getD chosen,
        (pickWeighted table (c.selectable p) source).2) := rfl
  have hmem (coin : Coin) : coin ∈ c.selectable p ↔
      coin ∈ c.coins ∧ coin.isConfigured = true ∧ coin.isUnlocked c.known p = true := by
    rw [Catalog.selectable, List.mem_filter, Bool.and_eq_true]
  rw [hshow]
  cases h : (pickWeighted table (c.selectable p) source).1 with
  | none =>
      refine .inr ⟨fun coin hcoin => ?_, by rw [hpick.source_of_none h]; rfl⟩
      obtain ⟨hin, hconfigured, hunlocked, hweight⟩ := hcoin
      exact hpick.none_iff.1 h coin ((hmem coin).2 ⟨hin, hconfigured, hunlocked⟩) hweight
  | some coin =>
      obtain ⟨hcoin, hweight, hsource, -⟩ := hpick.of_some coin h
      obtain ⟨hin, hconfigured, hunlocked⟩ := (hmem coin).1 hcoin
      exact .inl ⟨coin, ⟨hin, hconfigured, hunlocked, hweight⟩, by rw [hsource]; rfl⟩

/-- Picks are safe by any double, and in proportion by a rational; a random face shows a coin that is
unlocked, configured and weighs something, or, if there is none, what was chosen for it. -/
theorem randomFace_safe_and_proportional :
    (∀ table coins source, SafePick table coins source) ∧
      (∀ (β : Type) (weight : β → Rat) (items : List β), SharesOut weight items) ∧
      ∀ (c : Catalog) (p : Progress) (table : WeightTable) (chosen : String) (source : Source),
        (∃ coin, c.Drawable p table coin ∧
            showFace c p table chosen true source = (coin.path, source.draw.2)) ∨
          (∀ coin, ¬c.Drawable p table coin) ∧
            showFace c p table chosen true source = (chosen, source) :=
  ⟨safePick, fun _ => sharesOut, showFace_random⟩

/-- Of weights of two, nothing and one, the first has the draws up to two thirds and the last those
beyond. -/
theorem randomFace_safe_and_proportional_thirds :
    pickFrom (counting id [2, 0, 1]) (2 / 3 : Rat) = some 2 ∧
      pickFrom (counting id [2, 0, 1]) (3 / 4 : Rat) = some 1 := by
  have hshares := randomFace_safe_and_proportional.2.1 Rat id [2, 0, 1]
  have hheavy : heavy id ([2, 0, 1] : List Rat) = [2, 1] := by decide +kernel
  constructor
  · refine (hshares.some_iff _ _ (by norm_num) (by norm_num)).2 ⟨0, by rw [hheavy]; rfl, ?_⟩
    rw [InShare, hheavy]
    norm_num [weightOf]
  · refine (hshares.some_iff _ _ (by norm_num) (by norm_num)).2 ⟨1, by rw [hheavy]; rfl, ?_⟩
    rw [InShare, hheavy]
    norm_num [weightOf]

end CoinToss

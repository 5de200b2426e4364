import CoinToss.Proofs.Codec.Json
import CoinToss.Proofs.Codec.Moments
import CoinToss.Progress.Codec
import Mathlib.Data.List.Induction

/-!
# CoinToss.Proofs.Codec.Snapshots

Progress is read back from its stored text.

Tallies keep their entries in order and sets are written in ascending order, so nothing is lost
between a value and the entries that are written of it.

```
progress  --toJson-->  value  --print-->  text  --toUTF8-->  bytes  --ofBytes-->  progress
```

* `Tally.ofList_entries`, `PathSet.ofList_toList` — containers from what is written of them;
* `Progress.ofJson_toJson` — progress from its value;
* `Progress.ofBytes_toUTF8` — progress from its stored bytes;
* `Progress.restored_iff_range` — which progress survives being stored.
-/

namespace CoinToss

/-! ## containers -/

namespace Tally

variable {V : Type}

theorem put_of_notMem {path : String} (v : V) {l : List (String × V)}
    (h : path ∉ l.map (·.1)) : put path v l = l ++ [(path, v)] := by
  induction l with
  | nil => rfl
  | cons e l ih =>
      rw [List.map_cons, List.mem_cons, not_or] at h
      rw [put, if_neg (Ne.symm h.1), ih h.2]
      rfl

/-- Entries of different paths are kept as they come. -/
theorem entries_ofList {l : List (String × V)} (h : (l.map (·.1)).Nodup) :
    (ofList l).entries = l := by
  induction l using List.reverseRecOn with
  | nil => rfl
  | append_singleton l e ih =>
      rw [List.map_append, List.nodup_append] at h
      have hfresh : e.1 ∉ l.map (·.1) := fun hm => h.2.2 _ hm _ (by simp) rfl
      rw [ofList, List.foldl_append]
      show put e.1 e.2 (ofList l).entries = l ++ [e]
      rw [ih h.1, put_of_notMem e.2 hfresh]

@[simp] theorem ofList_entries (t : Tally V) : ofList t.entries = t := ext (entries_ofList t.nodup)

end Tally

namespace PathSet

theorem mem_ofList {l : List String} {path : String} : path ∈ ofList l ↔ path ∈ l := by
  induction l using List.reverseRecOn with
  | nil => simp [ofList]
  | append_singleton l q ih =>
      rw [ofList, List.foldl_append]
      show path ∈ (ofList l).insert q ↔ _
      rw [mem_insert, ih, List.mem_append, List.mem_singleton, or_comm]

@[simp] theorem ofList_toList (s : PathSet) : ofList s.toList = s :=
  ext_mem fun _ => mem_ofList

end PathSet

/-! ## values that are read back -/

namespace Json

theorem arePlain_of_forall {depth : Nat} {xs : List Json}
    (h : ∀ x ∈ xs, isPlain depth x = true) : arePlain depth xs = true := by
  induction xs with
  | nil => rfl
  | cons x xs ih =>
      rw [arePlain, h x (by simp), ih fun y hy => h y (by simp [hy])]
      rfl

theorem havePlain_of_forall {depth : Nat} {ms : List (String × Json)}
    (h : ∀ m ∈ ms, isPlain depth m.2 = true) : havePlain depth ms = true := by
  induction ms with
  | nil => rfl
  | cons m ms ih =>
      rw [havePlain, h m (by simp), ih fun n hn => h n (by simp [hn])]
      rfl

end Json

namespace Progress

open Json Schema

theorem isPlain_tallyJson {V : Type} {write : V → Json} {depth : Nat} {t : Tally V}
    (h : ∀ v ∈ t.entries.map (·.2), isPlain depth (write v) = true) :
    isPlain (depth + 1) (tallyJson write t) = true := by
  have hvalues : havePlain depth (t.entries.map fun e => (e.1, write e.2)) = true := by
    refine havePlain_of_forall fun m hm => ?_
    obtain ⟨e, he, rfl⟩ := List.mem_map.1 hm
    exact h e.2 (List.mem_map.2 ⟨e, he, rfl⟩)
  rw [tallyJson, isPlain, hvalues, List.map_map]
  exact decide_eq_true t.nodup

theorem isPlain_setJson (depth : Nat) (s : PathSet) : isPlain (depth + 1) (setJson s) = true := by
  refine arePlain_of_forall fun x hx => ?_
  obtain ⟨path, -, rfl⟩ := List.mem_map.1 hx
  rw [isPlain]

/-- Progress whose integers fit 64 bits is written so that it is read back. -/
theorem isPlain_toJson {p : Progress} (h : p.isStorable = true) (depth : Nat) :
    isPlain (depth + 2) p.toJson = true := by
  have hfits : ∀ n ∈ p.integers, fits64 n = true := List.all_eq_true.1 h
  have hcounts (t : Tally Int) (ht : ∀ n ∈ t.entries.map (·.2), n ∈ p.integers) :
      isPlain (depth + 1) (tallyJson .int t) = true := by
    refine isPlain_tallyJson fun n hn => ?_
    rw [isPlain]
    exact hfits n (ht n hn)
  have hstamps : isPlain (depth + 1) (tallyJson (fun t => .string (DateTime.text t)) p.stamps) =
      true := isPlain_tallyJson fun _ _ => by rw [isPlain]
  have hlandings := hcounts p.landings fun n hn => by simp [integers, hn]
  have hruns := hcounts p.runs fun n hn => by simp [integers, hn]
  simp only [integers, List.cons_append, List.nil_append, List.forall_mem_cons] at hfits
  obtain ⟨htotal, hheads, htails, hstreak, hlongestHeads, hlongestTails, -⟩ := hfits
  simp [toJson, isPlain, havePlain, htotal, hheads, htails, hstreak, hlongestHeads, hlongestTails,
    hlandings, hruns, hstamps, isPlain_setJson]

/-! ## reading what was written -/

theorem dictionary_tallyJson {V : Type} {read : Reading V} {write : V → Json}
    (h : ∀ v, read (write v).bare = .ok v) (t : Tally V) :
    dictionary read (tallyJson write t) = .ok t.entries :=
  valuesOf_map h t.entries

theorem list_setJson (s : PathSet) : list .setType string (setJson s) = .ok s.toList := by
  have helements (l : List String) (i : Nat) :
      elementsFrom string i (l.map .string) = .ok l := by
    induction l generalizing i with
    | nil => rfl
    | cons path l ih => simp [elementsFrom, Schema.string, ih]
  exact helements s.toList 0

/-- Progress is read back from its value. -/
theorem ofJson_toJson (p : Progress) : ofJson p.toJson = .ok p := by
  have hcounts (t : Tally Int) : dictionary int (tallyJson .int t) = .ok t.entries :=
    dictionary_tallyJson (fun _ => rfl) t
  have hstamps : dictionary moment (tallyJson (fun t => .string t.text) p.stamps) =
      .ok p.stamps.entries := by
    refine dictionary_tallyJson (fun t => ?_) p.stamps
    exact moment_text t
  simp only [ofJson, toJson, record, ofMembers, field, Key.find?, Key.camel, Members.field?,
    String.reduceEq, if_true, if_false, Schema.int, hcounts, hstamps, list_setJson,
    Checked.within_ok, Checked.map_ok, Checked.seq_ok, Tally.ofList_entries, PathSet.ofList_toList]

/-- Progress is read back from its stored text. -/
theorem ofText_of_text? {p : Progress} {text : String} (h : p.text? = some text) :
    ofText text = .ok p := by
  rw [text?] at h
  split at h
  · next hfits =>
    rw [← Option.some.inj h, ofText, read?_print (isPlain_toJson hfits 1022)]
    dsimp only
    rw [toJson, ofStored, ← toJson, ofJson_toJson]
    intro h
    cases h
  · contradiction

/-- The bytes of a text are read as the text. -/
theorem fromUTF8?_toUTF8 (text : String) : String.fromUTF8? text.toUTF8 = some text := by
  have hvalid : text.toUTF8.IsValidUTF8 := text.isValidUTF8
  unfold String.fromUTF8?
  rw [dif_pos hvalid]
  rfl

/-- Progress is read back from its stored bytes. -/
theorem ofBytes_toUTF8 {p : Progress} {text : String} (h : p.text? = some text) :
    ofBytes text.toUTF8 = .ok p := by
  rw [ofBytes, fromUTF8?_toUTF8]
  exact ofText_of_text? h

/-! ## the round trip -/

/-- Progress fits if each of its integers lies in the range of 64 bits, signed or not: from
`-2 ^ 63` to `2 ^ 64 - 1`. -/
theorem isStorable_iff_range {p : Progress} :
    p.isStorable = true ↔
      ∀ n ∈ p.integers, -9223372036854775808 ≤ n ∧ n ≤ 18446744073709551615 := by
  rw [isStorable, List.all_eq_true]
  refine forall₂_congr fun n _ => ?_
  rw [fits64, decide_eq_true_iff, signedLimit, unsignedLimit]
  omega

/-- Progress has a text exactly if it fits. -/
theorem text?_isSome {p : Progress} : p.text?.isSome = p.isStorable := by
  rw [text?]
  split <;> simp_all

/-- Progress survives its stored form exactly if its integers lie between `-2 ^ 63` and
`2 ^ 64 - 1`.  It has a text then, and the bytes of that text are read as the same progress.  So
whatever bytes it has been read from itself, writing it and reading that changes nothing. -/
theorem restored_iff_range (p : Progress) :
    (∃ text, p.text? = some text ∧ ofBytes text.toUTF8 = .ok p ∧
        ∀ bytes, ofBytes bytes = .ok p → ofBytes text.toUTF8 = ofBytes bytes) ↔
      ∀ n ∈ p.integers, -9223372036854775808 ≤ n ∧ n ≤ 18446744073709551615 := by
  rw [← isStorable_iff_range, ← text?_isSome, Option.isSome_iff_exists]
  constructor
  · rintro ⟨text, htext, -⟩
    exact ⟨text, htext⟩
  · rintro ⟨text, htext⟩
    have hread : ofBytes text.toUTF8 = .ok p := ofBytes_toUTF8 htext
    exact ⟨text, htext, hread, fun bytes hbytes => hread.trans hbytes.symm⟩

/-- A moment without a zone is within a day of Greenwich. -/
theorem inZone_none (z : Int) (h : (none : Option Int) = some z) : -1440 < z ∧ z < 1440 := by
  contradiction

/-- Progress at both ends of the range, with paths that have to be escaped and with moments of all
kinds: far east and far west of Greenwich, nowhere, and with a fraction. -/
def extremes : Progress :=
  { empty with
    totalFlips := 18446744073709551615
    longestStreak := -9223372036854775808
    landings := .ofList [("a\"b\\c\n", 1), ("\u0001€😀", -1), ("", 0)]
    randomUnlocks := .ofList ["z", "\u007f", "a"]
    stamps := .ofList
      [("z", { year := 1, month := 1, day := 1, hour := 0, minute := 0, second := 1, micro := 0,
               offset := some 1439 }),
       ("y", { year := 9999, month := 12, day := 31, hour := 23, minute := 59, second := 59,
               micro := 999999, offset := some (-1439) }),
       ("x", { year := 2024, month := 2, day := 29, hour := 12, minute := 30, second := 0,
               micro := 1, offset := some 330 }),
       ("w", { year := 999, month := 6, day := 5, hour := 4, minute := 3, second := 2, micro := 10,
               offset := none, inZone := inZone_none })] }

/-- Such progress is read back. -/
theorem restored_iff_range_extremes :
    (∀ n ∈ extremes.integers, -9223372036854775808 ≤ n ∧ n ≤ 18446744073709551615) ∧
      ∃ text, extremes.text? = some text ∧ ofBytes text.toUTF8 = .ok extremes := by
  have hrange : ∀ n ∈ extremes.integers,
      -9223372036854775808 ≤ n ∧ n ≤ 18446744073709551615 := by decide
  obtain ⟨text, htext, hread, -⟩ := (restored_iff_range extremes).2 hrange
  exact ⟨hrange, text, htext, hread⟩

end Progress

end CoinToss

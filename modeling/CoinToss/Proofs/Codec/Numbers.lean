import CoinToss.Json.Reader
import CoinToss.Proofs.Codec.Digits
import CoinToss.Proofs.Decimal.Shortest

/-!
# CoinToss.Proofs.Codec.Numbers

Numbers and words are read back.

A number is read as its digits, the place of its point and its exponent say.  A double is written
with the digits of its shortest decimal, but the point may stand anywhere: in front of them, among
them, or behind them and some zeros.  What is read is a decimal of the same value every time, and
the nearest double to that is the one that was written:

```
d · 10 ^ p  --unsigned-->  text  --unsignedNumber-->  d' · 10 ^ p'  with  d' · 10 ^ p' = d · 10 ^ p
```

* `Ends` — texts that do not go on with a number;
* `Spells`, `spells_unsigned` — what a decimal is read as;
* `Grammar.Admits`, `scalar_int` — integers;
* `text_finite`, `scalar_number` — doubles, the words for those that are no numbers among them.
-/

namespace CoinToss.Json

open Decimal

/-! ## numbers by their parts -/

/-- The digits in front of a number: some, and no zero leads others. -/
structure Leads (whole : List Char) : Prop where
  isDigit : ∀ c ∈ whole, c.isDigit = true
  nonempty : whole.map digitOf ≠ []
  strict : ∀ d ds, whole.map digitOf ≠ 0 :: d :: ds

variable {whole fraction more rest : List Char} {e : Int}

/-- What does not go on with a number. -/
def Ends (rest : List Char) : Prop :=
  ∀ c, rest.head? = some c → c.isDigit = false ∧ c ≠ '.' ∧ c ≠ 'e' ∧ c ≠ 'E'

theorem Ends.noDigitNext (h : Ends rest) : NoDigitNext rest := fun c hc => (h c hc).1

theorem ends_nil : Ends [] := by simp [Ends]

theorem ends_cons {c : Char} (rest : List Char)
    (h : c.isDigit = false ∧ c ≠ '.' ∧ c ≠ 'e' ∧ c ≠ 'E') : Ends (c :: rest) := by
  intro d hd
  rwa [← Option.some.inj hd]

/-- Digits alone are a whole number. -/
theorem unsignedNumber_whole (g : Grammar) (negative : Bool) (h : Leads whole)
    (hrest : Ends rest) : unsignedNumber g negative (whole ++ rest) =
      (do pure (← wholeNumber g negative (whole.map digitOf), rest)) := by
  -- with these two facts at hand the cases of no digits and of a leading zero are out
  have hnonempty := h.nonempty
  have hstrict := h.strict
  simp only [unsignedNumber, spanDigits_append h.isDigit hrest.noDigitNext]
  split
  · simp [Ends] at hrest
  · simp [Ends] at hrest
  · simp [Ends] at hrest
  · rfl

/-- Digits with a point among them are a decimal. -/
theorem unsignedNumber_point (g : Grammar) (negative : Bool) (h : Leads whole)
    (hfraction : ∀ c ∈ fraction, c.isDigit = true) (hsome : fraction ≠ [])
    (hmore : NoDigitNext more) (hmark : takeExponent more = some (e, rest)) :
    unsignedNumber g negative (whole ++ '.' :: (fraction ++ more)) =
      (do pure (← decimalNumber g
        ⟨negative, ofDigits ((whole ++ fraction).map digitOf), e - fraction.length⟩, rest)) := by
  have hnext : NoDigitNext ('.' :: (fraction ++ more)) := by simp [NoDigitNext]
  have hnonempty := h.nonempty
  have hstrict := h.strict
  have hdigits : fraction.map digitOf ≠ [] := by simpa using hsome
  simp only [unsignedNumber, spanDigits_append h.isDigit hnext,
    spanDigits_append hfraction hmore, hmark, List.map_append, List.length_map]
  rfl

/-- Digits with an exponent are a decimal. -/
theorem unsignedNumber_exponent (g : Grammar) (negative : Bool) (h : Leads whole)
    (hmark : takeExponent ('e' :: more) = some (e, rest)) :
    unsignedNumber g negative (whole ++ 'e' :: more) =
      (do pure (← decimalNumber g ⟨negative, ofDigits (whole.map digitOf), e⟩, rest)) := by
  have hnext : NoDigitNext ('e' :: more) := by simp [NoDigitNext]
  have hnonempty := h.nonempty
  have hstrict := h.strict
  simp only [unsignedNumber, spanDigits_append h.isDigit hnext, hmark]
  rfl

/-! ## decimals -/

theorem signed_natAbs (n : Int) : signed (decide (n < 0)) n.natAbs = n := by
  unfold signed
  simp only [decide_eq_true_eq]
  split <;> omega

theorem takeExponent_of_ends (hrest : Ends rest) : takeExponent rest = some (0, rest) := by
  unfold takeExponent
  split
  · simp [Ends] at hrest
  · simp [Ends] at hrest
  · rfl

/-- An exponent is read with its sign, whatever its width. -/
theorem takeExponent_exponentText (s : ShortestStyle) (e : Int) (hrest : Ends rest) :
    takeExponent ('e' :: (s.exponentText e ++ rest)) = some (e, rest) := by
  have hspan := spanDigits_append (DateTime.isDigit_padded s.exponentWidth e.natAbs)
    hrest.noDigitNext
  have hsign : takeSign (s.exponentText e ++ rest) =
      (decide (e < 0), DateTime.padded s.exponentWidth e.natAbs ++ rest) := by
    unfold ShortestStyle.exponentText
    by_cases h : e < 0
    · simp only [h, decide_true]
      rfl
    · simp only [h, decide_false]
      rfl
  have hsome : (DateTime.padded s.exponentWidth e.natAbs).map digitOf ≠ [] := by
    simpa using DateTime.padded_ne_nil s.exponentWidth e.natAbs
  simp only [takeExponent, hsign, hspan]
  rw [DateTime.ofDigits_padded, signed_natAbs]

/-- A text with a point or an exponent that is read as a decimal. -/
structure Spells (cs : List Char) (d : Nat) (p : Int) : Prop where
  head : ∃ c, cs.head? = some c ∧ c.isDigit = true
  read : ∀ (g : Grammar) (negative : Bool) (rest : List Char), Ends rest →
    unsignedNumber g negative (cs ++ rest) =
      (do pure (← decimalNumber g ⟨negative, d, p⟩, rest))

theorem Leads.head (h : Leads whole) (cs : List Char) :
    ∃ c, (whole ++ cs).head? = some c ∧ c.isDigit = true := by
  cases whole with
  | nil => exact absurd rfl h.nonempty
  | cons c whole => exact ⟨c, rfl, h.isDigit c (by simp)⟩

theorem spells_point (h : Leads whole) (hfraction : ∀ c ∈ fraction, c.isDigit = true)
    (hsome : fraction ≠ []) :
    Spells (whole ++ '.' :: fraction) (ofDigits ((whole ++ fraction).map digitOf))
      (-fraction.length) where
  head := h.head _
  read g negative rest hrest := by
    have hread := unsignedNumber_point g negative h hfraction hsome
      hrest.noDigitNext (takeExponent_of_ends hrest)
    simpa using hread

theorem spells_exponent (s : ShortestStyle) (e : Int) (h : Leads whole) :
    Spells (whole ++ 'e' :: s.exponentText e) (ofDigits (whole.map digitOf)) e where
  head := h.head _
  read g negative rest hrest := by
    have hread := unsignedNumber_exponent g negative h
      (takeExponent_exponentText s e hrest)
    simpa using hread

theorem spells_point_exponent (s : ShortestStyle) (e : Int) (h : Leads whole)
    (hfraction : ∀ c ∈ fraction, c.isDigit = true) (hsome : fraction ≠ []) :
    Spells (whole ++ '.' :: fraction ++ 'e' :: s.exponentText e)
      (ofDigits ((whole ++ fraction).map digitOf)) (e - fraction.length) where
  head := by
    rw [List.append_assoc]
    exact h.head _
  read g negative rest hrest := by
    have hnext : NoDigitNext ('e' :: (s.exponentText e ++ rest)) := by simp [NoDigitNext]
    have hread := unsignedNumber_point g negative h hfraction hsome hnext
      (takeExponent_exponentText s e hrest)
    simpa using hread

theorem leads_natDigits (n : Nat) : Leads (natDigits n) where
  isDigit := isDigit_natDigits n
  nonempty := by
    obtain ⟨d, ds, hds, -⟩ := natDigits_cases n
    simp [hds]
  strict d ds h := by
    obtain ⟨d', ds', hds, hlead⟩ := natDigits_cases n
    rw [hds] at h
    obtain ⟨hd, htail⟩ := List.cons.inj h
    simp [hlead hd] at htail

/-- The front of the digits of a positive number, and zeros. -/
theorem leads_take {n k : Nat} (hn : 0 < n) (hk : 0 < k) (zeros : Nat) :
    Leads ((natDigits n).take k ++ List.replicate zeros '0') := by
  obtain ⟨c, cs, hcs, hc⟩ := natDigits_of_pos hn
  obtain ⟨k, rfl⟩ := Nat.exists_eq_succ_of_ne_zero (Nat.ne_of_gt hk)
  constructor
  · intro c hc
    rcases List.mem_append.1 hc with hc | hc
    · exact isDigit_natDigits n c (List.mem_of_mem_take hc)
    · rw [List.eq_of_mem_replicate hc]
      rfl
  · simp [hcs]
  · simp [hcs, hc]

variable {d : Nat} {p : Int}

/-- All digits behind the point, filled up with zeros. -/
theorem spells_below (h : (natDigits d).length + p ≤ 0) :
    Spells ('0' :: '.' :: DateTime.padded (-p).toNat d) d p := by
  have hread := spells_point (leads_natDigits 0) (DateTime.isDigit_padded (-p).toNat d)
    (DateTime.padded_ne_nil (-p).toNat d)
  have hvalue : ofDigits ((natDigits 0 ++ DateTime.padded (-p).toNat d).map digitOf) = d :=
    (ofDigits_zeros_append 1 _).trans (DateTime.ofDigits_padded _ d)
  have hlength : (-(DateTime.padded (-p).toNat d).length : Int) = p := by
    simp [DateTime.padded]
    omega
  rw [hvalue, hlength] at hread
  exact hread

/-- All digits and zeros in front of the point. -/
theorem spells_above (hd : 0 < d) (k : Nat) :
    Spells (natDigits d ++ List.replicate k '0' ++ ['.', '0']) (d * 10 ^ k * 10) (-1) := by
  have hlead := leads_take hd (length_natDigits_pos d) k
  rw [List.take_length] at hlead
  have hread := spells_point hlead (show ∀ c ∈ ['0'], c.isDigit = true by simp) (by simp)
  have hvalue : ofDigits ((natDigits d ++ List.replicate k '0' ++ ['0']).map digitOf) =
      d * 10 ^ k * 10 :=
    (ofDigits_append_zeros _ 1).trans (by rw [ofDigits_append_zeros, ofDigits_natDigits, pow_one])
  rw [hvalue] at hread
  exact hread

/-- The point among the digits. -/
theorem spells_among {k : Nat} (hd : 0 < d) (hk : 0 < k) (h : k = (natDigits d).length + p)
    (hp : p < 0) :
    Spells ((natDigits d).take k ++ '.' :: (natDigits d).drop k) d p := by
  have hdrop : ∀ c ∈ (natDigits d).drop k, c.isDigit = true :=
    fun c hc => isDigit_natDigits d c (List.mem_of_mem_drop hc)
  have hread := spells_point (by simpa using leads_take hd hk 0) hdrop (by simp; omega)
  have hlength : (-((natDigits d).drop k).length : Int) = p := by
    rw [List.length_drop]
    omega
  rw [List.take_append_drop, ofDigits_natDigits, hlength] at hread
  exact hread

/-- An exponent behind the digits, of which the first one is in front of the point. -/
theorem spells_scientific (s : ShortestStyle) (hd : 0 < d) :
    Spells ((natDigits d).take 1 ++
        (if ((natDigits d).drop 1).isEmpty then [] else '.' :: (natDigits d).drop 1) ++
        'e' :: s.exponentText ((natDigits d).length - 1 + p)) d p := by
  have hlead : Leads ((natDigits d).take 1) := by simpa using leads_take hd Nat.one_pos 0
  by_cases hone : (natDigits d).length ≤ 1
  · have hpoint : ((natDigits d).length : Int) - 1 + p = p := by
      have hpos := length_natDigits_pos d
      omega
    rw [List.take_of_length_le hone, List.drop_of_length_le hone, hpoint]
    have hread := spells_exponent s p (leads_natDigits d)
    rw [ofDigits_natDigits] at hread
    simpa using hread
  · have hdrop : ∀ c ∈ (natDigits d).drop 1, c.isDigit = true :=
      fun c hc => isDigit_natDigits d c (List.mem_of_mem_drop hc)
    have hsome : (natDigits d).drop 1 ≠ [] := by
      rw [Ne, List.drop_eq_nil_iff]
      exact hone
    have hread := spells_point_exponent s ((natDigits d).length - 1 + p) hlead hdrop hsome
    have hlength : ((natDigits d).length - 1 + p - ((natDigits d).drop 1).length : Int) = p := by
      rw [List.length_drop]
      omega
    rw [List.take_append_drop, ofDigits_natDigits, hlength] at hread
    rw [if_neg (by rwa [List.isEmpty_iff])]
    exact hread

/-- The digits of a positive number are written with its value, wherever the point is. -/
theorem spells_unsigned (s : ShortestStyle) (hd : 0 < d) (p : Int) :
    ∃ (d' : Nat) (p' : Int),
      Spells (s.unsigned (natDigits d) ((natDigits d).length - 1 + p)) d' p' ∧
        (d' * 10 ^ p' : ℚ) = d * 10 ^ p := by
  generalize hpoint : ((natDigits d).length - 1 + p : Int) = point
  unfold ShortestStyle.unsigned
  dsimp only
  split
  · split
    · refine ⟨d, p, ?_, rfl⟩
      have hzeros : (-point - 1).toNat = (-p).toNat - (natDigits d).length := by omega
      rw [hzeros]
      exact spells_below (by omega)
    · by_cases hp : 0 ≤ p
      · obtain ⟨k, rfl⟩ := Int.eq_ofNat_of_zero_le hp
        have hwidth : (point + 1).toNat = (natDigits d).length + k := by omega
        refine ⟨d * 10 ^ k * 10, -1, ?_, by simp⟩
        rw [hwidth, List.take_of_length_le (Nat.le_add_right _ k),
          List.drop_of_length_le (Nat.le_add_right _ k), Nat.add_sub_cancel_left]
        exact spells_above hd k
      · refine ⟨d, p, ?_, rfl⟩
        have hread := spells_among (p := p) (k := (point + 1).toNat) hd (by omega) (by omega)
          (by omega)
        have hshort : (point + 1).toNat - (natDigits d).length = 0 := by omega
        have hsome : (natDigits d).drop (point + 1).toNat ≠ [] := by
          rw [Ne, List.drop_eq_nil_iff]
          omega
        rw [if_neg (by rwa [List.isEmpty_iff]), hshort]
        simpa using hread
  · refine ⟨d, p, ?_, rfl⟩
    rw [← hpoint]
    exact spells_scientific s hd

/-! ## words and signs -/

theorem isPrefixOf?_of_ne {a c : Char} (h : c ≠ a) (word cs : List Char) :
    (a :: word).isPrefixOf? (c :: cs) = none := by
  show (if a == c then word.isPrefixOf? cs else none) = none
  rw [if_neg (by simpa using h.symm)]

/-- A digit begins no word, and neither does a minus in front of a digit. -/
theorem word?_digit (g : Grammar) {c : Char} (hc : c.isDigit = true) (cs : List Char) :
    word? g (c :: cs) = none ∧ word? g ('-' :: c :: cs) = none := by
  have hne {a : Char} (ha : a.isDigit = false) : c ≠ a := by
    rintro rfl
    rw [hc] at ha
    contradiction
  have hminus (word : List Char) : ('-' :: 'I' :: word).isPrefixOf? ('-' :: c :: cs) = none :=
    isPrefixOf?_of_ne (hne rfl) word cs
  obtain ⟨words, _, _, _, _⟩ := g
  cases words <;> simp [word?, isPrefixOf?_of_ne, hne, hminus]

theorem scalar_signed (g : Grammar) (negative : Bool) {cs : List Char}
    (h : ∃ c, cs.head? = some c ∧ c.isDigit = true) (rest : List Char) :
    scalar g ((if negative then '-' :: cs else cs) ++ rest) =
      unsignedNumber g negative (cs ++ rest) := by
  obtain ⟨c, hhead, hc⟩ := h
  obtain ⟨cs, rfl⟩ := List.head?_eq_some_iff.1 hhead
  have hminus : c ≠ '-' := by
    rintro rfl
    contradiction
  unfold scalar
  cases negative with
  | true => simp [(word?_digit g hc (cs ++ rest)).2]
  | false => simp [(word?_digit g hc (cs ++ rest)).1, hminus]

/-! ## integers -/

/-- Integers that a grammar keeps. -/
structure Grammar.Admits (g : Grammar) (n : Int) : Prop where
  bounded : g.unbounded = true ∨ fits64 n = true
  short : ∀ limit, g.digits = some limit → (natDigits n.natAbs).length ≤ limit

theorem toList_intText (n : Int) :
    (intText n).toList =
      if decide (n < 0) then '-' :: natDigits n.natAbs else natDigits n.natAbs := by
  cases n <;> simp [intText]

theorem wholeNumber_natDigits {g : Grammar} {n : Int} (h : g.Admits n) :
    wholeNumber g (decide (n < 0)) ((natDigits n.natAbs).map digitOf) = .ok (.int n) := by
  have hbounded : wholeNumber.bounded g n = .ok (.int n) := by
    rw [wholeNumber.bounded, if_pos (by simpa using h.bounded)]
  simp only [wholeNumber, ofDigits_natDigits, signed_natAbs, hbounded]
  split
  · next limit hlimit => rw [if_neg (by simpa using h.short limit hlimit)]
  · rfl

theorem scalar_int {g : Grammar} {n : Int} (h : g.Admits n) (hrest : Ends rest) :
    scalar g ((intText n).toList ++ rest) = .ok (.int n, rest) := by
  rw [toList_intText, scalar_signed g _ (by simpa using (leads_natDigits n.natAbs).head []),
    unsignedNumber_whole g _ (leads_natDigits n.natAbs) hrest, wholeNumber_natDigits h]
  rfl

/-! ## doubles -/

theorem text_finite (s : ShortestStyle) {x : Float} {negative : Bool} {m : Nat}
    (h : datum x = .finite negative m e) :
    ∃ (cs : List Char) (d : Nat) (p : Int), Spells cs d p ∧ nearestDecimal negative d p = x ∧
      (s.text x).toList = if negative then '-' :: cs else cs := by
  rcases Nat.eq_zero_or_pos m with rfl | hm
  · refine ⟨['0', '.', '0'], 0, -1, ?_, ?_, ?_⟩
    · exact spells_point (leads_natDigits 0) (show ∀ c ∈ ['0'], c.isDigit = true by simp) (by simp)
    · have hleast : e = -1074 := by
        have hdouble := isDouble_datum h
        have := hdouble.full
        omega
      rw [eq_ofFields h, hleast]
      rfl
    · simp [ShortestStyle.text, h]
  · obtain ⟨d, p, hspells, hvalue⟩ := spells_unsigned s (shortest_covers (isDouble_datum h) hm).1
      (shortest m e).2
    refine ⟨_, d, p, hspells, nearestDecimal_of_shortest h hm hvalue, ?_⟩
    simp [ShortestStyle.text, h, Nat.ne_of_gt hm]

/-- A double is read back from its text. -/
theorem scalar_number {g : Grammar} {x : Float} (h : g.words = true ∨ x.isFinite = true)
    (hrest : Ends rest) :
    scalar g ((numberStyle.text x).toList ++ rest) = .ok (.number x, rest) := by
  rw [← isFinite_datum] at h
  cases hx : datum x with
  | notANumber =>
      have hwords : g.words = true := by simpa [hx] using h
      rw [ShortestStyle.text, hx, eq_notANumber hx]
      simp only [scalar, word?, hwords]
      rfl
  | infinite negative =>
      have hwords : g.words = true := by simpa [hx] using h
      rw [ShortestStyle.text, hx, eq_infinity hx]
      simp only [scalar, word?, hwords]
      cases negative <;> rfl
  | finite negative m e =>
      obtain ⟨cs, d, p, hspells, hnearest, htext⟩ := text_finite numberStyle hx
      rw [htext, scalar_signed g negative hspells.head, hspells.read g negative rest hrest]
      simp only [decimalNumber, Scientific.toFloat, hnearest, hx]
      rfl

theorem scalar_null (g : Grammar) (rest : List Char) :
    scalar g ("null".toList ++ rest) = .ok (.null, rest) := rfl

theorem scalar_bool (g : Grammar) (b : Bool) (rest : List Char) :
    scalar g ((if b then "true" else "false").toList ++ rest) = .ok (.bool b, rest) := by
  cases b <;> rfl

end CoinToss.Json

import CoinToss.Json.Reader

/-!
# CoinToss.Proofs.Codec.Strings

Strings between quotation marks are read back.

Every character is written in one of three ways: as it is, by a short escape, or by the escapes of
its sixteen-bit units.  Where text is ASCII only, a character beyond the sixteen-bit ones is written
as two halves, which are put together when the whole string has been read:

```
characters  --quotedChar-->  text  --stringUnits-->  units  --joinUnits-->  characters
```

* `hexUnit?_hexDigit` — the four digits of a unit;
* `spelled`, `stringUnits_quotedChar` — what a character is read as;
* `joinUnits_spelled` — and what that comes to;
* `stringTail_quoted` — a string, up to its closing quotation mark.
-/

namespace CoinToss.Json

open Text

/-! ## characters and their codes -/

theorem not_isHalf_toNat (c : Char) : isHalf c.toNat = false := by
  have hvalid : c.toNat < 0xD800 ∨ (0xDFFF < c.toNat ∧ c.toNat < 0x110000) := c.valid
  rw [isHalf, decide_eq_false_iff_not]
  omega

theorem isWhole_codes (cs : List Char) : isWhole (cs.map Char.toNat) = true := by
  simp [isWhole, not_isHalf_toNat]

theorem textOf_codes (s : String) : textOf (s.toList.map Char.toNat) = s := by
  simp [textOf, Function.comp_def]

theorem ofCodes_codes (s : String) : ofCodes (s.toList.map Char.toNat) = .string s := by
  rw [ofCodes, if_pos (isWhole_codes _), textOf_codes]

theorem member_codes (s : String) (v : Json) :
    member (s.toList.map Char.toNat) v = (s, v) := by
  rw [member, if_pos (isWhole_codes _), textOf_codes]

/-! ## escapes -/

theorem hexValue?_hexDigit {k : Nat} (h : k < 16) : hexValue? (hexDigit k) = some k := by
  have hall : ∀ k, k < 16 → hexValue? (hexDigit k) = some k := by decide
  exact hall k h

/-- A unit is the number of its four hexadecimal digits. -/
theorem hexUnit?_hexDigit {n : Nat} (h : n < 0x10000) :
    hexUnit? (hexDigit (n / 4096 % 16)) (hexDigit (n / 256 % 16)) (hexDigit (n / 16 % 16))
      (hexDigit (n % 16)) = some n := by
  have hdigit (k : Nat) : hexValue? (hexDigit (k % 16)) = some (k % 16) :=
    hexValue?_hexDigit (Nat.mod_lt k (by decide))
  simp only [hexUnit?, hdigit, Option.some.injEq]
  omega

theorem stringUnits_unitEscape {n : Nat} (h : n < 0x10000) (rest : List Char) :
    stringUnits (unitEscape n ++ rest) = (stringUnits rest).map fun p => (n :: p.1, p.2) := by
  simp [unitEscape, stringUnits, hexUnit?_hexDigit h]

/-- Escaped units are read one by one. -/
theorem stringUnits_unitEscapes {units : List Nat} (h : ∀ u ∈ units, u < 0x10000)
    (rest : List Char) :
    stringUnits (units.flatMap unitEscape ++ rest) =
      (stringUnits rest).map fun p => (units ++ p.1, p.2) := by
  induction units with
  | nil => simp
  | cons u units ih =>
      rw [List.flatMap_cons, List.append_assoc, stringUnits_unitEscape (h u (by simp)),
        ih fun v hv => h v (by simp [hv]), Option.map_map]
      rfl

theorem lt_of_mem_unitsOf {code u : Nat} (hcode : code < 0x110000) (h : u ∈ unitsOf code) :
    u < 0x10000 := by
  unfold unitsOf at h
  split at h
  · next hsmall => rwa [List.mem_singleton.1 h]
  · simp at h
    omega

theorem toNat_lt (c : Char) : c.toNat < 0x110000 := by
  have hvalid : c.toNat < 0xD800 ∨ (0xDFFF < c.toNat ∧ c.toNat < 0x110000) := c.valid
  omega

/-! ## strings -/

/-- What a character is read as, before halves are put together. -/
def spelled (ascii : Bool) (c : Char) : List Nat := if ascii then unitsOf c.toNat else [c.toNat]

theorem spelled_of_lt {ascii : Bool} {c : Char} (h : c.toNat < 0x10000) :
    spelled ascii c = [c.toNat] := by
  simp [spelled, unitsOf, h]

theorem stringUnits_cons {c : Char} (hquote : c ≠ '"') (hback : c ≠ '\\')
    (hcontrol : ¬c.toNat < 0x20) (rest : List Char) :
    stringUnits (c :: rest) = (stringUnits rest).map fun p => (c.toNat :: p.1, p.2) := by
  rw [stringUnits]
  · rw [if_neg (by simp [hcontrol, hback])]
  · exact hquote
  · rintro _ _ _ _ _ rfl
    exact absurd rfl hback
  · rintro _ _ rfl
    exact absurd rfl hback

/-- A character that is escaped by its units is read as those. -/
theorem stringUnits_charEscape {ascii : Bool} {c : Char}
    (h : (decide (c.toNat < 0x20) || (ascii && decide (0x7F ≤ c.toNat))) = true)
    (rest : List Char) :
    stringUnits (charEscape c ++ rest) =
      (stringUnits rest).map fun p => (spelled ascii c ++ p.1, p.2) := by
  have hspelled : spelled ascii c = unitsOf c.toNat := by
    cases ascii with
    | true => rw [spelled, if_pos rfl]
    | false =>
        have hcontrol : c.toNat < 0x20 := by simpa using h
        rw [spelled_of_lt (by omega), unitsOf, if_pos (by omega)]
  rw [charEscape, hspelled, stringUnits_unitEscapes fun u => lt_of_mem_unitsOf (toNat_lt c)]

/-- A quoted character is read as it is spelled. -/
theorem stringUnits_quotedChar (ascii : Bool) (c : Char) (rest : List Char) :
    stringUnits (quotedChar ascii c ++ rest) =
      (stringUnits rest).map fun p => (spelled ascii c ++ p.1, p.2) := by
  unfold quotedChar
  split
  case h_8 hquote hback _ _ _ _ _ =>
    split
    · next h => exact stringUnits_charEscape h rest
    · next h =>
      simp only [Bool.or_eq_true, Bool.and_eq_true, decide_eq_true_eq, not_or, not_and] at h
      have hspelled : spelled ascii c = [c.toNat] := by
        cases ascii with
        | true => exact spelled_of_lt (by have := h.2 rfl; omega)
        | false => rfl
      rw [hspelled]
      exact stringUnits_cons hquote hback h.1 rest
  all_goals cases ascii <;> rfl

theorem stringUnits_quotedChars (ascii : Bool) (cs : List Char) (rest : List Char) :
    stringUnits (cs.flatMap (quotedChar ascii) ++ '"' :: rest) =
      some (cs.flatMap (spelled ascii), rest) := by
  induction cs with
  | nil => rfl
  | cons c cs ih =>
      rw [List.flatMap_cons, List.append_assoc, stringUnits_quotedChar, ih, List.flatMap_cons]
      rfl

/-- The halves of a character come together again. -/
theorem joinUnits_spelled (ascii : Bool) (cs : List Char) :
    joinUnits (cs.flatMap (spelled ascii)) = cs.map Char.toNat := by
  induction cs with
  | nil => rfl
  | cons c cs ih =>
      rw [List.flatMap_cons, List.map_cons, ← ih]
      cases ascii with
      | true =>
          rw [spelled, if_pos rfl, joinUnits_unitsOf_append (not_isHalf_toNat c) (toNat_lt c)]
      | false => exact joinUnits_cons (not_isHalf_toNat c) _

/-- A string is read up to its closing quotation mark. -/
theorem stringTail_quoted (g : Grammar) (ascii : Bool) (s : String) (rest : List Char) :
    stringTail g (s.toList.flatMap (quotedChar ascii) ++ '"' :: rest) =
      .ok (s.toList.map Char.toNat, rest) := by
  simp [stringTail, stringUnits_quotedChars, joinUnits_spelled, isWhole_codes]

end CoinToss.Json

/-!
# CoinToss.Text.Units

Characters as code points and as sixteen-bit units.

A character from U+10000 on takes two units, a high and a low half, whose codes stand for no
character themselves.  Where text is spelled in units a half can stand alone; what holds such a
half is a list of code points but no text.

* `joinUnits_unitsOf` — joining the units of characters gives back the characters.
-/

namespace CoinToss.Text

/-- Whether a code is that of half a character. -/
def isHalf (code : Nat) : Bool := decide (0xD800 ≤ code ∧ code < 0xE000)

/-- The units of a code point. -/
def unitsOf (code : Nat) : List Nat :=
  if code < 0x10000 then [code]
  else [0xD800 + (code - 0x10000) / 0x400, 0xDC00 + (code - 0x10000) % 0x400]

/-- Puts the halves of characters together, as far as they have partners. -/
def joinUnits : List Nat → List Nat
  | [] => []
  | [u] => [u]
  | u :: v :: rest =>
    if 0xD800 ≤ u ∧ u < 0xDC00 ∧ 0xDC00 ≤ v ∧ v < 0xE000 then
      (0x10000 + (u - 0xD800) * 0x400 + (v - 0xDC00)) :: joinUnits rest
    else u :: joinUnits (v :: rest)

/-- Whether code points are those of a text. -/
def isWhole (codes : List Nat) : Bool := codes.all fun code => !isHalf code

/-- The text of code points. -/
def textOf (codes : List Nat) : String := String.ofList (codes.map Char.ofNat)

/-- The text of code points with U+FFFD in place of each half. -/
def mendedText (codes : List Nat) : String :=
  String.ofList (codes.map fun code => if isHalf code then '\ufffd' else Char.ofNat code)

/-! ## laws -/

/-- A unit that is no half stands for itself. -/
theorem joinUnits_cons {u : Nat} (h : isHalf u = false) (rest : List Nat) :
    joinUnits (u :: rest) = u :: joinUnits rest := by
  have hu : ¬ (0xD800 ≤ u ∧ u < 0xE000) := by simpa [isHalf] using h
  cases rest with
  | nil => rfl
  | cons v rest => rw [joinUnits, if_neg (by omega)]

/-- Two halves that belong together are one code point. -/
theorem joinUnits_pair {u v : Nat} (hu : 0xD800 ≤ u ∧ u < 0xDC00) (hv : 0xDC00 ≤ v ∧ v < 0xE000)
    (rest : List Nat) :
    joinUnits (u :: v :: rest) = (0x10000 + (u - 0xD800) * 0x400 + (v - 0xDC00)) :: joinUnits rest := by
  rw [joinUnits, if_pos ⟨hu.1, hu.2, hv.1, hv.2⟩]

/-- The units of a code point stand for it, whatever follows. -/
theorem joinUnits_unitsOf_append {c : Nat} (h : isHalf c = false) (hlt : c < 0x110000)
    (rest : List Nat) : joinUnits (unitsOf c ++ rest) = c :: joinUnits rest := by
  unfold unitsOf
  split
  · exact joinUnits_cons h rest
  · next hs =>
    have hj := joinUnits_pair (u := 0xD800 + (c - 0x10000) / 0x400)
      (v := 0xDC00 + (c - 0x10000) % 0x400) (by omega) (by omega) rest
    rw [List.cons_append, List.cons_append, List.nil_append, hj]
    exact congrArg (· :: joinUnits rest) (by omega)

/-- Joining the units of code points gives back the code points. -/
theorem joinUnits_unitsOf {codes : List Nat} (h : ∀ c ∈ codes, isHalf c = false ∧ c < 0x110000) :
    joinUnits (codes.flatMap unitsOf) = codes := by
  induction codes with
  | nil => rfl
  | cons c codes ih =>
    obtain ⟨hc, hlt⟩ := h c (by simp)
    rw [List.flatMap_cons, joinUnits_unitsOf_append hc hlt, ih fun d hd => h d (by simp [hd])]

end CoinToss.Text

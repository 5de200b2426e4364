/-!
# CoinToss.Text.Blank

Blank characters and what trimming takes away.

Two classes are in use.  *White space* is the Unicode property of that name; numbers are trimmed by
it.  *Blanks* add the four information separators U+001C to U+001F; words typed by a player are
trimmed by those.

* `isBlank_of_isWhiteSpace` — every white space is a blank;
* `trim_append_cons` — a character outside the class stops the trimming on its left.
-/

namespace CoinToss.Text

/-- The Unicode property White_Space. -/
def isWhiteSpace (c : Char) : Bool :=
  let n := c.toNat
  (0x09 ≤ n && n ≤ 0x0D) || n == 0x20 || n == 0x85 || n == 0xA0 || n == 0x1680 ||
    (0x2000 ≤ n && n ≤ 0x200A) || n == 0x2028 || n == 0x2029 || n == 0x202F || n == 0x205F ||
    n == 0x3000

/-- A white space or one of the information separators U+001C to U+001F. -/
def isBlank (c : Char) : Bool :=
  isWhiteSpace c || (0x1C ≤ c.toNat && c.toNat ≤ 0x1F)

/-- Drops the characters of a class from both ends. -/
def trim (p : Char → Bool) (cs : List Char) : List Char :=
  ((cs.dropWhile p).reverse.dropWhile p).reverse

/-- Every white space is a blank. -/
theorem isBlank_of_isWhiteSpace {c : Char} (h : isWhiteSpace c = true) : isBlank c = true := by
  simp [isBlank, h]

/-- Trimming keeps everything from the first character outside the class to the last one. -/
theorem trim_append_cons {p : Char → Bool} {c : Char} (pre post : List Char)
    (hpre : ∀ x ∈ pre, p x = true) (hc : p c = false) :
    trim p (pre ++ c :: post) = ((c :: post).reverse.dropWhile p).reverse := by
  rw [trim, List.dropWhile_append_of_pos hpre, List.dropWhile_cons_of_neg (by simp [hc])]

end CoinToss.Text

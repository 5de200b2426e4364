/-!
# CoinToss.Text.Capital

Capital letters, as far as they are ASCII.

A few letters beyond ASCII have capitals within it: the dotless i, the long and the sharp s, and
the ligatures of f and s.  All other letters beyond ASCII are left alone, so a text that has
another one is no ASCII word in capitals either.
-/

namespace CoinToss.Text

/-- The capitals of letters beyond ASCII whose capitals are ASCII. -/
def foreignCapitals : List (Nat × String) :=
  [(0xDF, "SS"), (0x131, "I"), (0x17F, "S"), (0xFB00, "FF"), (0xFB01, "FI"), (0xFB02, "FL"),
   (0xFB03, "FFI"), (0xFB04, "FFL"), (0xFB05, "ST"), (0xFB06, "ST")]

/-- The capitals of a character. -/
def capitals (c : Char) : List Char :=
  match foreignCapitals.lookup c.toNat with
  | some cs => cs.toList
  | none => [c.toUpper]

/-- A text in capitals. -/
def inCapitals (s : String) : String := String.ofList (s.toList.flatMap capitals)

end CoinToss.Text

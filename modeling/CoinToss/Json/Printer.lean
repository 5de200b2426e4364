import CoinToss.Json.Value
import CoinToss.Decimal.Shortest
import CoinToss.Text.Units

/-!
# CoinToss.Json.Printer

JSON text of a value.

A `Layout` says what the texts differ in: the space after a comma and a colon, indentation, and
whether characters beyond ASCII are escaped.  Inside a string a quotation mark, a backslash and
the control characters are always escaped, and so is half of a character.

Printing itself has no bounds: how long integers may be and how deep containers be nested is up to
a writer (`CoinToss.Json.Writing`), who is asked first where a value may be beyond them.
-/

namespace CoinToss.Json

open Decimal Text

/-- How JSON text is laid out. -/
structure Layout where
  /-- A space follows each comma and colon. -/
  spaced : Bool
  /-- Containers are broken over lines, indented by so many spaces a level. -/
  indent : Option Nat
  /-- Characters outside the printable ASCII ones are escaped. -/
  ascii : Bool

/-- One line without spaces, text unescaped as far as possible. -/
def Layout.compact : Layout := ⟨false, none, false⟩

/-- One line with spaces, ASCII only. -/
def Layout.spacedAscii : Layout := ⟨true, none, true⟩

/-- One member or element a line, four spaces a level, ASCII only. -/
def Layout.indented : Layout := ⟨true, some 4, true⟩

/-- Doubles are written with the fewest digits that read back, positionally from `1e-4` up to
`1e16`. -/
def numberStyle : ShortestStyle where
  smallest := -4
  large := 16
  exponentWidth := 2
  notANumber := "NaN"
  infinity := "Infinity"

/-- A lower-case hexadecimal digit. -/
def hexDigit (n : Nat) : Char := "0123456789abcdef".toList.getD n '0'

/-- The escape of a sixteen-bit unit. -/
def unitEscape (n : Nat) : List Char :=
  ['\\', 'u', hexDigit (n / 4096 % 16), hexDigit (n / 256 % 16), hexDigit (n / 16 % 16),
   hexDigit (n % 16)]

/-- The escape of a character. -/
def charEscape (c : Char) : List Char := (unitsOf c.toNat).flatMap unitEscape

/-- A character inside quotation marks. -/
def quotedChar (ascii : Bool) (c : Char) : List Char :=
  match c with
  | '"' => ['\\', '"']
  | '\\' => ['\\', '\\']
  | '\n' => ['\\', 'n']
  | '\r' => ['\\', 'r']
  | '\t' => ['\\', 't']
  | '\x08' => ['\\', 'b']
  | '\x0c' => ['\\', 'f']
  | c =>
    if c.toNat < 0x20 || (ascii && 0x7F ≤ c.toNat) then charEscape c else [c]

/-- A string in quotation marks. -/
def quoted (ascii : Bool) (s : String) : List Char :=
  '"' :: (s.toList.flatMap (quotedChar ascii) ++ ['"'])

/-- A code point inside quotation marks. -/
def quotedCode (ascii : Bool) (code : Nat) : List Char :=
  if isHalf code then unitEscape code else quotedChar ascii (Char.ofNat code)

/-- Code points in quotation marks. -/
def quotedCodes (ascii : Bool) (codes : List Nat) : List Char :=
  '"' :: (codes.flatMap (quotedCode ascii) ++ ['"'])

/-- The name of a member, in quotation marks. -/
def quotedName (ascii : Bool) (name : String) : Json → List Char
  | .misnamed codes _ => quotedCodes ascii codes
  | _ => quoted ascii name

/-- The start of a new line at a depth, if the layout breaks lines. -/
def Layout.newline (l : Layout) (depth : Nat) : List Char :=
  match l.indent with
  | none => []
  | some width => '\n' :: List.replicate (width * depth) ' '

/-- What separates two entries of a container. -/
def Layout.comma (l : Layout) (depth : Nat) : List Char :=
  match l.indent with
  | none => if l.spaced then [',', ' '] else [',']
  | some _ => ',' :: l.newline depth

/-- What separates a key from its value. -/
def Layout.colon (l : Layout) : List Char := if l.spaced then [':', ' '] else [':']

mutual
/-- The text of a value at a depth. -/
def chars (l : Layout) (depth : Nat) : Json → List Char
  | .null => "null".toList
  | .bool b => (if b then "true" else "false").toList
  | .int n => (intText n).toList
  | .number x => (numberStyle.text x).toList
  | .string s => quoted l.ascii s
  | .broken codes => quotedCodes l.ascii codes
  | .array [] => ['[', ']']
  | .array (x :: xs) =>
    '[' :: l.newline (depth + 1) ++ chars l (depth + 1) x ++ elementChars l (depth + 1) xs ++
      l.newline depth ++ [']']
  | .object [] => ['\x7b', '\x7d']
  | .object ((k, v) :: ms) =>
    '\x7b' :: l.newline (depth + 1) ++ quotedName l.ascii k v ++ l.colon ++ chars l (depth + 1) v ++
      memberChars l (depth + 1) ms ++ l.newline depth ++ ['\x7d']
  | .misnamed _ v => chars l depth v

/-- The elements after the first one, each behind a comma. -/
def elementChars (l : Layout) (depth : Nat) : List Json → List Char
  | [] => []
  | x :: xs => l.comma depth ++ chars l depth x ++ elementChars l depth xs

/-- The members after the first one, each behind a comma. -/
def memberChars (l : Layout) (depth : Nat) : List (String × Json) → List Char
  | [] => []
  | (k, v) :: ms =>
    l.comma depth ++ quotedName l.ascii k v ++ l.colon ++ chars l depth v ++ memberChars l depth ms
end

/-- The text of a value. -/
def print (l : Layout) (j : Json) : String := String.ofList (chars l 0 j)

end CoinToss.Json

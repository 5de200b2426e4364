import CoinToss.Text.Units

/-!
# CoinToss.Text.Encoding

The text of bytes whose encoding is told from the bytes themselves.

A text that starts with an ASCII character shows by the zero bytes around it whether it is in units
of two or four bytes and which end of a unit comes first.  Without zero bytes it is in UTF-8, where
a mark may stand in front.  A unit that is half of a character may stand alone.

* `decode?_eq_none_of_odd` — units of two bytes need an even number of bytes.
-/

namespace CoinToss.Text

/-- How text is put into bytes. -/
inductive Encoding where
  | utf8
  | utf16 (bigEndian : Bool)
  | utf32 (bigEndian : Bool)
  deriving DecidableEq, Repr

namespace Encoding

/-- The encoding that bytes show. -/
def ofBytes : List UInt8 → Encoding
  | a :: b :: c :: d :: _ =>
    if a = 0 then if b = 0 then .utf32 true else .utf16 true
    else if b = 0 then if c = 0 && d = 0 then .utf32 false else .utf16 false
    else .utf8
  | [a, b] => if a = 0 then .utf16 true else if b = 0 then .utf16 false else .utf8
  | _ => .utf8

/-- Units of two bytes. -/
def pairs? (bigEndian : Bool) : List UInt8 → Option (List Nat)
  | [] => some []
  | [_] => none
  | a :: b :: rest =>
    let unit := if bigEndian then 256 * a.toNat + b.toNat else 256 * b.toNat + a.toNat
    (pairs? bigEndian rest).map (unit :: ·)

/-- Code points of four bytes. -/
def quads? (bigEndian : Bool) : List UInt8 → Option (List Nat)
  | [] => some []
  | a :: b :: c :: d :: rest =>
    let value (a b c d : UInt8) : Nat :=
      16777216 * a.toNat + 65536 * b.toNat + 256 * c.toNat + d.toNat
    let code := if bigEndian then value a b c d else value d c b a
    if code < 0x110000 then (quads? bigEndian rest).map (code :: ·) else none
  | _ => none

/-- Code points without the mark in front of them. -/
def dropMark : List Nat → List Nat
  | 0xFEFF :: rest => rest
  | codes => codes

/-- The code points that bytes stand for in an encoding. -/
def decode? (e : Encoding) (bytes : ByteArray) : Option (List Nat) :=
  match e with
  | .utf8 => (String.fromUTF8? bytes).map fun s => dropMark (s.toList.map Char.toNat)
  | .utf16 bigEndian => (pairs? bigEndian bytes.data.toList).map joinUnits
  | .utf32 bigEndian => quads? bigEndian bytes.data.toList

/-- Units of two bytes take an even number of bytes. -/
theorem pairs?_isSome_iff (bigEndian : Bool) (bytes : List UInt8) :
    (pairs? bigEndian bytes).isSome ↔ bytes.length % 2 = 0 := by
  fun_induction pairs? bigEndian bytes with
  | case1 => simp
  | case2 => simp
  | case3 a b rest _ ih =>
    rw [Option.isSome_map, ih, List.length_cons, List.length_cons]
    omega

/-- An odd number of bytes is no text in units of two. -/
theorem decode?_eq_none_of_odd {bytes : ByteArray} (h : bytes.data.toList.length % 2 = 1)
    (bigEndian : Bool) : decode? (.utf16 bigEndian) bytes = none := by
  have hn : pairs? bigEndian bytes.data.toList = none := by
    rw [← Option.not_isSome_iff_eq_none, pairs?_isSome_iff]
    omega
  simp [decode?, hn]

end Encoding

/-- The code points of bytes in the encoding that they show. -/
def decode? (bytes : ByteArray) : Option (List Nat) :=
  (Encoding.ofBytes bytes.data.toList).decode? bytes

end CoinToss.Text

import CoinToss.Json.Writing
import CoinToss.Text.Unprintable

/-!
# CoinToss.Json.Shown

How a value is shown in a message.

A text is shown as it is; inside lists and records texts stand between quotation marks, single
ones unless only double ones avoid escaping.

* `shown`, `shownInside` — a value that can be shown;
* `shown?` — a value, if there is room for showing it.
-/

namespace CoinToss.Json

open Decimal Text

/-- Doubles in messages. -/
def shownNumbers : ShortestStyle := { numberStyle with notANumber := "nan", infinity := "inf" }

/-- Lower-case hexadecimal digits of a fixed number. -/
def hexDigits (width n : Nat) : List Char :=
  (List.range width).reverse.map fun i => hexDigit (n / Nat.pow 16 i % 16)

/-- A character by its code. -/
def codeChar (c : Char) : List Char :=
  let n := c.toNat
  if n < 0x100 then '\\' :: 'x' :: hexDigits 2 n
  else if n < 0x10000 then '\\' :: 'u' :: hexDigits 4 n
  else '\\' :: 'U' :: hexDigits 8 n

/-- A character between quotation marks. -/
def shownChar (quote c : Char) : List Char :=
  if c = quote ∨ c = '\\' then ['\\', c]
  else if c = '\n' then ['\\', 'n']
  else if c = '\r' then ['\\', 'r']
  else if c = '\t' then ['\\', 't']
  else if isUnprintable c then codeChar c
  else [c]

/-- A text between quotation marks. -/
def shownText (s : String) : List Char :=
  let cs := s.toList
  let quote := if cs.contains '\'' && !cs.contains '"' then '"' else '\''
  quote :: (cs.flatMap (shownChar quote) ++ [quote])

/-- Code points between quotation marks. -/
def shownCodes (codes : List Nat) : List Char :=
  let quote := if codes.contains 0x27 && !codes.contains 0x22 then '"' else '\''
  quote :: (codes.flatMap (fun code =>
    if isHalf code then '\\' :: 'u' :: hexDigits 4 code else shownChar quote (Char.ofNat code)) ++
    [quote])

/-- The name of a member between quotation marks. -/
def shownName (name : String) : Json → List Char
  | .misnamed codes _ => shownCodes codes
  | _ => shownText name

mutual
/-- A value inside another. -/
def shownInside : Json → List Char
  | .null => "None".toList
  | .bool b => (if b then "True" else "False").toList
  | .int n => (intText n).toList
  | .number x => (shownNumbers.text x).toList
  | .string s => shownText s
  | .broken codes => shownCodes codes
  | .array xs => '[' :: shownElements xs ++ [']']
  | .object ms => '\x7b' :: shownMembers ms ++ ['\x7d']
  | .misnamed _ v => shownInside v

/-- Elements, with commas between them. -/
def shownElements : List Json → List Char
  | [] => []
  | [x] => shownInside x
  | x :: xs => shownInside x ++ ',' :: ' ' :: shownElements xs

/-- Members, with commas between them. -/
def shownMembers : List (String × Json) → List Char
  | [] => []
  | [(k, v)] => shownName k v ++ ':' :: ' ' :: shownInside v
  | (k, v) :: ms => shownName k v ++ ':' :: ' ' :: shownInside v ++ ',' :: ' ' :: shownMembers ms
end

/-- A value with its quotation marks, non-ASCII characters by their codes. -/
def shownAscii (j : Json) : List Char :=
  (shownInside j).flatMap fun c => if c.toNat < 0x80 then [c] else codeChar c

/-- A value in a message. -/
def shown : Json → String
  | .string s => s
  | .broken codes => mendedText codes
  | j => String.ofList (shownInside j)

/-- A value in a message, if there is room for showing it.  A text needs none. -/
def shown? (room : Nat) (j : Json) : Except WriteFault String :=
  match j, fault? (.words room) j with
  | .string _, _ | .broken _, _ | _, none => .ok (shown j)
  | _, some fault => .error fault

/-- The word for the kind of a value. -/
def kindWord : Json → String
  | .null => "NoneType"
  | .bool _ => "bool"
  | .int _ => "int"
  | .number _ => "float"
  | .string _ | .broken _ => "str"
  | .array _ => "list"
  | .object _ => "dict"
  | .misnamed _ v => v.kindWord

end CoinToss.Json

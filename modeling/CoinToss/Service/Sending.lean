import CoinToss.Json.Writing
import CoinToss.Service.Response

/-!
# CoinToss.Service.Sending

Whether an answer can be sent.

An answer is sent as one line of JSON in UTF-8.  JSON has no spelling for an infinite number or for
what is no number, integers are written only up to so many digits, and UTF-8 has nothing for half of
a character, so an answer that repeats what it was asked can fail here.  The line is written first
and put into UTF-8 then.

* `sendFault?` — what keeps JSON from being sent;
* `sendFault?_eq_none_iff`, `halves?_eq_none_iff` — it is sent if it can be written, and if its code
  points are those of a text.
-/

namespace CoinToss.Service

open Text

/-- What keeps JSON from being sent. -/
inductive SendFault where
  /-- It cannot be written. -/
  | unwritten (fault : Json.WriteFault)
  /-- Its text holds halves of characters: the first of them, all in a row, and their place. -/
  | halves (place : Nat) (codes : List Nat)
  deriving DecidableEq, Repr

/-- What is told of JSON that cannot be sent. -/
def SendFault.message : SendFault → String
  | .unwritten fault => fault.message
  | .halves place [code] =>
    "'utf-8' codec can't encode character '" ++ String.ofList (Json.unitEscape code) ++
      "' in position " ++ toString place ++ ": surrogates not allowed"
  | .halves place codes =>
    "'utf-8' codec can't encode characters in position " ++ toString place ++ "-" ++
      toString (place + codes.length - 1) ++ ": surrogates not allowed"

/-- How answers are written.  What they repeat is nested no deeper than a body can be. -/
def answerWriter : Json.Writer := ⟨.json, false, none⟩

/-! ## text -/

/-- The code points of characters. -/
def codesOf (cs : List Char) : List Nat := cs.map Char.toNat

/-- Code points in quotation marks. -/
def quoted (codes : List Nat) : List Nat :=
  0x22 :: (codes.flatMap (fun code =>
    if isHalf code then [code] else codesOf (Json.quotedChar false (Char.ofNat code))) ++ [0x22])

/-- The name of a member in quotation marks. -/
def quotedName (name : String) : Json → List Nat
  | .misnamed codes _ => quoted codes
  | _ => quoted (codesOf name.toList)

mutual
/-- The code points of a value's text. -/
def codes : Json → List Nat
  | .broken cs => quoted cs
  | .array xs => codesOf ['['] ++ elementCodes xs ++ codesOf [']']
  | .object ms => codesOf ['\x7b'] ++ memberCodes ms ++ codesOf ['\x7d']
  | .misnamed _ v => codes v
  | j => codesOf (Json.chars .compact 0 j)

/-- The code points of elements, with commas between them. -/
def elementCodes : List Json → List Nat
  | [] => []
  | [x] => codes x
  | x :: xs => codes x ++ codesOf [','] ++ elementCodes xs

/-- The code points of members, with commas between them. -/
def memberCodes : List (String × Json) → List Nat
  | [] => []
  | [(k, v)] => quotedName k v ++ codesOf [':'] ++ codes v
  | (k, v) :: ms => quotedName k v ++ codesOf [':'] ++ codes v ++ codesOf [','] ++ memberCodes ms
end

/-- The halves of characters that come first among code points, all in a row. -/
def firstHalves (codes : List Nat) : List Nat :=
  (codes.dropWhile fun code => !isHalf code).takeWhile isHalf

/-- The halves of characters that come first among code points, and their place. -/
def halves? (codes : List Nat) : Option (Nat × List Nat) :=
  if (firstHalves codes).isEmpty then none
  else some ((codes.takeWhile fun code => !isHalf code).length, firstHalves codes)

/-- What keeps JSON from being sent. -/
def sendFault? (j : Json) : Option SendFault :=
  match Json.fault? answerWriter j with
  | some fault => some (.unwritten fault)
  | none => (halves? (codes j)).map fun (place, found) => .halves place found

/-! ## laws -/

/-- No halves come first exactly where there are none. -/
theorem firstHalves_isEmpty (codes : List Nat) : (firstHalves codes).isEmpty = isWhole codes := by
  induction codes with
  | nil => rfl
  | cons c codes ih =>
    unfold firstHalves isWhole at *
    by_cases h : isHalf c
    · simp [h]
    · simpa [h] using ih

/-- Code points can be put into UTF-8 exactly when they are those of a text. -/
theorem halves?_eq_none_iff (codes : List Nat) : halves? codes = none ↔ isWhole codes = true := by
  rw [halves?, ← firstHalves_isEmpty]
  split <;> simp_all

/-- JSON is sent if it can be written, and its text be put into UTF-8. -/
theorem sendFault?_eq_none_iff {j : Json} :
    sendFault? j = none ↔ Json.fault? answerWriter j = none ∧ isWhole (codes j) = true := by
  rw [sendFault?, ← halves?_eq_none_iff]
  cases Json.fault? answerWriter j <;> simp

end CoinToss.Service

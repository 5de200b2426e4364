import CoinToss.Decimal.Binary64
import CoinToss.Text.Blank
import CoinToss.Text.DecimalDigit

/-!
# CoinToss.Decimal.Numeral

Numbers written in text by people and programs.

* `integer?` reads an optional sign and digits with single underscores between them;
* `decimal?` reads a decimal with optional point and exponent, or one of the words for infinity
  and not-a-number;
* `Scientific` is the value of a decimal before rounding.
* `laxInteger_of_strict` — tidying never changes a number that is in its strict form.

Which digits count and what is trimmed is up to the caller: `laxInteger?` and `laxDecimal?` are
the readings of numbers inside strings of structured data, `plainInteger?` that of an
environment value or a command-line word.
-/

namespace CoinToss.Decimal

open CoinToss.Text

/-- The number with the given decimal digits. -/
def ofDigits (ds : List Nat) : Nat := ds.foldl (fun n d => 10 * n + d) 0

/-- Digits with single underscores allowed between two of them, to the end of the text. -/
def digitRun (value? : Char → Option Nat) : List Char → Option (List Nat)
  | [] => none
  | [c] => (value? c).map ([·])
  | c :: '_' :: rest => (value? c).bind fun d => (digitRun value? rest).map (d :: ·)
  | c :: d :: rest => (value? c).bind fun v => (digitRun value? (d :: rest)).map (v :: ·)

/-- Takes a sign off; true for a minus. -/
def takeSign : List Char → Bool × List Char
  | '-' :: cs => (true, cs)
  | '+' :: cs => (false, cs)
  | cs => (false, cs)

/-- The leading ASCII digits and what follows them. -/
def spanDigits : List Char → List Nat × List Char
  | [] => ([], [])
  | c :: cs =>
    match asciiDigit? c with
    | some d => ((d :: (spanDigits cs).1), (spanDigits cs).2)
    | none => ([], c :: cs)

/-- A sign and digits. -/
def integer? (value? : Char → Option Nat) (cs : List Char) : Option Int :=
  let (negative, rest) := takeSign cs
  (digitRun value? rest).map fun ds => signed negative (ofDigits ds)

/-- Integers of more digits than this are neither read nor written. -/
def digitLimit : Nat := 4300

/-- An integer in an environment value or command-line word: digits of any script, white space
around it. -/
def plainInteger? (s : String) : Option Int :=
  let cs := trim isWhiteSpace s.toList
  if digitLimit < (cs.filter fun c => (digitValue? c).isSome).length then none
  else integer? digitValue? cs

/-! ## integers in structured data -/

/-- What a string is as an integer. -/
inductive IntegerReading where
  | value (n : Int)
  | tooLong
  | malformed
  deriving DecidableEq, Repr

/-- An integer as data formats write it: a minus or nothing, then digits, the first of several no
zero.  The length is looked at before what follows the digits; a minus counts. -/
def strictInteger (cs : List Char) : IntegerReading :=
  let (negative, rest) :=
    match cs with
    | '-' :: rest => (true, rest)
    | _ => (false, cs)
  match spanDigits rest with
  | ([], _) => .malformed
  | (0 :: ds, rest) => if ds.isEmpty && rest.isEmpty then .value 0 else .malformed
  | (ds, rest) =>
    if digitLimit < ds.length + negative.toNat then .tooLong
    else if rest.isEmpty then .value (signed negative (ofDigits ds))
    else .malformed

/-- Takes a plus off; a minus may not follow it. -/
def dropPlus : List Char → Option (List Char)
  | '+' :: '-' :: _ => none
  | '+' :: cs => some cs
  | cs => some cs

/-- What follows zeros in front of a number, underscores among them included.  Behind them may be a
digit, a minus or a point; the character in front of a point stays, and so does the last one of
all. -/
def skipZeros (last : Char) : List Char → Option (List Char)
  | [] => some [last]
  | c :: cs =>
    if c = '0' ∨ c = '_' then skipZeros c cs
    else if c = '.' then some (last :: c :: cs)
    else if c = '-' ∨ c.isDigit then some (c :: cs)
    else none

/-- Takes off the zeros in front of a number. -/
def dropLeadingZeros : List Char → Option (List Char)
  | [] => none
  | c :: cs =>
    if c = '0' then skipZeros c cs else if c = '-' ∨ c.isDigit then some (c :: cs) else none

/-- Drops a point with nothing but zeros behind it. -/
def dropZeroFraction (cs : List Char) : List Char :=
  match cs.span (· != '.') with
  | (whole, '.' :: zeros) => if zeros.all (· == '0') then whole else cs
  | _ => cs

/-- Takes out underscores, refused when one is first, last or beside another. -/
def dropUnderscores (cs : List Char) : Option (List Char) :=
  let isolated := (cs.zip (cs.drop 1)).all fun (a, b) => !(a == '_' && b == '_')
  if cs.head? = some '_' ∨ cs.getLast? = some '_' ∨ !isolated then none
  else some (cs.filter (· != '_'))

/-- An integer written by hand, brought nearer to its strict form: without white space around it,
plus, leading zeros, a fraction of zeros and underscores. -/
def tidyInteger (cs : List Char) : Option (List Char) :=
  ((dropPlus (trim isWhiteSpace cs)).bind dropLeadingZeros).map fun cs =>
    let cs := dropZeroFraction cs
    (dropUnderscores cs).getD cs

/-- An integer in a string of structured data: its strict form, or what is left of it when it has
been tidied. -/
def laxInteger (s : String) : IntegerReading :=
  match strictInteger s.toList with
  | .malformed =>
    match tidyInteger s.toList with
    | some cs => strictInteger cs
    | none => .malformed
  | reading => reading

/-! ## decimals -/

/-- The number `± digits · 10 ^ exponent`. -/
structure Scientific where
  negative : Bool
  digits : Nat
  exponent : Int
  deriving DecidableEq, Repr

/-- The nearest double. -/
def Scientific.toFloat (x : Scientific) : Float :=
  nearestDecimal x.negative x.digits x.exponent

/-- An exponent mark with its digits, if there is one. -/
def takeExponent (cs : List Char) : Option (Int × List Char) :=
  match cs with
  | 'e' :: rest | 'E' :: rest =>
    let (negative, rest) := takeSign rest
    match spanDigits rest with
    | ([], _) => none
    | (ds, rest) => some (signed negative (ofDigits ds), rest)
  | _ => some (0, cs)

/-- Digits with an optional point among or beside them and an optional exponent. -/
def scientific? (negative : Bool) (cs : List Char) : Option Scientific :=
  let (whole, rest) := spanDigits cs
  let (fraction, rest) :=
    match rest with
    | '.' :: more => spanDigits more
    | _ => ([], rest)
  if whole.isEmpty && fraction.isEmpty then none
  else
    match takeExponent rest with
    | some (e, []) => some ⟨negative, ofDigits (whole ++ fraction), e - fraction.length⟩
    | _ => none

/-- A decimal or one of the words `inf`, `infinity` and `nan` in any case, with a sign. -/
def decimal? (cs : List Char) : Option Float :=
  let (negative, rest) := takeSign cs
  let word := String.ofList (rest.map Char.toLower)
  if word = "inf" ∨ word = "infinity" then some (infinity negative)
  else if word = "nan" then some notANumber
  else (scientific? negative rest).map Scientific.toFloat

/-- A decimal in a string of structured data: white space around it, or single underscores
inside. -/
def laxDecimal? (s : String) : Option Float :=
  match decimal? (trim isWhiteSpace s.toList) with
  | some x => some x
  | none => (dropUnderscores s.toList).bind decimal?

/-! ## laws -/

/-- A number in its strict form is read as such. -/
theorem laxInteger_of_strict {s : String} {n : Int} (h : strictInteger s.toList = .value n) :
    laxInteger s = .value n := by
  simp [laxInteger, h]

end CoinToss.Decimal

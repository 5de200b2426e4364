import CoinToss.Json.Printer
import CoinToss.Decimal.Numeral

/-!
# CoinToss.Json.Reader

Reading JSON text.

Two grammars are in use.  The *strict* one is the standard with bounded numbers: integers of 64
bits stay integers, larger ones become doubles, a decimal beyond the doubles is refused and
nesting is limited.  The *lenient* one also takes the words `NaN`, `Infinity` and `-Infinity`,
keeps integers as long as they are not overlong, reads a decimal beyond the doubles as an infinity
and takes strings with halves of characters in them.

A string is read in two steps: `stringUnits` undoes the escapes and `joinUnits` puts the halves
of escaped characters together.  Reading stops at the first fault of the text.
-/

namespace CoinToss.Json

open Decimal Text

/-- What a reader accepts beside standard JSON, and where it stops. -/
structure Grammar where
  /-- `NaN`, `Infinity` and `-Infinity` are numbers. -/
  words : Bool
  /-- Integers beyond 64 bits stay integers and decimals may overflow to an infinity. -/
  unbounded : Bool
  /-- Halves of characters may stand alone. -/
  halves : Bool
  /-- Containers may be nested so deep. -/
  nesting : Option Nat
  /-- Integers may have so many digits. -/
  digits : Option Nat

/-- The standard with bounded numbers. -/
def Grammar.strict : Grammar := ⟨false, false, false, some 1024, none⟩

/-- Numbers of almost any size and the words for those that are none. -/
def Grammar.lenient : Grammar := ⟨true, true, true, some 975, some 4300⟩

/-- The lenient grammar without bounds. -/
def Grammar.unlimited : Grammar := { Grammar.lenient with nesting := none, digits := none }

/-- The kinds of containers. -/
inductive Container where
  | array
  | object
  deriving DecidableEq, Repr

/-- Why a text cannot be read. -/
inductive ReadFault where
  | malformed
  /-- A container opens where nesting has to end. -/
  | tooDeep (kind : Container)
  /-- An integer has too many digits, `count` of at most `limit`. -/
  | overlong (count limit : Nat)
  deriving DecidableEq, Repr

/-- What is told of a text that cannot be read. -/
def ReadFault.message : ReadFault → String
  | .malformed => "no JSON"
  | .tooDeep kind =>
    "maximum recursion depth exceeded while decoding a JSON " ++
      (match kind with
      | .array => "array"
      | .object => "object") ++ " from a unicode string"
  | .overlong count limit =>
    "Exceeds the limit (" ++ toString limit ++ " digits) for integer string conversion: value has " ++
      toString count ++ " digits; use sys.set_int_max_str_digits() to increase the limit"

/-- What reading comes to.  A reader of the front of a text hands on the rest of it. -/
abbrev Attempt := Except ReadFault

/-- What is there, or a malformed text. -/
def Attempt.ofOption {α : Type} : Option α → Attempt α
  | some a => .ok a
  | none => .error .malformed

/-- The grammar inside a container. -/
def Grammar.inside (g : Grammar) (kind : Container) : Attempt Grammar :=
  match g.nesting with
  | none => .ok g
  | some 0 => .error (.tooDeep kind)
  | some (n + 1) => .ok { g with nesting := some n }

/-- Blanks between the parts of a text. -/
def isSpace (c : Char) : Bool := c == ' ' || c == '\t' || c == '\n' || c == '\r'

/-- Drops leading blanks. -/
def skipSpace (cs : List Char) : List Char := cs.dropWhile isSpace

/-! ## strings -/

/-- The value of a hexadecimal digit of either case. -/
def hexValue? (c : Char) : Option Nat :=
  let n := c.toNat
  if '0' ≤ c ∧ c ≤ '9' then some (n - 48)
  else if 'a' ≤ c ∧ c ≤ 'f' then some (n - 87)
  else if 'A' ≤ c ∧ c ≤ 'F' then some (n - 55)
  else none

/-- The unit with four hexadecimal digits. -/
def hexUnit? (a b c d : Char) : Option Nat :=
  match hexValue? a, hexValue? b, hexValue? c, hexValue? d with
  | some a, some b, some c, some d => some (4096 * a + 256 * b + 16 * c + d)
  | _, _, _, _ => none

/-- The character behind a backslash. -/
def simpleEscape? : Char → Option Nat
  | '"' => some 0x22
  | '\\' => some 0x5C
  | '/' => some 0x2F
  | 'b' => some 0x08
  | 'f' => some 0x0C
  | 'n' => some 0x0A
  | 'r' => some 0x0D
  | 't' => some 0x09
  | _ => none

/-- The body of a string up to its closing quotation mark: code points and, where they were
escaped, sixteen-bit units. -/
def stringUnits : List Char → Option (List Nat × List Char)
  | [] => none
  | '"' :: rest => some ([], rest)
  | '\\' :: 'u' :: a :: b :: c :: d :: rest =>
    (hexUnit? a b c d).bind fun u => (stringUnits rest).map fun p => (u :: p.1, p.2)
  | '\\' :: e :: rest =>
    (simpleEscape? e).bind fun u => (stringUnits rest).map fun p => (u :: p.1, p.2)
  | c :: rest =>
    if c.toNat < 0x20 ∨ c = '\\' then none
    else (stringUnits rest).map fun p => (c.toNat :: p.1, p.2)

/-- The code points of the string whose opening quotation mark has been read. -/
def stringTail (g : Grammar) (cs : List Char) : Attempt (List Nat × List Char) :=
  match stringUnits cs with
  | none => .error .malformed
  | some (units, rest) =>
    let codes := joinUnits units
    if g.halves || isWhole codes then .ok (codes, rest) else .error .malformed

/-- The string of some code points. -/
def ofCodes (codes : List Nat) : Json :=
  if isWhole codes then .string (textOf codes) else .broken codes

/-- The member whose name has some code points. -/
def member (name : List Nat) (value : Json) : String × Json :=
  if isWhole name then (textOf name, value)
  else (String.ofList (name.flatMap (quotedCode false)), .misnamed name value)

/-! ## numbers -/

/-- Signed integers of 64 bits lie below this, unsigned ones below its double. -/
def signedLimit : Int := 9223372036854775808

/-- Unsigned integers of 64 bits lie below this. -/
def unsignedLimit : Int := 18446744073709551616

/-- Integers that fit 64 bits, with or without sign. -/
def fits64 (n : Int) : Bool := decide (-signedLimit ≤ n ∧ n < unsignedLimit)

/-- The value of a whole number of so many digits. -/
def wholeNumber (g : Grammar) (negative : Bool) (digits : List Nat) : Attempt Json :=
  let n := signed negative (ofDigits digits)
  match g.digits with
  | some limit =>
    if limit < digits.length then .error (.overlong digits.length limit) else bounded n
  | none => bounded n
where
  /-- An integer, or the double nearest to it. -/
  bounded (n : Int) : Attempt Json :=
    if g.unbounded || fits64 n then .ok (.int n)
    else
      match datum (nearestInt n) with
      | .infinite _ => .error .malformed
      | _ => .ok (.number (nearestInt n))

/-- The value of a number with a fraction or an exponent. -/
def decimalNumber (g : Grammar) (x : Scientific) : Attempt Json :=
  match datum x.toFloat with
  | .infinite _ => if g.unbounded then .ok (.number x.toFloat) else .error .malformed
  | _ => .ok (.number x.toFloat)

/-- A number behind its sign. -/
def unsignedNumber (g : Grammar) (negative : Bool) (cs : List Char) : Attempt (Json × List Char) :=
  match spanDigits cs with
  | ([], _) => .error .malformed
  | (0 :: _ :: _, _) => .error .malformed
  | (whole, rest) =>
    match rest with
    | '.' :: more =>
      match spanDigits more with
      | ([], _) => .error .malformed
      | (fraction, rest) => do
        let (e, rest) ← Attempt.ofOption (takeExponent rest)
        pure (← decimalNumber g ⟨negative, ofDigits (whole ++ fraction), e - fraction.length⟩, rest)
    | 'e' :: _ | 'E' :: _ => do
      let (e, rest) ← Attempt.ofOption (takeExponent rest)
      pure (← decimalNumber g ⟨negative, ofDigits whole, e⟩, rest)
    | _ => do pure (← wholeNumber g negative whole, rest)

/-- One of the words that stand for a value. -/
def word? (g : Grammar) (cs : List Char) : Option (Json × List Char) :=
  let words : List (List Char × Json) :=
    [("null".toList, .null), ("true".toList, .bool true), ("false".toList, .bool false)] ++
      if g.words then
        [("NaN".toList, .number notANumber), ("Infinity".toList, .number (infinity false)),
         ("-Infinity".toList, .number (infinity true))]
      else []
  words.findSome? fun (w, j) => (w.isPrefixOf? cs).map (j, ·)

/-- A word or a number. -/
def scalar (g : Grammar) (cs : List Char) : Attempt (Json × List Char) :=
  match word? g cs with
  | some r => .ok r
  | none =>
    match cs with
    | '-' :: rest => unsignedNumber g true rest
    | _ => unsignedNumber g false cs

/-! ## values -/

mutual
/-- The value at the front of a text, blanks before it skipped. -/
def value (g : Grammar) : Nat → List Char → Attempt (Json × List Char)
  | 0, _ => .error .malformed
  | fuel + 1, cs =>
    match skipSpace cs with
    | '"' :: rest => do
      let (codes, rest) ← stringTail g rest
      pure (ofCodes codes, rest)
    | '[' :: rest => do
      let inner ← g.inside .array
      match skipSpace rest with
      | ']' :: rest => pure (.array [], rest)
      | _ =>
        let (xs, rest) ← elements inner fuel rest
        pure (.array xs, rest)
    | '\x7b' :: rest => do
      let inner ← g.inside .object
      match skipSpace rest with
      | '\x7d' :: rest => pure (.object [], rest)
      | _ =>
        let (ms, rest) ← members inner fuel rest
        pure (.object (Members.ofPairs ms), rest)
    | cs => scalar g cs

/-- Elements up to the closing bracket, at least one. -/
def elements (g : Grammar) : Nat → List Char → Attempt (List Json × List Char)
  | 0, _ => .error .malformed
  | fuel + 1, cs => do
    let (x, rest) ← value g fuel cs
    match skipSpace rest with
    | ',' :: rest =>
      let (xs, rest) ← elements g fuel rest
      pure (x :: xs, rest)
    | ']' :: rest => pure ([x], rest)
    | _ => .error .malformed

/-- Members up to the closing brace, at least one. -/
def members (g : Grammar) : Nat → List Char → Attempt (List (String × Json) × List Char)
  | 0, _ => .error .malformed
  | fuel + 1, cs =>
    match skipSpace cs with
    | '"' :: rest => do
      let (name, rest) ← stringTail g rest
      match skipSpace rest with
      | ':' :: rest =>
        let (v, rest) ← value g fuel rest
        match skipSpace rest with
        | ',' :: rest =>
          let (ms, rest) ← members g fuel rest
          pure (member name v :: ms, rest)
        | '\x7d' :: rest => pure ([member name v], rest)
        | _ => .error .malformed
      | _ => .error .malformed
    | _ => .error .malformed
end

/-- Reads a whole text: one value with blanks around it. -/
def readChars (g : Grammar) (cs : List Char) : Attempt Json := do
  let (j, rest) ← value g (2 * cs.length + 2) cs
  if (skipSpace rest).isEmpty then pure j else .error .malformed

/-- Reads a whole text: one value with blanks around it. -/
def read (g : Grammar) (s : String) : Attempt Json := readChars g s.toList

/-- The value of a whole text, if it can be read. -/
def read? (g : Grammar) (s : String) : Option Json := (read g s).toOption

/-- Reads UTF-8 text, if it can be read. -/
def readBytes? (g : Grammar) (bytes : ByteArray) : Option Json :=
  (String.fromUTF8? bytes).bind (read? g)

end CoinToss.Json

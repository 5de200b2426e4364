import CoinToss.Json.Reader
import CoinToss.Schema.Checked
import CoinToss.Schema.Named
import CoinToss.Time.DateTime

/-!
# CoinToss.Schema.Reading

How the parts of a record are read from JSON.

Readings are lax where people write records by hand: integers, numbers and truth values may come
as strings, a number without a fraction is an integer, a truth value counts as 0 or 1.  A member
may be spelled in camel case or with underscores (`Key`); the camel case one wins.  The spelling
that is there names the place of an issue.

* `valuesOf_map` — values that are written one by one are read one by one.
-/

namespace CoinToss.Schema

open Decimal

/-- How a part is read. -/
abbrev Reading (α : Type) := Json → Checked α

/-! ## scalars -/

/-- The integer that a double is, strictly inside the signed range of 64 bits. -/
def wholeNumber (x : Float) : Checked Int :=
  match datum x with
  | .finite _ _ _ =>
    match integral? x with
    | some n =>
      if -Json.signedLimit < n ∧ n < Json.signedLimit then .ok n else .issue .intParsingSize
    | none => .issue .intFromFloat
  | _ => .issue .finiteNumber

/-- An integer: a number without a fraction, a truth value or a text of one. -/
def int : Reading Int
  | .int n => .ok n
  | .bool b => .ok (if b then 1 else 0)
  | .number x => wholeNumber x
  | .string s =>
    match laxInteger s with
    | .value n => .ok n
    | .tooLong => .issue .intParsingSize
    | .malformed => .issue .intParsing
  | .broken _ => .issue .stringUnicode
  | _ => .issue .intType

/-- A double: a number, a truth value or a text of one. -/
def float : Reading Float
  | .number x => .ok x
  | .int n => .ofOption .floatType (ofInt n).toOption
  | .bool b => .ok (if b then 1 else 0)
  | .string s => .ofOption .floatParsing (laxDecimal? s)
  | .broken _ => .issue .stringUnicode
  | _ => .issue .floatType

/-- The truth value a word stands for, in any case. -/
def truth? (s : String) : Option Bool :=
  let word := String.ofList (s.toList.map Char.toLower)
  if ["1", "true", "t", "yes", "y", "on"].contains word then some true
  else if ["0", "false", "f", "no", "n", "off"].contains word then some false
  else none

/-- The truth value that an integer stands for. -/
def truthOfInt (n : Int) : Checked Bool :=
  if n = 0 then .ok false else if n = 1 then .ok true else .issue .boolParsing

/-- A truth value: one as such, a number 0 or 1, or a word for one.  Numbers that are no integers of
64 bits are of the wrong type. -/
def bool : Reading Bool
  | .bool b => .ok b
  | .int n =>
    if -Json.signedLimit ≤ n ∧ n < Json.signedLimit then truthOfInt n else .issue .boolType
  | .number x =>
    match wholeNumber x with
    | .ok n => truthOfInt n
    | .failed _ => .issue .boolType
  | .string s => .ofOption .boolParsing (truth? s)
  | .broken _ => .issue .stringUnicode
  | _ => .issue .boolType

/-- A string.  One that holds halves of characters is no text, and is told apart from all of them:
files that spell one are refused as a whole. -/
def string : Reading String
  | .string s => .ok s
  | .broken _ => .issue .stringUnicode
  | _ => .issue .stringType

/-- A string where files may hold halves of characters: it is mended. -/
def mendedString : Reading String
  | .broken codes => .ok (Text.mendedText codes)
  | j => string j

/-- One of finitely many names. -/
def named {α : Type} [Named α] : Reading α
  | .string s => .ofOption .enumeration (Named.ofName? s)
  | _ => .issue .enumeration

/-- The moment found, or one issue for a date of the year 0 and one for anything else. -/
def found (otherwise : IssueKind) : DateTime.Parsed → Checked DateTime
  | .moment t => .ok t
  | .yearZero => .issue .datetimeParsing
  | .malformed => .issue otherwise

/-- A moment: a text of one, or a number of seconds or milliseconds.  An integer beyond 64 bits is
read as a double. -/
def moment : Reading DateTime
  | .string s => found .datetimeFromDateParsing (DateTime.ofText s)
  | .broken _ => .issue .stringUnicode
  | .int n =>
    if -Json.signedLimit ≤ n ∧ n < Json.signedLimit then found .datetimeParsing (DateTime.ofInt n)
    else
      match ofInt n with
      | .ok x => found .datetimeParsing (DateTime.ofFloat x)
      | .error _ => .issue .datetimeType
  | .number x => found .datetimeParsing (DateTime.ofFloat x)
  | _ => .issue .datetimeType

/-- A part that may be null. -/
def optional {α : Type} (read : Reading α) : Reading (Option α)
  | .null => .ok none
  | j => some <$> read j

/-! ## containers -/

/-- Reads elements in order, from place `i` on. -/
def elementsFrom {α : Type} (read : Reading α) (i : Nat) : List Json → Checked (List α)
  | [] => .ok []
  | x :: xs => List.cons <$> (read x).within (.index i) <*> elementsFrom read (i + 1) xs

/-- A list; anything else is the given issue. -/
def list {α : Type} (otherwise : IssueKind) (read : Reading α) : Reading (List α)
  | .array xs => elementsFrom read 0 xs
  | _ => .issue otherwise

/-- Reads the values of an object in order. -/
def valuesOf {α : Type} (read : Reading α) : Json.Members → Checked (List (String × α))
  | [] => .ok []
  | (k, v) :: rest =>
    (fun a more => (k, a) :: more) <$> (read v.bare).within (.key k) <*> valuesOf read rest

/-- An object with any keys. -/
def dictionary {α : Type} (read : Reading α) : Reading (List (String × α))
  | .object members => valuesOf read members
  | _ => .issue .dictType

/-! ## members -/

/-- The spellings of a member's name, the preferred one first. -/
structure Key where
  name : String
  other : Option String := none

/-- A name in camel case with its words joined by underscores. -/
def snakeCase (name : String) : String :=
  String.ofList (name.toList.flatMap fun c => if c.isUpper then ['_', c.toLower] else [c])

/-- A member spelled in camel case or with underscores. -/
def Key.camel (name : String) : Key := ⟨name, some (snakeCase name)⟩

/-- A member and the spelling it is found by. -/
def Key.find? (key : Key) (members : Json.Members) : Option (String × Json) :=
  match members.field? key.name with
  | some v => some (key.name, v)
  | none => key.other.bind fun other => (members.field? other).map (other, ·)

/-- A member with a default. -/
def field {α : Type} (key : Key) (read : Reading α) (default : α) (members : Json.Members) :
    Checked α :=
  match key.find? members with
  | some (spelling, v) => (read v).within (.key spelling)
  | none => .ok default

/-- A member that must be there. -/
def required {α : Type} (key : Key) (read : Reading α) (members : Json.Members) : Checked α :=
  match key.find? members with
  | some (spelling, v) => (read v).within (.key spelling)
  | none => Checked.within (.key key.name) (.issue .missing)

/-- A record; anything but an object is the given issue. -/
def record {α : Type} (otherwise : IssueKind) (read : Json.Members → Checked α) : Reading α
  | .object members => read members
  | _ => .issue otherwise

/-- Values that are written one by one are read one by one. -/
theorem valuesOf_map {α : Type} {read : Reading α} {write : α → Json}
    (h : ∀ a, read (write a).bare = .ok a) (entries : List (String × α)) :
    valuesOf read (entries.map fun e => (e.1, write e.2)) = .ok entries := by
  induction entries with
  | nil => rfl
  | cons e entries ih => simp [valuesOf, h, ih]

end CoinToss.Schema

import CoinToss.Decimal.Numeral
import CoinToss.Decimal.Shortest

/-!
# CoinToss.Time.DateTime

Dates with a time of day, in a zone or in none.

`DateTime` holds the calendar fields and a proof that they name a real moment of the years 1 to
9999; the zone is an offset from UTC in whole minutes.

* `DateTime.ofEpoch?` — seconds since 1970 in UTC;
* `DateTime.text` — the written form, `DateTime.parse?` reads it and a few other spellings;
* `DateTime.ofInt`, `DateTime.ofFloat` — a number of seconds or, when large, milliseconds.
-/

namespace CoinToss

open Decimal

/-! ## the calendar -/

/-- Every fourth year, but of the full centuries only every fourth. -/
def isLeapYear (year : Nat) : Bool :=
  year % 4 == 0 && (year % 100 != 0 || year % 400 == 0)

/-- The length of a month. -/
def daysInMonth (year month : Nat) : Nat :=
  match month with
  | 2 => if isLeapYear year then 29 else 28
  | 4 | 6 | 9 | 11 => 30
  | _ => 31

/-- A date with a time of day, to the microsecond. -/
structure DateTime where
  year : Nat
  month : Nat
  day : Nat
  hour : Nat
  minute : Nat
  second : Nat
  micro : Nat
  /-- Minutes east of UTC; `none` for a time without a zone. -/
  offset : Option Int
  inCalendar : 1 ≤ year ∧ year ≤ 9999 ∧ 1 ≤ month ∧ month ≤ 12 ∧ 1 ≤ day ∧
    day ≤ daysInMonth year month := by decide
  inDay : hour < 24 ∧ minute < 60 ∧ second < 60 ∧ micro < 1000000 := by decide
  inZone : ∀ z, offset = some z → -1440 < z ∧ z < 1440 := by decide
  deriving DecidableEq

namespace DateTime

/-- The moment with these fields, if there is one. -/
def ofFields? (year month day hour minute second micro : Nat) (offset : Option Int) :
    Option DateTime :=
  if h : 1 ≤ year ∧ year ≤ 9999 ∧ 1 ≤ month ∧ month ≤ 12 ∧ 1 ≤ day ∧
      day ≤ daysInMonth year month then
    if h' : hour < 24 ∧ minute < 60 ∧ second < 60 ∧ micro < 1000000 then
      match offset with
      | none => some ⟨year, month, day, hour, minute, second, micro, none, h, h', by simp⟩
      | some z =>
        if hz : -1440 < z ∧ z < 1440 then
          some ⟨year, month, day, hour, minute, second, micro, some z, h, h', by
            rintro _ ⟨⟩; exact hz⟩
        else none
    else none
  else none

/-- The fields of a moment name it. -/
theorem ofFields?_self (t : DateTime) :
    ofFields? t.year t.month t.day t.hour t.minute t.second t.micro t.offset = some t := by
  obtain ⟨y, mo, d, h, mi, s, us, z, hc, hd, hz⟩ := t
  cases z with
  | none => simp [ofFields?, hc, hd]
  | some z => simp [ofFields?, hc, hd, hz z rfl]

/-! ## from seconds -/

/-- Month and day of a day of the year, counted from zero. -/
def monthDay (year : Nat) : List Nat → Nat → Nat × Nat
  | [], n => (12, n + 1)
  | m :: ms, n =>
    if n < daysInMonth year m then (m, n + 1) else monthDay year ms (n - daysInMonth year m)

/-- Year, month and day of a day counted from the first of January of the year 1. -/
def civil (days : Nat) : Nat × Nat × Nat :=
  let era := days / 146097
  let inEra := days % 146097
  let century := min (inEra / 36524) 3
  let inCentury := inEra - century * 36524
  let cycle := inCentury / 1461
  let inCycle := inCentury % 1461
  let rest := min (inCycle / 365) 3
  let year := 400 * era + 100 * century + 4 * cycle + rest + 1
  let (month, day) := monthDay year [1, 2, 3, 4, 5, 6, 7, 8, 9, 10, 11, 12] (inCycle - rest * 365)
  (year, month, day)

/-- Days from the first of January of the year 1 to that of 1970. -/
def epochDay : Int := 719162

/-- A moment in UTC by seconds since the start of 1970. -/
def ofEpoch? (seconds : Int) (micro : Nat) : Option DateTime :=
  let day := seconds.fdiv 86400 + epochDay
  let inDay := (seconds.fmod 86400).toNat
  if day < 0 then none
  else
    let (year, month, dayOfMonth) := civil day.toNat
    ofFields? year month dayOfMonth (inDay / 3600) (inDay / 60 % 60) (inDay % 60) micro (some 0)

/-- What a text or a number is as a moment. -/
inductive Parsed where
  | moment (t : DateTime)
  /-- A date of the year 0, which is in the calendar but before all moments. -/
  | yearZero
  | malformed

/-- The moment of these fields, as what they are. -/
def ofCalendar (year month day hour minute second micro : Nat) (offset : Option Int) : Parsed :=
  match ofFields? year month day hour minute second micro offset with
  | some t => .moment t
  | none =>
    -- the year 0 is a leap year, as the year 400 is
    if year = 0 ∧ (ofFields? 400 month day hour minute second micro offset).isSome then .yearZero
    else .malformed

/-- Seconds from the start of 1970 back to that of the year 0 and that of the year 1. -/
def yearZeroStart : Int := -62167219200
def yearOneStart : Int := -62135596800

/-- A moment in UTC by seconds and microseconds. -/
def ofSeconds (seconds : Int) (micro : Nat) : Parsed :=
  let seconds := seconds + (micro / 1000000 : Nat)
  match ofEpoch? seconds (micro % 1000000) with
  | some t => .moment t
  | none =>
    if yearZeroStart ≤ seconds ∧ seconds < yearOneStart then .yearZero else .malformed

/-- A moment by a number of seconds or milliseconds and the microseconds beyond it. -/
def ofUnits (milliseconds : Bool) (whole : Int) (micro : Nat) : Parsed :=
  if milliseconds then ofSeconds (whole.fdiv 1000) ((whole.fmod 1000).toNat * 1000 + micro)
  else ofSeconds whole micro

/-- Numbers beyond this size count milliseconds. -/
def secondsLimit : Nat := 20000000000

/-- A moment by an integer: seconds since 1970, or milliseconds when large. -/
def ofInt (n : Int) : Parsed := ofUnits (secondsLimit < n.natAbs) n 0

/-- A moment by a number with a fraction, to the nearest microsecond. -/
def ofFloat (x : Float) : Parsed :=
  match datum x with
  | .finite negative m e =>
    let denominator := Nat.pow 2 (-e).toNat
    let numerator := signed negative (m * Nat.pow 2 e.toNat)
    let milliseconds : Bool := secondsLimit * denominator < numerator.natAbs
    let fraction := nearestDouble false (numerator.fmod denominator).toNat denominator
    ofUnits milliseconds (numerator.fdiv denominator)
      (roundHalfUp (fraction * if milliseconds then 1000 else 1000000))
  | _ => .malformed

/-! ## written form -/

/-- Decimal digits of a number, filled up with zeros on the left. -/
def padded (width n : Nat) : List Char :=
  let ds := natDigits n
  List.replicate (width - ds.length) '0' ++ ds

/-- The zone: `Z` for UTC, else sign, hours and minutes; nothing without a zone. -/
def zoneText : Option Int → List Char
  | none => []
  | some z =>
    if z = 0 then ['Z']
    else
      (if z < 0 then '-' else '+') :: padded 2 (z.natAbs / 60) ++ ':' :: padded 2 (z.natAbs % 60)

/-- The date. -/
def dateText (t : DateTime) : List Char :=
  padded 4 t.year ++ '-' :: padded 2 t.month ++ '-' :: padded 2 t.day

/-- The time of day to the second. -/
def clockText (t : DateTime) : List Char :=
  padded 2 t.hour ++ ':' :: padded 2 t.minute ++ ':' :: padded 2 t.second

/-- The written form; microseconds only where there are any. -/
def text (t : DateTime) : String :=
  String.ofList <|
    t.dateText ++ 'T' :: t.clockText ++
      (if t.micro = 0 then [] else '.' :: padded 6 t.micro) ++ zoneText t.offset

/-! ## reading -/

/-- A fixed number of digits. -/
def takeDigits : Nat → List Char → Option (List Nat × List Char)
  | 0, cs => some ([], cs)
  | _ + 1, [] => none
  | n + 1, c :: cs =>
    (Text.asciiDigit? c).bind fun d => (takeDigits n cs).map fun p => (d :: p.1, p.2)

/-- A number of a fixed width. -/
def takeNumber (width : Nat) (cs : List Char) : Option (Nat × List Char) :=
  (takeDigits width cs).map fun p => (ofDigits p.1, p.2)

/-- A number behind a separator. -/
def takeAfter (separator : Char) (width : Nat) : List Char → Option (Nat × List Char)
  | c :: cs => if c = separator then takeNumber width cs else none
  | [] => none

/-- Microseconds from the digits of a fraction: the first six count. -/
def microsOf (ds : List Nat) : Nat := ofDigits ((ds ++ [0, 0, 0, 0, 0, 0]).take 6)

/-- Seconds with a fraction; both may be missing. -/
def takeSeconds (cs : List Char) : Option ((Nat × Nat) × List Char) :=
  match cs with
  | ':' :: rest =>
    (takeNumber 2 rest).bind fun (s, rest) =>
      match rest with
      | '.' :: more | ',' :: more =>
        match spanDigits more with
        | ([], _) => none
        | (ds, rest) => some ((s, microsOf ds), rest)
      | _ => some ((s, 0), rest)
  | _ => some ((0, 0), cs)

/-- The zone to the end of the text. -/
def zone? : List Char → Option (Option Int)
  | [] => some none
  | ['Z'] | ['z'] => some (some 0)
  | c :: cs =>
    if c = '+' ∨ c = '-' ∨ c = '\u2212' then
      (takeNumber 2 cs).bind fun (h, rest) =>
        let rest := match rest with
          | ':' :: more => more
          | _ => rest
        match takeNumber 2 rest with
        | some (m, []) =>
          if m < 60 then some (some (signed (decide (c ≠ '+')) (60 * h + m))) else none
        | _ => none
    else none

/-- What may stand between a date and a time. -/
def isSeparator (c : Char) : Bool := c == 'T' || c == 't' || c == ' ' || c == '_'

/-- The fields of a date with a time of day, or of a date alone for its midnight. -/
def parseFields (s : String) : Parsed :=
  let fields : Option Parsed :=
    (takeNumber 4 s.toList).bind fun (year, rest) =>
    (takeAfter '-' 2 rest).bind fun (month, rest) =>
    (takeAfter '-' 2 rest).bind fun (day, rest) =>
      match rest with
      | [] => some (ofCalendar year month day 0 0 0 0 none)
      | c :: rest =>
        if isSeparator c then
          (takeNumber 2 rest).bind fun (hour, rest) =>
          (takeAfter ':' 2 rest).bind fun (minute, rest) =>
          (takeSeconds rest).bind fun ((second, micro), rest) =>
          (zone? rest).map fun offset => ofCalendar year month day hour minute second micro offset
        else none
  fields.getD .malformed

/-- Reads a date with a time of day, or a date alone for its midnight. -/
def parse? (s : String) : Option DateTime :=
  match parseFields s with
  | .moment t => some t
  | _ => none

/-- Reads a number of seconds or milliseconds: a sign, digits and a point among or beside them. -/
def parseNumber (s : String) : Parsed :=
  let (negative, rest) := takeSign s.toList
  match spanDigits rest with
  | ([], []) => .malformed
  | (whole, []) => ofInt (signed negative (ofDigits whole))
  | (whole, '.' :: more) =>
    match spanDigits more with
    | (ds, []) =>
      if whole.isEmpty && ds.isEmpty then .malformed
      else
        ofFloat (Scientific.toFloat ⟨negative, ofDigits (whole ++ ds), -(ds.length : Int)⟩)
    | _ => .malformed
  | _ => .malformed

/-- Reads any of the spellings. -/
def ofText (s : String) : Parsed :=
  match parseFields s with
  | .malformed => parseNumber s
  | found => found

end DateTime

end CoinToss

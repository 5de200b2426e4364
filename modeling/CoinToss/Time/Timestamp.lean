import CoinToss.Time.DateTime

/-!
# CoinToss.Time.Timestamp

Seconds of the calendar, in any year and any time zone.

The calendar runs on in both directions: there is a year 0, and years before it are negative.  Years
are written as they are, the other fields with two digits.

* `Timestamp.ofSeconds?` — the seconds that the clocks of a zone can show;
* `Timestamp.text`, `Timestamp.aheadText` — date and time of day with a separator between them, and
  how far they are ahead of UTC;
* `Timestamp.date_era` — after 146097 days the calendar is the same, 400 years later.
-/

namespace CoinToss

open Decimal

/-- A time zone: how many seconds its clocks are ahead of UTC, so many seconds after the start of
1970. -/
structure TimeZone where
  ahead : Int → Int

/-- The zone of UTC itself. -/
def TimeZone.utc : TimeZone := ⟨fun _ => 0⟩

/-- A second of the calendar. -/
structure Timestamp where
  /-- Seconds since the start of 1970 in UTC. -/
  seconds : Int
  /-- How many seconds the clocks that show it are ahead of UTC. -/
  ahead : Int
  deriving DecidableEq, Repr

namespace Timestamp

/-- The days of 400 years. -/
def eraDays : Int := 146097

/-- The seconds that the clocks have counted. -/
def counted (t : Timestamp) : Int := t.seconds + t.ahead

/-- Year, month and day. -/
def date (t : Timestamp) : Int × Nat × Nat :=
  let day := t.counted.fdiv 86400 + DateTime.epochDay
  let (year, month, dayOfMonth) := DateTime.civil (day.fmod eraDays).toNat
  (400 * day.fdiv eraDays + year, month, dayOfMonth)

/-- The second of the day. -/
def secondOfDay (t : Timestamp) : Nat := (t.counted.fmod 86400).toNat

/-- Date and time of day with a separator. -/
def text (t : Timestamp) (separator : Char) : String :=
  let (year, month, day) := t.date
  let s := t.secondOfDay
  let two := DateTime.padded 2
  String.ofList <|
    (intText year).toList ++ '-' :: two month ++ '-' :: two day ++ separator ::
      two (s / 3600) ++ ':' :: two (s / 60 % 60) ++ ':' :: two (s % 60)

/-- How far the clocks are ahead of UTC: a sign, hours and minutes. -/
def aheadText (t : Timestamp) : String :=
  let minutes := t.ahead.natAbs / 60
  String.ofList <|
    (if t.ahead < 0 then '-' else '+') :: DateTime.padded 4 (minutes / 60 * 100 + minutes % 60)

/-! ## clocks -/

/-- Why a clock does not show a time. -/
inductive Fault where
  /-- A time is a number. -/
  | noNumber
  /-- The seconds are beyond 64 bits. -/
  | beyondSeconds
  /-- The years since 1900 are beyond 32 bits. -/
  | beyondCalendar
  /-- The year is beyond 32 bits. -/
  | beyondYears
  deriving DecidableEq, Repr

/-- What is told of a fault. -/
def Fault.message : Fault → String
  | .noNumber => "Invalid value NaN (not a number)"
  | .beyondSeconds => "timestamp out of range for platform time_t"
  | .beyondCalendar => "[Errno 75] Value too large for defined data type"
  | .beyondYears => "signed integer is greater than maximum"

/-- What the clocks of a zone show so many seconds after the start of 1970. -/
def ofSeconds? (zone : TimeZone) (n : Int) : Except Fault Timestamp :=
  let t : Timestamp := ⟨n, zone.ahead n⟩
  let year := t.date.1
  if n < -9223372036854775808 ∨ 9223372036854775807 < n then .error .beyondSeconds
  else if year - 1900 < -2147483648 ∨ 2147483647 < year - 1900 then .error .beyondCalendar
  else if 2147483647 < year then .error .beyondYears
  else .ok t

/-- What they show so many seconds after the start of 1970; a fraction does not count. -/
def ofFloat? (zone : TimeZone) (x : Float) : Except Fault Timestamp :=
  match datum x with
  | .notANumber => .error .noNumber
  | .infinite _ => .error .beyondSeconds
  | .finite negative m e =>
    ofSeconds? zone ((signed negative (m * Nat.pow 2 e.toNat)).fdiv (Nat.pow 2 (-e).toNat))

/-! ## laws -/

/-- After 146097 days the calendar is the same, 400 years later. -/
theorem date_era (n ahead : Int) :
    (Timestamp.mk (n + 86400 * eraDays) ahead).date =
      let (year, month, day) := (Timestamp.mk n ahead).date
      (year + 400, month, day) := by
  have hday : (n + 86400 * eraDays + ahead).fdiv 86400 + DateTime.epochDay =
      (n + ahead).fdiv 86400 + DateTime.epochDay + eraDays := by
    rw [Int.add_right_comm, Int.add_mul_fdiv_left _ _ (by decide)]
    omega
  have hdiv : ∀ d : Int, (d + eraDays).fdiv eraDays = d.fdiv eraDays + 1 := by
    intro d
    have := Int.add_mul_fdiv_left d 1 (b := eraDays) (by decide)
    simpa using this
  have hmod : ∀ d : Int, (d + eraDays).fmod eraDays = d.fmod eraDays := by
    intro d
    simp
  simp only [date, counted, hday, hdiv, hmod]
  congr 1
  omega

end Timestamp

end CoinToss

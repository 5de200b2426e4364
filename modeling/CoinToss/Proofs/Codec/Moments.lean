import CoinToss.Proofs.Codec.Digits
import CoinToss.Schema.Reading

/-!
# CoinToss.Proofs.Codec.Moments

Moments are read back from their written form.

Every field is written over a fixed width, so each is read off the front of what is left; the
fraction is written only if there is one, and ends where the zone begins.

* `takeSeconds_written` — seconds with their fraction, if any;
* `zone?_zoneText` — the zone, to the end of the text;
* `parseFields_text` — the whole moment.
-/

namespace CoinToss

namespace DateTime

open Decimal

theorem takeAfter_padded {width n : Nat} (separator : Char) (hwidth : 0 < width)
    (h : n < 10 ^ width) (rest : List Char) :
    takeAfter separator width (separator :: (padded width n ++ rest)) = some (n, rest) := by
  rw [takeAfter, if_pos rfl, takeNumber_padded hwidth h]

/-! ## the fraction -/

/-- Six digits of a fraction are its microseconds. -/
theorem microsOf_padded {n : Nat} (h : n < 1000000) : microsOf ((padded 6 n).map digitOf) = n := by
  have hlength : ((padded 6 n).map digitOf).length = 6 := by
    rw [List.length_map, length_padded (by decide) h]
  rw [microsOf, List.take_append_of_le_length (Nat.le_of_eq hlength.symm),
    List.take_of_length_le (Nat.le_of_eq hlength), ofDigits_padded]

/-- A text that goes on neither with a digit nor with the mark of a fraction. -/
def NoFractionNext (rest : List Char) : Prop :=
  ∀ c, rest.head? = some c → c.isDigit = false ∧ c ≠ '.' ∧ c ≠ ','

theorem NoFractionNext.noDigitNext {rest : List Char} (h : NoFractionNext rest) :
    NoDigitNext rest := fun c hc => (h c hc).1

/-- Seconds are read with their fraction, which is written only if there is one. -/
theorem takeSeconds_written {second micro : Nat} (hsecond : second < 60) (hmicro : micro < 1000000)
    {rest : List Char} (hrest : NoFractionNext rest) :
    takeSeconds (':' :: (padded 2 second ++
      ((if micro = 0 then [] else '.' :: padded 6 micro) ++ rest))) =
        some ((second, micro), rest) := by
  have htake (more : List Char) : takeNumber 2 (padded 2 second ++ more) = some (second, more) :=
    takeNumber_padded (by decide) (by omega) more
  rw [takeSeconds, htake, Option.bind_some]
  by_cases h0 : micro = 0
  · rw [if_pos h0, List.nil_append, h0]
    dsimp only
    split
    · exact absurd rfl (hrest '.' rfl).2.1
    · exact absurd rfl (hrest ',' rfl).2.2
    · rfl
  · have hspan := spanDigits_append (isDigit_padded 6 micro) hrest.noDigitNext
    have hmicros := microsOf_padded hmicro
    rw [if_neg h0, List.cons_append]
    simp only [hspan]
    cases hdigits : (padded 6 micro).map digitOf with
    | nil =>
        have hlength := congrArg List.length hdigits
        rw [List.length_map, length_padded (by decide) hmicro] at hlength
        contradiction
    | cons d ds =>
        rw [hdigits] at hmicros
        dsimp only
        rw [hmicros]

/-! ## the zone -/

theorem noFractionNext_zoneText (zone : Option Int) : NoFractionNext (zoneText zone) := by
  intro c hc
  cases zone with
  | none => contradiction
  | some z =>
      rw [zoneText] at hc
      split at hc
      · rw [← Option.some.inj hc]
        decide
      · rw [← Option.some.inj hc]
        split <;> decide

/-- A zone of hours and minutes is read by its sign. -/
theorem zone?_hours {sign : Char} (hsign : sign = '+' ∨ sign = '-') {hours minutes : Nat}
    (hhours : hours < 100) (hminutes : minutes < 60) :
    zone? (sign :: (padded 2 hours ++ ':' :: padded 2 minutes)) =
      some (some (signed (decide (sign ≠ '+')) (60 * hours + minutes))) := by
  have htake : takeNumber 2 (padded 2 hours ++ ':' :: padded 2 minutes) =
      some (hours, ':' :: padded 2 minutes) := takeNumber_padded (by decide) (by omega) _
  have hend : takeNumber 2 (padded 2 minutes) = some (minutes, []) := by
    have := takeNumber_padded (by decide) (show minutes < 10 ^ 2 by omega) []
    rwa [List.append_nil] at this
  have hknown : sign = '+' ∨ sign = '-' ∨ sign = '\u2212' := by
    rcases hsign with h | h
    · exact .inl h
    · exact .inr (.inl h)
  unfold zone?
  split
  · contradiction
  · next h => rcases hsign with rfl | rfl <;> simp at h
  · next h => rcases hsign with rfl | rfl <;> simp at h
  · next h =>
    obtain ⟨rfl, rfl⟩ := List.cons.inj h
    rw [if_pos hknown, htake, Option.bind_some]
    simp only [hend, if_pos hminutes]

/-- The zone is read to the end of the text. -/
theorem zone?_zoneText {zone : Option Int} (h : ∀ z, zone = some z → -1440 < z ∧ z < 1440) :
    zone? (zoneText zone) = some zone := by
  cases zone with
  | none => rfl
  | some z =>
      have hz := h z rfl
      by_cases h0 : z = 0
      · rw [h0]
        rfl
      · have hminutes : z.natAbs % 60 < 60 := Nat.mod_lt _ (by decide)
        have hwhole : 60 * (z.natAbs / 60) + z.natAbs % 60 = z.natAbs := Nat.div_add_mod _ _
        rw [zoneText, if_neg h0, List.cons_append]
        by_cases hneg : z < 0
        · rw [if_pos hneg, zone?_hours (.inr rfl) (by omega) hminutes, hwhole]
          show some (some (-(z.natAbs : Int))) = _
          rw [show -(z.natAbs : Int) = z by omega]
        · rw [if_neg hneg, zone?_hours (.inl rfl) (by omega) hminutes, hwhole]
          show some (some (z.natAbs : Int)) = _
          rw [show (z.natAbs : Int) = z by omega]

/-! ## the moment -/

theorem daysInMonth_le (year month : Nat) : daysInMonth year month ≤ 31 := by
  unfold daysInMonth
  split
  · split <;> decide
  all_goals decide

/-- A moment is read back from its written form. -/
theorem parseFields_text (t : DateTime) : parseFields t.text = .moment t := by
  obtain ⟨hy1, hy2, hm1, hm2, hd1, hd2⟩ := t.inCalendar
  obtain ⟨hhour, hminute, hsecond, hmicro⟩ := t.inDay
  have hday : t.day < 10 ^ 2 := by
    have := daysInMonth_le t.year t.month
    omega
  have htext : t.text.toList = padded 4 t.year ++ '-' :: (padded 2 t.month ++ '-' ::
      (padded 2 t.day ++ 'T' :: (padded 2 t.hour ++ ':' :: (padded 2 t.minute ++ ':' ::
        (padded 2 t.second ++ ((if t.micro = 0 then [] else '.' :: padded 6 t.micro) ++
          zoneText t.offset)))))) := by
    simp [text, dateText, clockText]
  have hcalendar : ofCalendar t.year t.month t.day t.hour t.minute t.second t.micro t.offset =
      .moment t := by
    rw [ofCalendar, ofFields?_self]
  have hseparator : isSeparator 'T' = true := rfl
  simp only [parseFields, htext, takeNumber_padded (by decide)
    (show t.year < 10 ^ 4 by omega), takeAfter_padded '-' (by decide)
    (show t.month < 10 ^ 2 by omega), takeAfter_padded '-' (by decide) hday,
    hseparator, takeNumber_padded (by decide) (show t.hour < 10 ^ 2 by omega),
    takeAfter_padded ':' (by decide) (show t.minute < 10 ^ 2 by omega),
    takeSeconds_written hsecond hmicro (noFractionNext_zoneText t.offset),
    zone?_zoneText t.inZone, hcalendar, Option.bind_some, Option.map_some, if_true,
    Option.getD_some]

end DateTime

/-- A moment is read back as a part of a record. -/
theorem Schema.moment_text (t : DateTime) : Schema.moment (.string t.text) = .ok t := by
  rw [Schema.moment, DateTime.ofText, DateTime.parseFields_text]
  rfl

end CoinToss

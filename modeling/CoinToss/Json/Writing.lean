import CoinToss.Decimal.Numeral
import CoinToss.Json.Printer

/-!
# CoinToss.Json.Writing

How much of a value can be written.

An integer is written only up to so many digits, and what is nested only as deep as there is room
on the stack.  Where a value becomes JSON every container takes a level; in the words of a message
plain values take one, too.  A writer goes through a value in order and stops at the first part that
it cannot write.

* `fault?` — what keeps a value from being written, if anything does;
* `fault?_array_eq_none_iff`, `fault?_object_eq_none_iff` — a container is written if its parts are.
-/

namespace CoinToss.Json

open Decimal

/-- Whether an integer has too many digits to be written. -/
def isOverlong (n : Int) : Bool := decide (digitLimit < (natDigits n.natAbs).length)

/-- What values become when they are written. -/
inductive Form where
  | json
  /-- The words of a message. -/
  | words
  deriving DecidableEq, Repr

/-- How values are written. -/
structure Writer where
  form : Form
  /-- Numbers that are not finite are spelled, too. -/
  spellsAll : Bool
  /-- Values may be nested so deep, if there is a limit. -/
  room : Option Nat

/-- The writer of the words of a message, with so much room. -/
def Writer.words (room : Nat) : Writer := ⟨.words, true, some room⟩

/-- Why a value cannot be written. -/
inductive WriteFault where
  | notFinite
  | overlong
  | tooDeep (form : Form)
  deriving DecidableEq, Repr

/-- What is told of a value that cannot be written. -/
def WriteFault.message : WriteFault → String
  | .notFinite => "Out of range float values are not JSON compliant"
  | .overlong =>
    "Exceeds the limit (" ++ toString digitLimit ++ " digits) for integer string conversion; " ++
      "use sys.set_int_max_str_digits() to increase the limit"
  | .tooDeep .json => "maximum recursion depth exceeded while encoding a JSON object"
  | .tooDeep .words => "maximum recursion depth exceeded while getting the repr of an object"

/-- The writer inside a value, if there is room. -/
def Writer.inside? (w : Writer) : Option Writer :=
  match w.room with
  | none => some w
  | some 0 => none
  | some (n + 1) => some { w with room := some n }

/-- What keeps a value that holds no others from being written: among words it needs room. -/
def Writer.plainFault? (w : Writer) : Option WriteFault :=
  if w.form = .words ∧ w.room = some 0 then some (.tooDeep .words) else none

mutual
/-- What keeps a value from being written. -/
def fault? (w : Writer) : Json → Option WriteFault
  | .int n => w.plainFault?.or (if isOverlong n then some .overlong else none)
  | .number x => w.plainFault?.or (if w.spellsAll || x.isFinite then none else some .notFinite)
  | .array xs =>
    match w.inside? with
    | some inner => elementFault? inner xs
    | none => some (.tooDeep w.form)
  | .object ms =>
    match w.inside? with
    | some inner => memberFault? inner ms
    | none => some (.tooDeep w.form)
  | .misnamed _ v => fault? w v
  | _ => w.plainFault?

/-- What keeps elements from being written. -/
def elementFault? (w : Writer) : List Json → Option WriteFault
  | [] => none
  | x :: xs => (fault? w x).or (elementFault? w xs)

/-- What keeps members from being written. -/
def memberFault? (w : Writer) : List (String × Json) → Option WriteFault
  | [] => none
  | (_, v) :: ms => (fault? w v).or (memberFault? w ms)
end

/-! ## laws -/

section Laws

variable {w inner : Writer}

theorem elementFault?_eq_none_iff {xs : List Json} :
    elementFault? w xs = none ↔ ∀ x ∈ xs, fault? w x = none := by
  induction xs with
  | nil => simp [elementFault?]
  | cons x xs ih => simp [elementFault?, ih]

theorem memberFault?_eq_none_iff {ms : List (String × Json)} :
    memberFault? w ms = none ↔ ∀ m ∈ ms, fault? w m.2 = none := by
  induction ms with
  | nil => simp [memberFault?]
  | cons m ms ih => simp [memberFault?, ih]

/-- A list is written if there is room for it, and its elements are written with what is left. -/
theorem fault?_array_eq_none_iff {xs : List Json} :
    fault? w (.array xs) = none ↔
      ∃ inner, w.inside? = some inner ∧ ∀ x ∈ xs, fault? inner x = none := by
  rw [fault?]
  cases w.inside? <;> simp [elementFault?_eq_none_iff]

/-- An object is written if there is room for it, and its members are written with what is left. -/
theorem fault?_object_eq_none_iff {ms : List (String × Json)} :
    fault? w (.object ms) = none ↔
      ∃ inner, w.inside? = some inner ∧ ∀ m ∈ ms, fault? inner m.2 = none := by
  rw [fault?]
  cases w.inside? <;> simp [memberFault?_eq_none_iff]

end Laws

end CoinToss.Json

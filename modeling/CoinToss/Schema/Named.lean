/-!
# CoinToss.Schema.Named

Finite kinds with names.

A `Named` type lists its values with the names they are written by; the names tell the values
apart, so `Named.ofName?_name` reads back what `Named.name` writes.
-/

namespace CoinToss.Schema

/-- A finite type whose values have names of their own. -/
class Named (α : Type) where
  all : List α
  name : α → String
  find_name : ∀ a, all.find? (fun b => name b == name a) = some a

/-- The value of a name. -/
def Named.ofName? {α : Type} [Named α] (s : String) : Option α :=
  Named.all.find? (fun a => Named.name a == s)

/-- A name reads back as its value. -/
@[simp] theorem Named.ofName?_name {α : Type} [Named α] (a : α) :
    Named.ofName? (Named.name a) = some a := Named.find_name a

/-- Values of one name are equal. -/
theorem Named.name_inj {α : Type} [Named α] {a b : α} (h : Named.name a = Named.name b) :
    a = b := by
  have ha := Named.ofName?_name a
  rw [h, Named.ofName?_name] at ha
  exact (Option.some.inj ha).symm

end CoinToss.Schema

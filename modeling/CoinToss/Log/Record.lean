import CoinToss.Log.Level

/-!
# CoinToss.Log.Record

What the program logs: records with a level, the name of a logger and a message.
-/

namespace CoinToss.Log

/-- A record of the log. -/
structure Record where
  level : Level
  logger : String
  message : String

/-- The logger of the whole program. -/
def root : String := "coinflip"

/-- A record of a part of the program. -/
def record (level : Level) (part message : String) : Record :=
  ⟨level, root ++ "." ++ part, message⟩

end CoinToss.Log

import CoinToss.Flip.Face

/-!
# CoinToss.Settings.Basic

What the program is set to, in five groups, each with its defaults.
-/

namespace CoinToss

/-- Where the service listens, and its name. -/
structure ServerSettings where
  host : String := "127.0.0.1"
  port : Int := 8000
  debug : Bool := false
  name : String := "Coin Flip Game"

/-- What is logged, and how. -/
structure LogSettings where
  level : String := "INFO"
  toFile : Bool := false
  formatter : String := "color"

/-- Where progress is kept. -/
structure StorageSettings where
  backend : String := "sqlite"
  progressKey : String := "coinUnlockProgress"

/-- What the game is set up with. -/
structure EngineSettings where
  weights : WeightTable := standardWeights
  multiplier : Float := 1

/-- Where files are, seen from the program's directory. -/
structure PathSettings where
  catalog : String := "coins.json"
  database : String := "data/progress.db"
  logFile : String := "data/coinflip.log"

/-- All settings. -/
structure Settings where
  server : ServerSettings := {}
  logging : LogSettings := {}
  storage : StorageSettings := {}
  engine : EngineSettings := {}
  paths : PathSettings := {}

end CoinToss

import CoinToss.Catalog.Shipped
import CoinToss.Simulation.Run

/-!
# CoinToss.Main

The command line: simulates flips with the shipped catalog.

Without a seed the draws are different every time.
-/

open CoinToss Simulation

/-- How the command is used. -/
def usageLine : String :=
  "usage: simulate [-h] [--heads PATH] [--tails PATH] [--seed SEED] [--random-faces] [flips]"

/-- A seed that nobody knows beforehand. -/
def unknownSeed : IO Int := do
  let bytes ← IO.getRandomBytes 8
  pure (bytes.toList.foldl (fun n b => 256 * n + b.toNat) 0 : Nat)

def main (args : List String) : IO UInt32 := do
  match Order.ofWords args with
  | .error refusal =>
    match refusal with
    | .help => IO.println usageLine
    | .misuse => IO.eprintln usageLine
    pure (UInt32.ofNat refusal.status)
  | .ok order =>
    let report := run Catalog.shipped.1 (.ofSeed (← unknownSeed)) order
    for line in report.lines do
      IO.println line
    match report.fault with
    | none => pure 0
    | some fault =>
      IO.eprintln fault.message
      pure 1

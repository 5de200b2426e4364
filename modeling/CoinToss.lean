import CoinToss.Catalog.Loading
import CoinToss.Catalog.Shipped
import CoinToss.Coin.Audit
import CoinToss.Coin.Reader
import CoinToss.Coin.Writer
import CoinToss.Decimal.Fixed
import CoinToss.Flip.Face
import CoinToss.Flip.Odds
import CoinToss.Json.Printer
import CoinToss.Log.Loggers
import CoinToss.Log.Record
import CoinToss.Log.Template
import CoinToss.Main
import CoinToss.Paths.PathSet
import CoinToss.Paths.Tally
import CoinToss.Progress.Codec
import CoinToss.Proofs.Codec.Digits
import CoinToss.Proofs.Unlock.Earned
import CoinToss.Proofs.Session.Saving
import CoinToss.Proofs.Unlock.Reports
import CoinToss.Random.Source
import CoinToss.Service.Answer
import CoinToss.Session.Lifecycle
import CoinToss.Session.Sittings
import CoinToss.Session.Standing
import CoinToss.Settings.Loading
import CoinToss.Settings.Location
import CoinToss.Store.Saved
import CoinToss.Unlock.Chronicle
import CoinToss.Unlock.Report
import CoinToss.Unlock.Roll
import CoinToss.Unlock.Track
import CoinToss.Proofs.Codec.Json
import CoinToss.Proofs.Codec.Moments
import CoinToss.Proofs.Codec.Snapshots
import CoinToss.Proofs.Session.Calls
import CoinToss.Proofs.Session.Agreement
import CoinToss.Proofs.Session.Overwriting
import CoinToss.Proofs.Session.Faces
import CoinToss.Proofs.Service.Landings
import CoinToss.Proofs.Session.Alike
import CoinToss.Proofs.Session.Turns
import CoinToss.Proofs.Session.Together
import CoinToss.Proofs.Session.Crowd
import CoinToss.Proofs.Unlock.Futile
import CoinToss.Proofs.Unlock.Settled
import CoinToss.Proofs.Progress.Coherence
import CoinToss.Proofs.Session.Consistency
import CoinToss.Proofs.Progress.Stages
import CoinToss.Proofs.Catalog.Bare
import CoinToss.Proofs.Unlock.Bare
import CoinToss.Proofs.Session.Bare
import CoinToss.Proofs.Decimal.Datum
import CoinToss.Proofs.Flip.Faults
import CoinToss.Proofs.Catalog.Audit
import CoinToss.Proofs.Session.Streaks
import CoinToss.Proofs.Session.Drains
import CoinToss.Proofs.Unlock.Percent
import CoinToss.Proofs.Log.SetUp
import CoinToss.Proofs.Catalog.DynamicLists
import CoinToss.Proofs.Catalog.NormalForm
import CoinToss.Proofs.Unlock.Rollers
import CoinToss.Proofs.Session.Failing
import CoinToss.Proofs.Flip.Precedence
import CoinToss.Proofs.Flip.Mirror
import CoinToss.Proofs.Flip.Shares
import CoinToss.Proofs.Unlock.Words
import CoinToss.Proofs.Catalog.Reordered
import CoinToss.Proofs.Unlock.Reordered
import CoinToss.Proofs.Catalog.Entries
import CoinToss.Proofs.Decimal.Places
import CoinToss.Proofs.Flip.Pace
import CoinToss.Proofs.Service.Answered
import CoinToss.Proofs.Session.ByHand
import CoinToss.Proofs.Decimal.Shortest
import CoinToss.Proofs.Codec.Ascii
import CoinToss.Proofs.Settings.Saved
import CoinToss.Proofs.Log.Lines

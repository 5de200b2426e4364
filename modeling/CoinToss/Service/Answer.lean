import CoinToss.Service.Sending
import CoinToss.Session.Lifecycle
import CoinToss.Session.Standing

/-!
# CoinToss.Service.Answer

What the service answers.

The body of a request is checked before the game is looked at.  Then saved progress is read, if
that has not been done, the coins named have to be known, and only then is the game called.  A call
that is turned away because another one is under way is a conflict; any other failure, one to send
the answer included, is an error of the server, whose reason is told in debug mode only.

* `job` — what has to be done to answer a request;
* `answer` — the answer to a request that nothing interrupts.
-/

namespace CoinToss.Service

open Decimal Schema

/-- A service of a game. -/
structure Config where
  setup : Setup
  /-- Whether answers tell why the server has failed. -/
  debug : Bool

/-- What is logged when a service starts. -/
def started (name : String) (c : Catalog) : Log.Record :=
  Log.record Log.info "main" s!"Application '{name}' initialized with {c.size} coins"

/-! ## sending -/

/-- The server has failed: this is logged. -/
def crash (s : Config) (reason : String) : Job Response :=
  .answer [Log.record Log.error "main" ("Unhandled exception: " ++ reason)] (.crashed s.debug reason)

/-- Sends an answer, if it can be sent. -/
def send (s : Config) (r : Response) : Job Response :=
  match r.content?.bind sendFault? with
  | none => .answer [] r
  | some fault => crash s fault.message

/-- Sends a value that may have failed. -/
def tell (s : Config) : Except NumberFault Json → Job Response
  | .ok j => send s (.ok j)
  | .error fault => crash s fault.message

/-- What is logged of a flip that is turned away. -/
def turnedAway : Log.Record :=
  Log.record Log.warning "api" ("Flip rejected: " ++ CallFault.busy.message)

/-! ## the game -/

/-- Looks at the game once saved progress has been read. -/
def visit (look : Game → Job Response) : Job Response := .call .ensureLoaded fun g _ => look g

/-- Whether a path is that of a coin. -/
def isKnown (c : Catalog) : GivenPath → Bool
  | .text path => c.contains path
  | .broken _ => false

/-- Goes on if some paths are those of coins. -/
def withCoins (s : Config) (paths : List GivenPath) (next : Job Response) : Job Response :=
  match paths.find? fun path => !isKnown s.setup.catalog path with
  | some path => send s (.unknownCoin path)
  | none => next

/-- Calls the game and answers what comes of it. -/
def callGame (s : Config) (call : Call) (rejection : List Log.Record)
    (reply : Reply → Except NumberFault Json) : Job Response :=
  .call call fun _ result =>
    match result with
    | .ok r => tell s (reply r)
    | .error .busy => .answer rejection .conflict
    | .error fault => crash s fault.message

/-- The coins that a flip has to name. -/
def FlipBody.named (b : FlipBody) : List GivenPath :=
  (if b.headsRandom then [] else [b.heads]) ++ (if b.tailsRandom then [] else [b.tails])

/-- Whether there is nothing for a random face to show but the path given for it. -/
def nothingToPick (s : Setup) (g : Game) : Bool :=
  !hasWeight (weighed s.weights (s.catalog.selectable g.progress))

/-- What is told of a flip in a game, and of the pause that its faces set. -/
def flipMembers (s : Setup) (b : FlipBody) (g : Game) (o : Outcome) (pause : Option Int) :
    Json.Members :=
  let heads := b.heads.told (b.headsRandom && nothingToPick s g)
  let tails := b.tails.told (b.tailsRandom && nothingToPick s g)
  let landed :=
    match o.side with
    | .heads => heads
    | .tails => tails
  o.membersWith (landed o.landed) (heads o.heads) (tails o.tails) ++
    [("auto_click_interval", .orNull .int pause)]

/-- What a flip has come to in a game, with the pace of flips that its faces set. -/
def flipJson (s : Config) (b : FlipBody) (g : Game) (o : Outcome) : Except NumberFault Json := do
  let pause ← (s.setup.catalog.faces o.heads o.tails).autoClickInterval
  pure (.object (flipMembers s.setup b g o pause))

/-- What a call has come to. -/
def replyJson : Reply → Except NumberFault Json
  | .changed b => pure (.object [("success", .bool true), ("changed", .bool b)])
  | .saved b => pure (.object [("success", .bool true), ("saved", .bool b)])
  | .nothing | .coins _ | .flipped _ => pure (.object [])

/-- What a flip that a body orders has come to, in the game that it was called on. -/
def flipReplyJson (s : Config) (b : FlipBody) (g : Game) : Reply → Except NumberFault Json
  | .flipped o => flipJson s b g o
  | r => replyJson r

/-! ## answers -/

/-- What an endpoint does. -/
def Endpoint.job (s : Config) (body : ByteArray) : Endpoint → Job Response
  | .coins => visit fun g => tell s do
    let cs ← s.setup.catalog.coins.mapM (g.coinStatus s.setup.catalog)
    pure (.object [("coins", .array cs)])
  | .coin path => visit fun g =>
    match s.setup.catalog.get? path with
    | some known => tell s (g.coinStatus s.setup.catalog known)
    | none => send s (.unknownCoin (.text path))
  | .standing => visit fun g => send s (.ok (g.standing s.setup.catalog))
  | .reset => visit fun _ => callGame s .reset [] replyJson
  | .unlock =>
    match readBody unlockPath body with
    | .error fault => send s (.ofBodyFault fault)
    | .ok path => visit fun _ => withCoins s [path] <|
      callGame s (.unlock path.mended) [] replyJson
  | .flip =>
    match readBody FlipBody.ofMembers body with
    | .error fault => send s (.ofBodyFault fault)
    | .ok b => visit fun g => withCoins s b.named <|
      callGame s (.flip b.order) [turnedAway] (flipReplyJson s b g)

/-- What has to be done to answer a request. -/
def job (s : Config) (r : Request) : Job Response :=
  match Route.ofPath r.path with
  | .nowhere => .answer [] .notFound
  | .elsewhere => .answer [] .elsewhere
  | .endpoint e => if r.method = e.method then e.job s r.body else .answer [] .notAllowed

/-- The answer to a request that nothing interrupts. -/
def answer (s : Config) (w : World) (r : Request) : World × Response := (job s r).run s.setup w

end CoinToss.Service

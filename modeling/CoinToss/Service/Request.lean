import CoinToss.Json.Reader
import CoinToss.Schema.Reading
import CoinToss.Session.Basic
import CoinToss.Text.Encoding

/-!
# CoinToss.Service.Request

What the service can be asked.

An endpoint has one path and answers one method.  A line break at the end of a path does not
count, and a path that leads to an endpoint once its trailing slashes are dropped leads elsewhere.
Bodies spell their members with underscores only.  A body whose bytes are no text, or that JSON
readers give up on, is unreadable; one that is no JSON, or not the record it should be, is rejected
with the part of it that is at issue.

* `Route.ofPath_path` — every endpoint is found at its path.
-/

namespace CoinToss.Service

open Schema

/-! ## endpoints -/

/-- What can be asked for. -/
inductive Endpoint where
  | coins
  | coin (path : String)
  | standing
  | reset
  | unlock
  | flip
  deriving DecidableEq, Repr

/-- The method an endpoint answers. -/
def Endpoint.method : Endpoint → String
  | .coins | .coin _ | .standing => "GET"
  | .reset | .unlock | .flip => "POST"

/-- Where the endpoints of single coins are. -/
def coinStem : List Char := "/api/coins/".toList

/-- What follows a beginning. -/
def after? : List Char → List Char → Option (List Char)
  | [], rest => some rest
  | _ :: _, [] => none
  | a :: as, b :: bs => if a = b then after? as bs else none

/-- The endpoint of exactly this path. -/
def Endpoint.at? (path : List Char) : Option Endpoint :=
  if path = "/api/coins".toList then some .coins
  else if path = "/api/progress".toList then some .standing
  else if path = "/api/progress/reset".toList then some .reset
  else if path = "/api/progress/unlock".toList then some .unlock
  else if path = "/api/flip".toList then some .flip
  else
    match after? coinStem path with
    | some rest => if rest.contains '\n' then none else some (.coin (String.ofList rest))
    | none => none

/-- A text without the line break at its end. -/
def dropLineBreak (path : List Char) : List Char :=
  if path.getLast? = some '\n' then path.dropLast else path

/-- A text without the slashes at its end. -/
def dropSlashes (path : List Char) : List Char := (path.reverse.dropWhile (· == '/')).reverse

/-- Where a path leads. -/
inductive Route where
  | endpoint (e : Endpoint)
  /-- To an endpoint under the path without its trailing slashes. -/
  | elsewhere
  | nowhere
  deriving DecidableEq, Repr

/-- Where a path leads. -/
def Route.ofPath (path : String) : Route :=
  match Endpoint.at? (dropLineBreak path.toList) with
  | some e => .endpoint e
  | none =>
    if (Endpoint.at? (dropLineBreak (dropSlashes path.toList))).isSome then .elsewhere else .nowhere

/-- The path of an endpoint. -/
def Endpoint.path : Endpoint → String
  | .coins => "/api/coins"
  | .coin path => String.ofList (coinStem ++ path.toList)
  | .standing => "/api/progress"
  | .reset => "/api/progress/reset"
  | .unlock => "/api/progress/unlock"
  | .flip => "/api/flip"

/-! ## bodies -/

/-- Why a body is rejected: an issue, and the part of the body that it is about. -/
structure Rejection where
  issue : Issue
  input : Json

/-- Why a body says nothing. -/
inductive BodyFault where
  | unreadable
  | rejected (reasons : List Rejection)

/-- The part of a body that an issue is about.  A member that is missing is an issue of the whole. -/
def inputOf (body : Json) (issue : Issue) : Json :=
  match issue.kind, issue.loc with
  | .missing, _ => body
  | _, .key name :: _ => (body.field? name).getD body
  | _, _ => body

/-- One issue of the body as a whole. -/
def wholeBody (kind : IssueKind) (input : Json) : BodyFault :=
  .rejected [⟨⟨kind, [.key "body"]⟩, input⟩]

/-- The characters of code points; half of a character is spelled as JSON spells it. -/
def spelled (codes : List Nat) : List Char :=
  codes.flatMap fun code => if Text.isHalf code then Json.unitEscape code else [Char.ofNat code]

/-- The JSON of a body. -/
def bodyJson (body : ByteArray) : Except BodyFault Json :=
  if body.isEmpty then .error (wholeBody .missing .null)
  else
    match Text.decode? body with
    | none => .error .unreadable
    | some codes =>
      match Json.readChars .lenient (spelled codes) with
      | .ok j => .ok j
      | .error .malformed => .error (wholeBody .jsonInvalid (.object []))
      | .error _ => .error .unreadable

/-- Reads a body as a record. -/
def readBody {α : Type} (readMembers : Json.Members → Checked α) (body : ByteArray) :
    Except BodyFault α := do
  let j ← bodyJson body
  match record .modelAttributesType readMembers j with
  | .ok a => pure a
  | .failed issues =>
    .error (.rejected (issues.map fun i => ⟨{ i with loc := .key "body" :: i.loc }, inputOf j i⟩))

/-- A path in a body: a text, or a string that is none because it holds halves of characters. -/
inductive GivenPath where
  | text (path : String)
  | broken (codes : List Nat)
  deriving DecidableEq, Repr

namespace GivenPath

/-- Reads a path. -/
def ofJson : Reading GivenPath
  | .string s => .ok (.text s)
  | .broken codes => .ok (.broken codes)
  | _ => .issue .stringType

/-- The path as a text, mended if need be. -/
def mended : GivenPath → String
  | .text path => path
  | .broken codes => Text.mendedText codes

/-- Whether the path is a text. -/
def isText : GivenPath → Bool
  | .text _ => true
  | .broken codes => Text.isWhole codes

/-- The path behind a text, as JSON. -/
def behind (text : String) : GivenPath → Json
  | .text path => .string (text ++ path)
  | .broken codes => .broken (text.toList.map Char.toNat ++ codes)

/-- What is told of a face that shows a path: the given one, if it shows that, is told as given. -/
def told (given : GivenPath) (showsGiven : Bool) (shown : String) : Json :=
  match given with
  | .text _ => .string shown
  | .broken codes =>
    if showsGiven && !(GivenPath.broken codes).isText then .broken codes else .string shown

end GivenPath

/-- The flip that a body orders. -/
structure FlipBody where
  heads : GivenPath
  tails : GivenPath
  headsRandom : Bool
  tailsRandom : Bool
  multiplier : Option Float

/-- Reads the flip that a body orders. -/
def FlipBody.ofMembers (ms : Json.Members) : Checked FlipBody :=
  FlipBody.mk
    <$> required ⟨"heads_path", none⟩ GivenPath.ofJson ms
    <*> required ⟨"tails_path", none⟩ GivenPath.ofJson ms
    <*> field ⟨"heads_random", none⟩ bool false ms
    <*> field ⟨"tails_random", none⟩ bool false ms
    <*> field ⟨"chance_multiplier", none⟩ (optional float) none ms

/-- The order of a flip.  The paths of a game are texts, so that it knows a path that is none by its
mended form.  Only a random face can show such a path; what is told of it is the path as given, which
cannot be sent.  A game that has landed on it could not be saved either, with the path as given, and
is left out: it goes on here with the mended path. -/
def FlipBody.order (b : FlipBody) : FlipOrder :=
  ⟨b.heads.mended, b.tails.mended, b.headsRandom, b.tailsRandom, b.multiplier⟩

/-- Reads the path of the coin that a body asks to unlock. -/
def unlockPath (ms : Json.Members) : Checked GivenPath :=
  required ⟨"path", none⟩ GivenPath.ofJson ms

/-! ## requests -/

/-- A request. -/
structure Request where
  method : String
  path : String
  /-- The bytes of the body; empty if there is none. -/
  body : ByteArray

/-! ## laws -/

theorem after?_append (as rest : List Char) : after? as (as ++ rest) = some rest := by
  induction as with
  | nil => rfl
  | cons a as ih => simp [after?, ih]

/-- Every endpoint is found at its path, if the path is one line. -/
theorem Route.ofPath_path {e : Endpoint} (h : '\n' ∉ e.path.toList) :
    ofPath e.path = .endpoint e := by
  have hbreak : dropLineBreak e.path.toList = e.path.toList := by
    unfold dropLineBreak
    split
    · next hl => exact absurd (List.mem_of_getLast? hl) h
    · rfl
  unfold ofPath
  rw [hbreak]
  cases e with
  | coin path =>
    have hp : '\n' ∉ path.toList := by
      intro hm
      exact h (by simp [Endpoint.path, hm])
    have hat : Endpoint.at? (Endpoint.coin path).path.toList = some (.coin path) := by
      have hne : ∀ s : String, s.toList.length < coinStem.length ∨
          s.toList.take coinStem.length ≠ coinStem →
          (coinStem ++ path.toList) ≠ s.toList := by
        rintro s hs e
        rw [← e] at hs
        rcases hs with hs | hs
        · rw [List.length_append] at hs
          omega
        · exact hs List.take_left
      simp only [Endpoint.at?, Endpoint.path, String.toList_ofList]
      rw [if_neg (hne "/api/coins" (by decide)), if_neg (hne "/api/progress" (by decide)),
        if_neg (hne "/api/progress/reset" (by decide)),
        if_neg (hne "/api/progress/unlock" (by decide)), if_neg (hne "/api/flip" (by decide))]
      simp [after?_append, hp]
    rw [hat]
  | coins | standing | reset | unlock | flip => rfl

end CoinToss.Service

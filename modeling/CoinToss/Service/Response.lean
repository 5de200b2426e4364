import CoinToss.Service.Request

/-!
# CoinToss.Service.Response

What the service answers with: a status and, mostly, JSON.

A rejected body is told with the parts of it that are at issue, so an answer can hold whatever a
body can.

* `Response.content?` — the JSON that is sent.
-/

namespace CoinToss.Service

open Schema

/-- What an answer holds. -/
inductive Content where
  | nothing
  | json (j : Json)
  /-- Why the body of the request is rejected. -/
  | rejections (reasons : List Rejection)

/-- An answer. -/
structure Response where
  status : Nat
  content : Content

/-! ## rejections -/

/-- What is told of an issue that a body can have. -/
def sentence : IssueKind → String
  | .missing => "Field required"
  | .stringType => "Input should be a valid string"
  | .stringUnicode => "Input should be a valid string, unable to parse raw data as a unicode string"
  | .boolType => "Input should be a valid boolean"
  | .boolParsing => "Input should be a valid boolean, unable to interpret input"
  | .floatType => "Input should be a valid number"
  | .floatParsing => "Input should be a valid number, unable to parse string as a number"
  | .modelAttributesType => "Input should be a valid dictionary or object to extract fields from"
  | .jsonInvalid => "JSON decode error"
  | _ => "Input should be valid"

/-- A step to a part of the body. -/
def stepJson : Step → Json
  | .key name => .string name
  | .index i => .int i

/-- A rejection as it is sent. -/
def Rejection.toJson (r : Rejection) : Json :=
  .object [("type", .string r.issue.kind.code), ("loc", .array (r.issue.loc.map stepJson)),
    ("msg", .string (sentence r.issue.kind)), ("input", r.input)]

/-! ## answers -/

namespace Response

/-- The JSON that is sent. -/
def content? (r : Response) : Option Json :=
  match r.content with
  | .nothing => none
  | .json j => some j
  | .rejections reasons => some (.object [("detail", .array (reasons.map Rejection.toJson))])

/-- All is well. -/
def ok (j : Json) : Response := ⟨200, .json j⟩

/-- An answer that gives its reason. -/
def refusedFor (status : Nat) (reason : Json) : Response :=
  ⟨status, .json (.object [("detail", reason)])⟩

/-- An answer that gives its reason. -/
def refused (status : Nat) (reason : String) : Response := refusedFor status (.string reason)

/-- What is asked for is at another path. -/
def elsewhere : Response := ⟨307, .nothing⟩

/-- The body cannot be read. -/
def unreadable : Response := refused 400 "There was an error parsing the body"

/-- Nothing has this path. -/
def notFound : Response := refused 404 "Not Found"

/-- No coin has this path. -/
def unknownCoin (path : GivenPath) : Response := refusedFor 404 (path.behind "Unknown coin: ")

/-- What has this path does not answer this method. -/
def notAllowed : Response := refused 405 "Method Not Allowed"

/-- Another call is under way. -/
def conflict : Response := refused 409 CallFault.busy.message

/-- The body is not as it should be. -/
def rejected (reasons : List Rejection) : Response := ⟨422, .rejections reasons⟩

/-- The body says nothing. -/
def ofBodyFault : BodyFault → Response
  | .unreadable => unreadable
  | .rejected reasons => rejected reasons

/-- The server has failed. -/
def crashed (debug : Bool) (reason : String) : Response :=
  ⟨500, .json (.object [("error", .string "Internal server error"),
    ("detail", if debug then .string reason else .null)])⟩

end Response

end CoinToss.Service

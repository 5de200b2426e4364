/-!
# CoinToss.Schema.Checked

Readings that collect every issue.

Reading a record does not stop at its first bad field: `Checked` is an applicative whose failures
add up, in the order in which the parts are combined.

* `Checked.map_ok`, `Checked.seq_ok`, `Checked.seq_failed` — how readings combine;
* `Checked.within` — puts the issues of a part at a place of the whole.
-/

namespace CoinToss.Schema

/-- A step to a part of a record: a member or an element. -/
inductive Step where
  | key (name : String)
  | index (i : Nat)
  deriving DecidableEq, Repr

/-- What is wrong at a place. -/
inductive IssueKind where
  | missing
  | modelType
  | modelAttributesType
  | unionTagNotFound
  | unionTagInvalid
  | intType
  | intParsing
  | intParsingSize
  | intFromFloat
  | finiteNumber
  | floatType
  | floatParsing
  | boolType
  | boolParsing
  | stringType
  | stringUnicode
  | enumeration
  | tupleType
  | setType
  | dictType
  | datetimeType
  | datetimeParsing
  | datetimeFromDateParsing
  | jsonInvalid
  | tooDeep
  deriving DecidableEq, Repr

/-- The code of an issue. -/
def IssueKind.code : IssueKind → String
  | .missing => "missing"
  | .modelType => "model_type"
  | .modelAttributesType => "model_attributes_type"
  | .unionTagNotFound => "union_tag_not_found"
  | .unionTagInvalid => "union_tag_invalid"
  | .intType => "int_type"
  | .intParsing => "int_parsing"
  | .intParsingSize => "int_parsing_size"
  | .intFromFloat => "int_from_float"
  | .finiteNumber => "finite_number"
  | .floatType => "float_type"
  | .floatParsing => "float_parsing"
  | .boolType => "bool_type"
  | .boolParsing => "bool_parsing"
  | .stringType => "string_type"
  | .stringUnicode => "string_unicode"
  | .enumeration => "enum"
  | .tupleType => "tuple_type"
  | .setType => "set_type"
  | .dictType => "dict_type"
  | .datetimeType => "datetime_type"
  | .datetimeParsing => "datetime_parsing"
  | .datetimeFromDateParsing => "datetime_from_date_parsing"
  | .jsonInvalid => "json_invalid"
  | .tooDeep => "recursion_depth_exceeded"

/-- An issue and the path to it. -/
structure Issue where
  kind : IssueKind
  loc : List Step
  deriving DecidableEq, Repr

/-- A reading: a value, or the issues found. -/
inductive Checked (α : Type) where
  | ok (a : α)
  | failed (issues : List Issue)

namespace Checked

variable {α β : Type}

/-- A reading with one issue, at the place itself. -/
def issue (kind : IssueKind) : Checked α := .failed [⟨kind, []⟩]

/-- Changes the value read. -/
protected def map (f : α → β) : Checked α → Checked β
  | .ok a => .ok (f a)
  | .failed issues => .failed issues

/-- Combines two readings; the issues of both are kept. -/
protected def seq (f : Checked (α → β)) (x : Checked α) : Checked β :=
  match f, x with
  | .ok g, .ok a => .ok (g a)
  | .ok _, .failed issues => .failed issues
  | .failed issues, .ok _ => .failed issues
  | .failed issues, .failed more => .failed (issues ++ more)

instance : Applicative Checked where
  map f x := x.map f
  pure a := .ok a
  seq f x := Checked.seq f (x ())

/-- The issues of a part, seen from the whole. -/
def within (step : Step) : Checked α → Checked α
  | .ok a => .ok a
  | .failed issues => .failed (issues.map fun i => { i with loc := step :: i.loc })

/-- The value read, if there were no issues. -/
def toOption : Checked α → Option α
  | .ok a => some a
  | .failed _ => none

/-- A value or an issue. -/
def ofOption (kind : IssueKind) : Option α → Checked α
  | some a => .ok a
  | none => issue kind

@[simp] theorem map_ok (f : α → β) (a : α) : f <$> (ok a) = ok (f a) := rfl

@[simp] theorem seq_ok (f : α → β) (a : α) : (ok f <*> ok a) = ok (f a) := rfl

@[simp] theorem seq_failed (issues more : List Issue) :
    ((failed issues : Checked (α → β)) <*> (failed more : Checked α)) =
      failed (issues ++ more) := rfl

@[simp] theorem within_ok (step : Step) (a : α) : (ok a).within step = ok a := rfl

end Checked

end CoinToss.Schema

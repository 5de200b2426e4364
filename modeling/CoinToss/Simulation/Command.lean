import CoinToss.Decimal.Numeral

/-!
# CoinToss.Simulation.Command

The words of a command line that orders a simulation.

A word that starts with two hyphens is an option, in full or as far as its name is unambiguous, with
a value in the next word or behind an equals sign; two hyphens behind an equals sign are no value.
A hyphen and nothing but `h` behind it asks for help.  Negative numbers and words with a space are
no options, nor is anything behind a word of two hyphens.  The one word that belongs to no option is
the number of flips.

* `Word.ofText` — what a word is by itself;
* `Order.ofWords` — the simulation ordered.
-/

namespace CoinToss.Simulation

open Decimal

/-- What the draws of a simulation start from. -/
inductive Seed where
  /-- Every simulation draws differently. -/
  | unknown
  | given (n : Int)
  /-- A seed was to be given, but there was no value. -/
  | missing
  deriving DecidableEq, Repr

/-- A simulation as it is ordered. -/
structure Order where
  flips : Int := 1000
  heads : String := ""
  tails : String := ""
  seed : Seed := .unknown
  randomFaces : Bool := false
  deriving DecidableEq, Repr

/-- Why no simulation is run. -/
inductive Refusal where
  /-- Help is asked for. -/
  | help
  /-- The command line makes no sense. -/
  | misuse
  deriving DecidableEq, Repr

/-- The exit status of a refusal. -/
def Refusal.status : Refusal → Nat
  | .help => 0
  | .misuse => 2

/-! ## words -/

/-- What an option sets. -/
inductive Switch where
  | help
  | heads
  | tails
  | seed
  | randomFaces
  deriving DecidableEq, Repr

/-- The names of the options. -/
def switchNames : List (List Char × Switch) :=
  [("help".toList, .help), ("heads".toList, .heads), ("tails".toList, .tails),
   ("seed".toList, .seed), ("random-faces".toList, .randomFaces)]

/-- What a word is. -/
inductive Word where
  /-- No option. -/
  | plain (text : String)
  /-- An option, and the value that the word itself gives it. -/
  | option (switch : Switch) (value : Option (List Char))
  /-- A hyphen, an `h` and the letters behind it. -/
  | help (letters : List Char)
  /-- An option that there is not. -/
  | unknown
  /-- Two hyphens: no word behind them is an option. -/
  | divider
  deriving DecidableEq, Repr

/-- Whether a word is written as a negative number, maybe with a line break behind it. -/
def isNegativeNumber : List Char → Bool
  | '-' :: cs =>
    let isDigit (c : Char) : Bool := (Text.digitValue? c).isSome
    let cs := if cs.getLast? = some '\n' then cs.dropLast else cs
    match cs.dropWhile isDigit with
    | [] => !cs.isEmpty
    | '.' :: fraction => !fraction.isEmpty && fraction.all isDigit
    | _ => false
  | _ => false

/-- A word cut at the first equals sign. -/
def splitValue (cs : List Char) : List Char × Option (List Char) :=
  match cs.span (· != '=') with
  | (name, '=' :: value) => (name, some value)
  | (name, _) => (name, none)

/-- The options whose names begin with a text. -/
def switchesOf (name : List Char) : List Switch :=
  (switchNames.filter fun s => name.isPrefixOf s.1).map (·.2)

/-- A word that starts with a hyphen and is no option there is. -/
def Word.ofOther (cs : List Char) : Word :=
  if isNegativeNumber cs || cs.contains ' ' then .plain (String.ofList cs) else .unknown

/-- What a word that starts with a hyphen is.  A name that may mean two options is refused. -/
def Word.ofHyphened (cs : List Char) : Except Refusal Word :=
  match cs with
  | '-' :: '-' :: rest =>
    let (name, value) := splitValue rest
    match switchesOf name with
    | [] => .ok (.ofOther cs)
    | [switch] => .ok (.option switch value)
    | _ => .error .misuse
  | '-' :: 'h' :: letters => .ok (.help letters)
  | _ => .ok (.ofOther cs)

/-- What a word is. -/
def Word.ofText (text : String) : Except Refusal Word :=
  match text.toList with
  | '-' :: c :: cs => Word.ofHyphened ('-' :: c :: cs)
  | _ => .ok (.plain text)

/-- What the words are. -/
def classify : List String → Except Refusal (List Word)
  | [] => .ok []
  | text :: rest =>
    if text = "--" then .ok (.divider :: rest.map .plain)
    else do
      let word ← Word.ofText text
      pure (word :: (← classify rest))

/-! ## the order -/

/-- An order on its way. -/
structure Draft where
  order : Order := {}
  /-- The option whose value is the next word. -/
  awaiting : Option Switch := none
  /-- Whether the number of flips is given. -/
  counted : Bool := false
  /-- Whether the last word was the number of flips; a divider right behind it does no harm. -/
  justCounted : Bool := false
  /-- Whether a word was left over. -/
  leftOver : Bool := false

/-- An integer that a word has to be. -/
def integer (text : String) : Except Refusal Int :=
  match plainInteger? text with
  | some n => .ok n
  | none => .error .misuse

/-- Sets an option to a value. -/
def Order.set (o : Order) (switch : Switch) (value : String) : Except Refusal Order :=
  match switch with
  | .heads => .ok { o with heads := value }
  | .tails => .ok { o with tails := value }
  | .seed => do
    let n ← integer value
    pure { o with seed := .given n }
  | .help | .randomFaces => .error .misuse

/-- Sets an option that takes no value. -/
def Order.raise (o : Order) : Switch → Except Refusal Order
  | .help => .error .help
  | .randomFaces => .ok { o with randomFaces := true }
  | _ => .error .misuse

/-- Sets an option that was to have a value to none. -/
def Order.unset (o : Order) : Switch → Except Refusal Order
  | .heads => .ok { o with heads := "" }
  | .tails => .ok { o with tails := "" }
  | .seed => .ok { o with seed := .missing }
  | .help | .randomFaces => .error .misuse

/-- What letters behind `-h` come to: the same option again and again, or no option.  An equals sign
right behind it does not count, unless nothing follows. -/
def Refusal.ofLetters (letters : List Char) : Refusal :=
  match letters with
  | ['='] => .misuse
  | '=' :: letters | letters => if letters.all (· == 'h') then .help else .misuse

/-- Whether an option takes a value. -/
def Switch.takesValue : Switch → Bool
  | .heads | .tails | .seed => true
  | .help | .randomFaces => false

/-- Takes an option. -/
def Draft.option (d : Draft) (switch : Switch) (value : Option (List Char)) :
    Except Refusal Draft :=
  match value with
  | some ['-', '-'] => do
    let o ← d.order.unset switch
    pure { d with order := o }
  | some v => do
    let o ← d.order.set switch (String.ofList v)
    pure { d with order := o }
  | none =>
    if switch.takesValue then pure { d with awaiting := some switch }
    else do
      let o ← d.order.raise switch
      pure { d with order := o }

/-- Takes a word. -/
def Draft.take (d : Draft) (word : Word) : Except Refusal Draft :=
  let next : Draft := { d with awaiting := none, justCounted := false }
  match d.awaiting, word with
  | some switch, .plain text => do
    let o ← d.order.set switch text
    pure { next with order := o }
  | some _, _ => .error .misuse
  | none, .option switch value => next.option switch value
  | none, .help letters => .error (.ofLetters letters)
  | none, .unknown => pure { next with leftOver := true }
  | none, .divider => pure { next with leftOver := d.leftOver || (d.counted && !d.justCounted) }
  | none, .plain text =>
    if d.counted then pure { next with leftOver := true }
    else do
      let n ← integer text
      pure { next with order := { d.order with flips := n }, counted := true, justCounted := true }

/-- The simulation that words order. -/
def Order.ofWords (texts : List String) : Except Refusal Order := do
  let words ← classify texts
  let d ← words.foldlM Draft.take {}
  if d.leftOver || d.awaiting.isSome then .error .misuse else .ok d.order

end CoinToss.Simulation

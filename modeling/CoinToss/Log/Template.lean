import CoinToss.Decimal.Numeral
import CoinToss.Decimal.Significant
import CoinToss.Json.Shown

/-!
# CoinToss.Log.Template

Messages from a template and its arguments.

A template is text with directives.  A directive starts with a percent sign; flags, a width and a
precision may follow, and a letter says how the next argument is written: `s`, `r` and `a` for any
value, `d`, `i`, `u`, `o`, `x` and `X` for integers, `e`, `f`, `g` and their capitals for numbers,
`c` for one character.  Two percent signs stand for one.  A directive with a name in brackets takes
the member of that name of the only argument.

What is wrong is found from left to right: arguments that a directive asks for are taken even where
the template ends before its letter.  An argument is shown only so far as there is room for it.

* `pieces` — text and directives, in order;
* `fillIn` — the message, or the first thing that is wrong;
* `fillIn_literals` — text without directives stays as it is, if no argument is left over.
-/

namespace CoinToss.Log

open Decimal

/-! ## reading a template -/

/-- A width or a precision. -/
inductive Size where
  | unset
  | fixed (n : Nat)
  /-- The next argument says it. -/
  | asked

/-- Signs and fillings asked for. -/
structure Flags where
  leftAligned : Bool := false
  plus : Bool := false
  blank : Bool := false
  alternate : Bool := false
  zeros : Bool := false

/-- How an argument is to be written. -/
structure Directive where
  name : Option String
  flags : Flags
  width : Size
  precision : Size
  /-- The letter and where it stands; nothing where the template ends before it. -/
  letter : Option (Char × Nat)

/-- A part of a template. -/
inductive Piece where
  | literal (c : Char)
  | directive (d : Directive)
  /-- The template ends inside the name of a directive. -/
  | unfinishedName

/-- Takes flags off. -/
def takeFlags (flags : Flags) : List Char → Flags × List Char
  | '-' :: cs => takeFlags { flags with leftAligned := true } cs
  | '+' :: cs => takeFlags { flags with plus := true } cs
  | ' ' :: cs => takeFlags { flags with blank := true } cs
  | '#' :: cs => takeFlags { flags with alternate := true } cs
  | '0' :: cs => takeFlags { flags with zeros := true } cs
  | cs => (flags, cs)

/-- Takes a width off. -/
def takeSize (cs : List Char) : Size × List Char :=
  match cs with
  | '*' :: rest => (.asked, rest)
  | _ =>
    match spanDigits cs with
    | ([], _) => (.unset, cs)
    | (ds, rest) => (.fixed (ofDigits ds), rest)

/-- Takes a precision off; a point alone is a precision of zero. -/
def takePrecision (cs : List Char) : Size × List Char :=
  match cs with
  | '.' :: rest =>
    match takeSize rest with
    | (.unset, rest) => (.fixed 0, rest)
    | r => r
  | _ => (.unset, cs)

/-- Takes a letter off that says nothing. -/
def dropLength (cs : List Char) : List Char :=
  match cs with
  | 'h' :: rest | 'l' :: rest | 'L' :: rest => rest
  | _ => cs

/-- What follows an opening bracket up to its closing one, and the rest. -/
def takeName : Nat → List Char → Option (List Char × List Char)
  | _, [] => none
  | depth, c :: cs =>
    if c = ')' ∧ depth = 0 then some ([], cs)
    else
      let depth := if c = '(' then depth + 1 else if c = ')' then depth - 1 else depth
      (takeName depth cs).map fun r => (c :: r.1, r.2)

/-- The name of a directive, if it has one. -/
def takeKey (cs : List Char) : Option (Option String × List Char) :=
  match cs with
  | '(' :: rest => (takeName 0 rest).map fun r => (some (String.ofList r.1), r.2)
  | _ => some (none, cs)

/-- The directive behind a percent sign, of a template of a given length. -/
def takeDirective (length : Nat) (cs : List Char) : Piece × List Char :=
  match takeKey cs with
  | none => (.unfinishedName, [])
  | some (name, rest) =>
    let (flags, rest) := takeFlags {} rest
    let (width, rest) := takeSize rest
    let (precision, rest) := takePrecision rest
    match dropLength rest with
    | [] => (.directive ⟨name, flags, width, precision, none⟩, [])
    | letter :: rest =>
      (.directive ⟨name, flags, width, precision, some (letter, length - rest.length - 1)⟩, rest)

/-- The pieces of the rest of a template; every step takes a character off. -/
def piecesOf (length : Nat) : Nat → List Char → List Piece
  | 0, _ => []
  | _ + 1, [] => []
  | fuel + 1, '%' :: '%' :: cs => .literal '%' :: piecesOf length fuel cs
  | fuel + 1, '%' :: cs =>
    let (piece, rest) := takeDirective length cs
    piece :: piecesOf length fuel rest
  | fuel + 1, c :: cs => .literal c :: piecesOf length fuel cs

/-- The pieces of a template. -/
def pieces (template : String) : List Piece :=
  let cs := template.toList
  piecesOf cs.length cs.length cs

/-! ## faults -/

/-- Why a template and its arguments make no message. -/
inductive TemplateFault where
  | unfinished
  | unfinishedName
  | tooFew
  | tooMany
  /-- A directive has a name, but the arguments have none. -/
  | unnamed
  /-- A directive has a name, but the arguments are a list. -/
  | onlyPlaces
  | noMember (name : String)
  | unknownLetter (letter : Char) (position : Nat)
  /-- A width or precision was asked for and is no integer. -/
  | noSize
  | widthTooBig
  | precisionTooBig
  /-- A width asked for is beyond 64 bits. -/
  | widthBeyondWord
  /-- A precision asked for is beyond 32 bits. -/
  | precisionBeyondWord
  /-- An integer cannot have so many digits. -/
  | tooManyDigits
  /-- The text would not fit any memory. -/
  | tooLong
  /-- A number is needed by a directive for integers. -/
  | noNumber (letter : Char) (found : Json)
  /-- An integer is needed. -/
  | noInteger (letter : Char) (found : Json)
  /-- A number is needed. -/
  | noReal (found : Json)
  | noCharacter
  | beyondCharacters
  | number (fault : NumberFault)
  /-- An argument cannot be turned into text. -/
  | unwritten (fault : Json.WriteFault)

/-- A letter as it is told: a question mark for one outside ASCII or, but for the last of them, a
control character. -/
def plainLetter (c : Char) : Char := if 31 ≤ c.toNat ∧ c.toNat < 127 then c else '?'

/-- What is told of a fault. -/
def TemplateFault.message : TemplateFault → String
  | .unfinished => "incomplete format"
  | .unfinishedName => "incomplete format key"
  | .tooFew => "not enough arguments for format string"
  | .tooMany => "not all arguments converted during string formatting"
  | .unnamed => "format requires a mapping"
  | .onlyPlaces => "list indices must be integers or slices, not str"
  | .noMember name => String.ofList (Json.shownText name)
  | .unknownLetter letter position =>
    "unsupported format character '" ++ (plainLetter letter).toString ++ "' (0x" ++
      String.ofList (Nat.toDigits 16 letter.toNat) ++ ") at index " ++ toString position
  | .noSize => "* wants int"
  | .widthTooBig => "width too big"
  | .precisionTooBig => "precision too big"
  | .widthBeyondWord => "Python int too large to convert to C ssize_t"
  | .precisionBeyondWord => "Python int too large to convert to C int"
  | .tooManyDigits => "precision too large"
  | .tooLong => ""
  | .noNumber letter found =>
    "%" ++ letter.toString ++ " format: a real number is required, not " ++ found.kindWord
  | .noInteger letter found =>
    "%" ++ letter.toString ++ " format: an integer is required, not " ++ found.kindWord
  | .noReal found => "must be real number, not " ++ found.kindWord
  | .noCharacter => "%c requires int or char"
  | .beyondCharacters => "%c arg not in range(0x110000)"
  | .number fault => fault.message
  | .unwritten fault => fault.message

/-! ## writing an argument -/

/-- The largest width that a template can spell. -/
def widthLimit : Nat := 9223372036854775807

/-- The largest precision that a template can spell. -/
def precisionLimit : Nat := 2147483647

/-- No double has more significant digits. -/
def significantLimit : Nat := 767

/-- A directive whose width and precision are known. -/
structure Manner where
  flags : Flags
  width : Nat
  precision : Option Nat
  letter : Char

/-- Fills up to the width: with zeros behind the sign, or with blanks. -/
def Manner.fill (m : Manner) (zeros : Bool) (sign body : List Char) : List Char :=
  let missing := m.width - (sign.length + body.length)
  if m.flags.leftAligned then sign ++ body ++ List.replicate missing ' '
  else if zeros then sign ++ List.replicate missing '0' ++ body
  else List.replicate missing ' ' ++ sign ++ body

/-- The sign of a number. -/
def Manner.sign (m : Manner) (negative : Bool) : List Char :=
  if negative then ['-'] else if m.flags.plus then ['+'] else if m.flags.blank then [' '] else []

/-- A text, cut to the precision. -/
def Manner.text (m : Manner) (cs : List Char) : List Char :=
  m.fill false [] (match m.precision with
    | some n => cs.take n
    | none => cs)

/-- The base of an integer directive and the mark in front of its digits. -/
def baseOf (letter : Char) : Nat × List Char :=
  if letter = 'o' then (8, ['0', 'o'])
  else if letter = 'x' then (16, ['0', 'x'])
  else if letter = 'X' then (16, ['0', 'X'])
  else (10, [])

/-- Integers have no more digits than this. -/
def digitsLimit : Nat := 2147483644

/-- An integer. -/
def Manner.integer (m : Manner) (n : Int) : Except TemplateFault (List Char) :=
  let (base, mark) := baseOf m.letter
  if digitsLimit < m.precision.getD 0 then .error .tooManyDigits
  else if base = 10 ∧ Json.isOverlong n then .error (.unwritten .overlong)
  else
    let ds := Nat.toDigits base n.natAbs
    let ds := if m.letter = 'X' then ds.map Char.toUpper else ds
    let ds := List.replicate (m.precision.getD 0 - ds.length) '0' ++ ds
    .ok (m.fill m.flags.zeros (m.sign (n < 0) ++ if m.flags.alternate then mark else []) ds)

/-- A double without its sign.  With an exponent there is no room for one digit more than the
largest precision, and a single digit is left; zeros that would be dropped are not worked out. -/
def Manner.magnitude (m : Manner) (x : Float) : List Char :=
  let places := m.precision.getD 6
  match datum x with
  | .notANumber => "nan".toList
  | .infinite _ => "inf".toList
  | .finite _ s e =>
    match m.letter.toLower with
    | 'e' => exponentText m.flags.alternate (if places = precisionLimit then 0 else places) s e
    | 'g' =>
      generalText m.flags.alternate
        (if m.flags.alternate then places else min places significantLimit) s e
    | _ =>
      placePoint places (inPlaces places s e) ++
        if m.flags.alternate && places == 0 then ['.'] else []

/-- Whether a double has a minus sign; one that is no number has none. -/
def isNegative (x : Float) : Bool :=
  match datum x with
  | .notANumber => false
  | .infinite negative | .finite negative _ _ => negative

/-- A double. -/
def Manner.real (m : Manner) (x : Float) : List Char :=
  let body := m.magnitude x
  m.fill m.flags.zeros (m.sign (isNegative x)) <|
    if m.letter.isUpper then body.map Char.toUpper else body

/-- The integer of an argument, for the decimal directives. -/
def wholeNumber (letter : Char) : Json → Except TemplateFault Int
  | .int n => .ok n
  | .bool b => .ok (if b then 1 else 0)
  | .number x => (truncInt x).mapError .number
  | found => .error (.noNumber letter found)

/-- The integer of an argument, for the other bases. -/
def exactInteger (letter : Char) : Json → Except TemplateFault Int
  | .int n => .ok n
  | .bool b => .ok (if b then 1 else 0)
  | found => .error (.noInteger letter found)

/-- The double of an argument. -/
def realNumber : Json → Except TemplateFault Float
  | .number x => .ok x
  | .int n => (ofInt n).mapError .number
  | .bool b => .ok (if b then 1 else 0)
  | found => .error (.noReal found)

/-- The character of an argument: a text of one, or the number of one. -/
def oneCharacter : Json → Except TemplateFault Char
  | .string s =>
    match s.toList with
    | [c] => .ok c
    | _ => .error .noCharacter
  | .int n => if 0 ≤ n ∧ n < 0x110000 then .ok (Char.ofNat n.toNat) else .error .beyondCharacters
  | .bool b => .ok (Char.ofNat (if b then 1 else 0))
  | _ => .error .noCharacter

/-- The text of an argument, if there is room for showing it. -/
def ifShown (room : Nat) (arg : Json) (cs : List Char) : Except TemplateFault (List Char) :=
  match Json.fault? (.words room) arg with
  | some fault => .error (.unwritten fault)
  | none => .ok cs

/-- An argument in a manner, with so much room for showing it; the letter stands at a position. -/
def Manner.write (m : Manner) (room position : Nat) (arg : Json) :
    Except TemplateFault (List Char) :=
  if m.letter = 's' then
    (fun shown => m.text shown.toList) <$> (Json.shown? room arg).mapError .unwritten
  else if m.letter = 'r' then ifShown room arg (m.text (Json.shownInside arg))
  else if m.letter = 'a' then ifShown room arg (m.text (Json.shownAscii arg))
  else if ['d', 'i', 'u'].contains m.letter then wholeNumber m.letter arg >>= m.integer
  else if ['o', 'x', 'X'].contains m.letter then exactInteger m.letter arg >>= m.integer
  else if ['e', 'E', 'f', 'F', 'g', 'G'].contains m.letter then m.real <$> realNumber arg
  else if m.letter = 'c' then (fun c => m.fill false [] [c]) <$> oneCharacter arg
  else .error (.unknownLetter m.letter position)

/-! ## filling in -/

/-- What names in brackets refer to. -/
inductive Lookup where
  | nothing
  | members (ms : Json.Members)
  /-- A list has places only. -/
  | places

/-- Arguments not used yet, and what names refer to. -/
structure Arguments where
  queue : List Json
  lookup : Lookup

/-- Arguments in order, if there are any; a single object that is not empty also gives its
members. -/
def Arguments.ofList : List Json → Option Arguments
  | [] => none
  | [.object (m :: ms)] => some ⟨[.object (m :: ms)], .members (m :: ms)⟩
  | args => some ⟨args, .nothing⟩

/-- A single argument, if it says anything. -/
def Arguments.ofJson (j : Json) : Option Arguments :=
  if j.saysAnything then
    some ⟨[j], match j with
      | .object ms => .members ms
      | .array _ => .places
      | _ => .nothing⟩
  else none

/-- Whether an argument left over in the end is a fault. -/
def Arguments.isLeftOver (a : Arguments) : Bool :=
  match a.lookup with
  | .nothing => !a.queue.isEmpty
  | _ => false

/-- Takes the next argument. -/
def Arguments.next (a : Arguments) : Except TemplateFault (Json × Arguments) :=
  match a.queue with
  | [] => .error .tooFew
  | arg :: rest => .ok (arg, { a with queue := rest })

/-- Makes a member the only argument left. -/
def Arguments.pick (a : Arguments) : Option String → Except TemplateFault Arguments
  | none => .ok a
  | some name =>
    match a.lookup with
    | .nothing => .error .unnamed
    | .places => .error .onlyPlaces
    | .members ms =>
      match Json.Members.field? name ms with
      | some value => .ok { a with queue := [value] }
      | none => .error (.noMember name)

/-- Takes the integer that a width or precision asks for. -/
def Arguments.nextSize (a : Arguments) : Except TemplateFault (Int × Arguments) := do
  match ← a.next with
  | (.int n, a) => .ok (n, a)
  | (.bool b, a) => .ok (if b then 1 else 0, a)
  | _ => .error .noSize

/-- A width, asked for if need be; a negative one asks for blanks on the right.  The least one has
no counterpart and asks for nothing. -/
def Arguments.width (a : Arguments) : Size → Except TemplateFault (Int × Arguments)
  | .unset => .ok (0, a)
  | .fixed n => if widthLimit < n then .error .widthTooBig else .ok (n, a)
  | .asked => do
    let (n, a) ← a.nextSize
    if n < -(widthLimit : Int) - 1 ∨ (widthLimit : Int) < n then .error .widthBeyondWord
    else .ok (if n < -(widthLimit : Int) then 0 else n, a)

/-- A precision, asked for if need be; a negative one is zero. -/
def Arguments.precision (a : Arguments) : Size → Except TemplateFault (Option Nat × Arguments)
  | .unset => .ok (none, a)
  | .fixed n => if precisionLimit < n then .error .precisionTooBig else .ok (some n, a)
  | .asked => do
    let (n, a) ← a.nextSize
    if n < -(precisionLimit : Int) - 1 ∨ (precisionLimit : Int) < n then .error .precisionBeyondWord
    else .ok (some n.toNat, a)

/-- No text is as wide as this. -/
def memoryLimit : Nat := 100000000000

/-- Writes a directive.  What is wrong with its argument comes before a width that is too much. -/
def Directive.write (room : Nat) (d : Directive) (a : Arguments) :
    Except TemplateFault (List Char × Arguments) := do
  let a ← a.pick d.name
  let (width, a) ← a.width d.width
  let (precision, a) ← a.precision d.precision
  match d.letter with
  | none => .error .unfinished
  | some (letter, position) =>
    let (arg, a) ← a.next
    let flags := if width < 0 then { d.flags with leftAligned := true } else d.flags
    let m : Manner := ⟨flags, width.natAbs, precision, letter⟩
    if memoryLimit < m.width then
      let _ ← ({ m with width := 0 } : Manner).write room position arg
      .error .tooLong
    else
      .ok (← m.write room position arg, a)

/-- Writes pieces in order; what is left of unnamed arguments in the end is a fault. -/
def fillPieces (room : Nat) : List Piece → Arguments → Except TemplateFault (List Char)
  | [], a => if a.isLeftOver then .error .tooMany else .ok []
  | .literal c :: ps, a => (c :: ·) <$> fillPieces room ps a
  | .unfinishedName :: _, a =>
    .error (match a.lookup with
      | .nothing => .unnamed
      | _ => .unfinishedName)
  | .directive d :: ps, a => do
    let (cs, a) ← d.write room a
    (cs ++ ·) <$> fillPieces room ps a

/-- The message of a template and its arguments, with so much room for showing these.  Without
arguments a template is a message as it is. -/
def fillIn (room : Nat) (template : String) : Option Arguments → Except TemplateFault String
  | none => .ok template
  | some a => String.ofList <$> fillPieces room (pieces template) a

/-- Text without directives stays as it is, if no argument is left over. -/
theorem fillIn_literals (room : Nat) (cs : List Char) {a : Arguments} (h : a.isLeftOver = false) :
    fillPieces room (cs.map .literal) a = .ok cs := by
  induction cs with
  | nil => simp [fillPieces, h]
  | cons c cs ih => simp [fillPieces, ih, Functor.map, Except.map]

end CoinToss.Log

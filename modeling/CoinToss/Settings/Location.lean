import CoinToss.Settings.Basic

/-!
# CoinToss.Settings.Location

Where a path of the settings leads.

A path is a list of names, absolute or seen from the program's directory.  Empty names and single
points do not count.  Exactly two slashes in front are kept as they are.

* `Location.ofText`, `Location.under` — reading a path and finding it from a directory.
-/

namespace CoinToss

/-- A path. -/
structure Location where
  /-- What is in front of the names: nothing for a path seen from elsewhere. -/
  root : String
  names : List String

namespace Location

/-- The slashes that a path starts with. -/
def rootOf : List Char → String
  | ['/', '/'] => "//"
  | '/' :: '/' :: c :: _ => if c = '/' then "/" else "//"
  | '/' :: _ => "/"
  | _ => ""

/-- The parts of a text between its slashes. -/
def parts : List Char → List (List Char)
  | [] => [[]]
  | c :: cs =>
    if c = '/' then [] :: parts cs
    else
      match parts cs with
      | [] => [[c]]
      | p :: ps => (c :: p) :: ps

/-- The location of a text. -/
def ofText (text : String) : Location where
  root := rootOf text.toList
  names := ((parts text.toList).filter fun p => p != [] && p != ['.']).map String.ofList

/-- Whether a path is seen from nowhere else. -/
def isAbsolute (l : Location) : Bool := l.root != ""

/-- A path seen from a directory. -/
def under (l directory : Location) : Location :=
  if l.isAbsolute then l else ⟨directory.root, directory.names ++ l.names⟩

/-- The text of a location. -/
def text (l : Location) : String :=
  match l.root, l.names with
  | "", [] => "."
  | root, names => root ++ "/".intercalate names

end Location

/-- The locations of the catalog, the database and the log file. -/
def PathSettings.locations (p : PathSettings) (directory : Location) : List Location :=
  [p.catalog, p.database, p.logFile].map fun s => (Location.ofText s).under directory

end CoinToss

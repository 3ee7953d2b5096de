/-!
The values of a TOML document and the tables that it builds. A table remembers how it came to
be, because that decides what may still be added to it: no table is defined twice, an inline
table is complete, and a dotted key adds only to tables that dotted keys make.
-/

namespace Scaffold.Settings

/-- How a table came to be. -/
inductive Origin where
  /-- It has a header of its own. -/
  | header
  /-- The header of a table below it implies it. -/
  | implied
  /-- A dotted key implies it. -/
  | dotted
  /-- It is written in braces and complete. -/
  | inline
deriving DecidableEq, Repr

/-- The values of a document. Of floats and dates only their kind matters. -/
inductive Value where
  | string (text : String)
  | integer (value : Int)
  | float
  | boolean (value : Bool)
  | date
  /-- A number that is too large for anything that reads it. -/
  | oversized
  /-- A list. Headers in double brackets make lists of tables that they may extend. -/
  | array (ofHeaders : Bool) (elements : List Value)
  | table (origin : Origin) (entries : List (String × Value))

mutual

/-- Whether a value can be read to its end, so that it may be ignored. -/
def Value.isReadable : Value → Bool
  | .oversized => false
  | .array _ elements => areReadable elements
  | .table _ entries => entriesAreReadable entries
  | _ => true

/-- Whether all elements of a list can be read. -/
def areReadable : List Value → Bool
  | [] => true
  | element :: rest => element.isReadable && areReadable rest

/-- Whether all entries of a table can be read. -/
def entriesAreReadable : List (String × Value) → Bool
  | [] => true
  | entry :: rest => entry.2.isReadable && entriesAreReadable rest

end

/-- The entries of a table, in the order in which they were defined. -/
abbrev Entries := List (String × Value)

namespace Entries

/-- The entries with a value at a key, in the place of the old one if there was one. -/
def assign (key : String) (value : Value) : Entries → Entries
  | [] => [(key, value)]
  | (other, old) :: rest =>
    if other = key then (key, value) :: rest else (other, old) :: assign key value rest

/-- The entries with one more. A key is not defined twice. -/
def define? (key : String) (value : Value) (entries : Entries) : Option Entries :=
  match entries.lookup key with
  | some _ => none
  | none => some (entries.assign key value)

/-- The entries with a table under its own header. A table that was only implied takes it. -/
def defineHeader? (key : String) (entries : Entries) : Option Entries :=
  match entries.lookup key with
  | none => some (entries.assign key (.table .header []))
  | some (.table .implied inner) => some (entries.assign key (.table .header inner))
  | some _ => none

/-- The entries with one more table in a list that headers make. -/
def appendHeader? (key : String) (entries : Entries) : Option Entries :=
  let fresh := Value.table .header []
  match entries.lookup key with
  | none => some (entries.assign key (.array true [fresh]))
  | some (.array true tables) => some (entries.assign key (.array true (tables ++ [fresh])))
  | some _ => none

/-- Whether a path may go through a table, or end in it. A table that headers imply lets dotted
keys through to the tables inside it, but takes no entry from one. -/
def passes (viaDots ends : Bool) : Origin → Bool
  | .inline => false
  | .header => !viaDots
  | .implied => !(viaDots && ends)
  | .dotted => true

/-- The entries after a change to the table at the end of a path. Tables on the way that are
missing are implied. A list that headers make is entered at its last table, where no dotted key
may end. -/
def alter? (viaDots : Bool) (change : Entries → Option Entries) :
    List String → Entries → Option Entries
  | [], entries => change entries
  | key :: path, entries =>
    match entries.lookup key with
    | none =>
      (alter? viaDots change path []).map fun inner =>
        entries.assign key (.table (if viaDots then .dotted else .implied) inner)
    | some (.table origin inner) =>
      if passes viaDots path.isEmpty origin then
        (alter? viaDots change path inner).map fun changed =>
          entries.assign key (.table origin changed)
      else none
    | some (.array true tables) =>
      match viaDots && path.isEmpty, tables.getLast? with
      | false, some (.table origin inner) =>
        (alter? viaDots change path inner).map fun changed =>
          entries.assign key (.array true (tables.dropLast ++ [.table origin changed]))
      | _, _ => none
    | some _ => none

/-- The entries after the definition of a dotted key. -/
def defineDotted? (value : Value) (entries : Entries) (path : List String) : Option Entries :=
  match path.getLast? with
  | none => none
  | some key => entries.alter? true (define? key value) path.dropLast

end Entries

end Scaffold.Settings

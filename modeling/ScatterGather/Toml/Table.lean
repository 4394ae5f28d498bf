/-!
# Table — values of TOML and how tables grow

A table is a list of entries in the order of their appearance. It remembers how it came to be,
since that decides what may still be added to it.

* `Toml.Value` : a value.
* `Toml.insert?` : a pair with a dotted key.
* `Toml.within?` : a change to the table that a header names.
* `Toml.open?`, `Toml.extend?` : the header of a table, and of one more element of an array.
-/

namespace ScatterGather

namespace Toml

/-- How a table came to be. -/
inductive Origin
  /-- Written in braces, and complete by that. -/
  | inline
  /-- Named by a header of its own. -/
  | header
  /-- On the way to the table of a header. -/
  | implied
  /-- On the way to the name of a dotted key. -/
  | dotted
  deriving DecidableEq

inductive Value
  | string (s : String)
  | integer (i : Int)
  | real
  | boolean (b : Bool)
  | moment
  | array (items : List Value)
  | table (origin : Origin) (entries : List (String × Value))
  /-- Tables whose headers share one name, the last one being open. -/
  | tables (items : List (List (String × Value)))

abbrev Entries := List (String × Value)

namespace Entries

def get? (entries : Entries) (name : String) : Option Value :=
  entries.lookup name

/-- Puts a value in the place of the one that has its name, else at the end. -/
def put (name : String) (value : Value) : Entries → Entries
  | [] => [(name, value)]
  | (other, old) :: rest =>
    if other = name then (name, value) :: rest else (other, old) :: put name value rest

end Entries

/-- A pair behind a dotted path. Only tables that dotted keys made take pairs of dotted keys;
tables implied by headers, and the last table of an array, may stand on the way. -/
def insert? (name : String) (value : Value) : List String → Entries → Option Entries
  | [], entries =>
    match entries.get? name with
    | some _ => none
    | none => some (entries.put name value)
  | part :: path, entries =>
    match entries.get? part with
    | none => (insert? name value path []).map fun inner => entries.put part (.table .dotted inner)
    | some (.table .dotted inner) =>
      (insert? name value path inner).map fun inner => entries.put part (.table .dotted inner)
    | some (.table .implied inner) =>
      if path.isEmpty then none
      else (insert? name value path inner).map fun inner => entries.put part (.table .implied inner)
    | some (.tables items) =>
      if path.isEmpty then none
      else
        (insert? name value path (items.getLastD [])).map fun inner =>
          entries.put part (.tables (items.dropLast ++ [inner]))
    | some _ => none

/-- Changes the table that a header leads to: tables that are absent on the way come to be, an
array is entered at its last table, and a table in braces is closed. -/
def within? (change : Entries → Option Entries) : List String → Entries → Option Entries
  | [], entries => change entries
  | part :: path, entries =>
    match entries.get? part with
    | none => (within? change path []).map fun inner => entries.put part (.table .implied inner)
    | some (.table origin inner) =>
      if origin = .inline then none
      else (within? change path inner).map fun inner => entries.put part (.table origin inner)
    | some (.tables items) =>
      (within? change path (items.getLastD [])).map fun inner =>
        entries.put part (.tables (items.dropLast ++ [inner]))
    | some _ => none

/-- The header of a table, which may so far have been implied. -/
def open? (name : String) (entries : Entries) : Option Entries :=
  match entries.get? name with
  | none => some (entries.put name (.table .header []))
  | some (.table .implied inner) => some (entries.put name (.table .header inner))
  | some _ => none

/-- The header of one more table of an array. -/
def extend? (name : String) (entries : Entries) : Option Entries :=
  match entries.get? name with
  | none => some (entries.put name (.tables [[]]))
  | some (.tables items) => some (entries.put name (.tables (items ++ [[]])))
  | some _ => none

end Toml

end ScatterGather

/-!
# TOML values and tables

A table may be written in pieces: by its own header, by the headers of tables inside of it, and by
dotted names. What may still be added to a table depends on how it came about, which is its
`Origin`.

* `Node.add?` puts a value under a dotted name into a table.
* `Node.open?` and `Node.append?` do what the two kinds of headers ask for.
-/

namespace SessionCache.Toml

/-- How a table was made. -/
inductive Origin where
  /-- By its own header; the document itself counts as such. -/
  | header
  /-- By the header of a table inside of it. -/
  | path
  /-- By a dotted key. -/
  | dotted
  /-- Inline; nothing can be added to it. -/
  | inline
  deriving DecidableEq, Repr

/-- A TOML value. -/
inductive Node where
  | string (s : String)
  | integer (n : Int)
  | float
  | boolean (b : Bool)
  | time
  | array (items : List Node)
  | table (origin : Origin) (entries : List (String × Node))
  /-- An array of tables, made by `[[name]]`. -/
  | tables (elements : List (List (String × Node)))
  deriving Inhabited

/-- The entries of a table, in the order of the document. -/
abbrev Entries := List (String × Node)

namespace Node

/-- Changes the node under `name`, or adds one. -/
def alter? (name : String) (f : Option Node → Option Node) : Entries → Option Entries
  | [] => (f none).map fun node => [(name, node)]
  | (other, node) :: rest =>
    if other = name then (f (some node)).map fun node => (other, node) :: rest
    else (alter? name f rest).map ((other, node) :: ·)

/-- Changes the last of `tables`. -/
def alterLast? (f : Entries → Option Entries) : List Entries → Option (List Entries)
  | [] => none
  | [last] => (f last).map ([·])
  | first :: rest => (alterLast? f rest).map (first :: ·)

/-- Changes the table that names lead to, given what the way starts from. Tables that are missing
on the way are made. With `dotted`, the way may not lead through a table with a header of its
own. -/
def within? (dotted : Bool) (change : Origin → Entries → Option Entries) :
    List String → Origin → Entries → Option Entries
  | [], origin, entries => change origin entries
  | name :: names, _, entries =>
    alter? name (fun
      | none =>
        let origin := if dotted then Origin.dotted else .path
        (within? dotted change names origin []).map (table origin)
      | some (table origin inner) =>
        if origin = .inline ∨ (dotted ∧ origin = .header) then none
        else (within? dotted change names origin inner).map (table origin)
      | some (tables elements) =>
        (alterLast? (within? dotted change names .header) elements).map tables
      | some _ => none) entries

/-- Adds a node under `name`, which must be new. -/
def insert? (name : String) (node : Node) : Entries → Option Entries :=
  alter? name fun old => if old.isSome then none else some node

/-- Adds a node under a dotted key. The tables on its path are made by dotted keys, and the last of
them by dotted keys only. -/
def add? (path : List String) (name : String) (node : Node) (origin : Origin) (entries : Entries) :
    Option Entries :=
  within? true (fun origin entries =>
    if (origin = .dotted) ↔ path.isEmpty then none else insert? name node entries)
    path origin entries

/-- Opens the table of `[path.name]`, which must be new or made as `.path` only. -/
def open? (path : List String) (name : String) (entries : Entries) : Option Entries :=
  within? false (fun _ => alter? name fun
    | none => some (table .header [])
    | some (table .path inner) => some (table .header inner)
    | some _ => none) path .header entries

/-- Appends a table for `[[path.name]]`. -/
def append? (path : List String) (name : String) (entries : Entries) : Option Entries :=
  within? false (fun _ => alter? name fun
    | none => some (tables [[]])
    | some (tables elements) => some (tables (elements ++ [[]]))
    | some _ => none) path .header entries

/-- The items of an array, or of an array of tables. -/
def items? : Node → Option (List Node)
  | array items => some items
  | tables elements => some (elements.map (table .header))
  | _ => none

end Node

end SessionCache.Toml

import FiberPrograms.Binary64

/-!
# TOML documents

What a TOML document says, once it has been read: a table of values. How a table came about no
longer matters then, whether by a header, by dotted keys or in braces; while a document is read
it does, since it decides what may still be added to the table.

## Main definitions

* `Toml`: values
* `Toml.Item`, `Toml.Origin`: values of a document that is being read
-/

namespace FiberPrograms

/-- TOML values. -/
inductive Toml where
  | str (s : String)
  | int (n : Int)
  | float (x : Binary64)
  | bool (b : Bool)
  /-- A date, a time, or both, as it is written. -/
  | date (text : String)
  | arr (items : List Toml)
  | table (entries : List (String × Toml))
deriving Inhabited

namespace Toml

/-- How a table came about. -/
inductive Origin where
  /-- By a header of its own. -/
  | header
  /-- By the header of a table inside it. -/
  | implied
  /-- By a dotted key. -/
  | dotted
deriving DecidableEq

/-- A value of a document that is being read. -/
inductive Item where
  /-- A value to which nothing can be added. -/
  | value (v : Toml)
  | table (origin : Origin) (entries : List (String × Item))
  /-- An array of tables, of which the last can still be added to. -/
  | tables (earlier : List (List (String × Item))) (last : List (String × Item))

mutual

/-- The value that an item has become when the document has been read. -/
def Item.close : Item → Toml
  | .value v => v
  | .table _ entries => .table (closeEntries entries)
  | .tables earlier last => .arr (closeTables earlier ++ [.table (closeEntries last)])

/-- The values that entries have become. -/
def closeEntries : List (String × Item) → List (String × Toml)
  | [] => []
  | (key, item) :: rest => (key, item.close) :: closeEntries rest

/-- The values that tables have become. -/
def closeTables : List (List (String × Item)) → List Toml
  | [] => []
  | entries :: rest => .table (closeEntries entries) :: closeTables rest

end

/-- The entries of a table that is being read. -/
abbrev Entries : Type := List (String × Item)

/-- Put an item under a key, in the place of whatever was there. -/
def Entries.put (key : String) (item : Item) : Entries → Entries
  | [] => [(key, item)]
  | (name, other) :: rest =>
    if name == key then (key, item) :: rest else (name, other) :: Entries.put key item rest

/-- Change a table within a table. Tables on the way that are missing come about; the last one of
an array of tables stands for the array. With `dotted` the path is that of a dotted key, which
cannot enter a table that has a header of its own. -/
def Entries.within (dotted : Bool) (path : List String)
    (change : Option Origin → Entries → Option Entries) (origin : Option Origin)
    (entries : Entries) : Option Entries :=
  match path with
  | [] => change origin entries
  | key :: rest =>
    match entries.lookup key with
    | none =>
      let origin := if dotted then .dotted else .implied
      (Entries.within dotted rest change (some origin) []).map fun inner =>
        entries.put key (.table origin inner)
    | some (.value _) => none
    | some (.table origin inner) =>
      if dotted && origin == .header then none
      else
        (Entries.within dotted rest change (some origin) inner).map fun inner =>
          entries.put key (.table origin inner)
    | some (.tables earlier last) =>
      (Entries.within dotted rest change (some .header) last).map fun last =>
        entries.put key (.tables earlier last)

/-- Entries without that of a key. -/
def Entries.without (key : String) (entries : Entries) : Entries :=
  entries.filter (·.1 != key)

/-- Open the table of a header. A table has one header only, and none if dotted keys made it. If
the headers of tables inside it have come first, it takes its place among the others only now. -/
def Entries.openTable (path : List String) (key : String) (entries : Entries) : Option Entries :=
  entries.within false path
    (fun _ parent =>
      match parent.lookup key with
      | none => some (parent.put key (.table .header []))
      | some (.table .implied inner) =>
        some ((parent.without key).put key (.table .header inner))
      | _ => none)
    none

/-- Open another table of an array of tables. -/
def Entries.openElement (path : List String) (key : String) (entries : Entries) :
    Option Entries :=
  entries.within false path
    (fun _ parent =>
      match parent.lookup key with
      | none => some (parent.put key (.tables [] []))
      | some (.tables earlier last) => some (parent.put key (.tables (earlier ++ [last]) []))
      | _ => none)
    none

/-- Add an entry under a dotted key to a table. The tables on the way have to be made by dotted
keys, and there must not be such an entry yet. -/
def Entries.add (path : List String) (key : String) (value : Toml) (entries : Entries) :
    Option Entries :=
  entries.within true path
    (fun origin inner =>
      if (origin == some .dotted) == path.isEmpty then none
      else
        match inner.lookup key with
        | none => some (inner ++ [(key, .value value)])
        | some _ => none)
    none

end Toml

end FiberPrograms

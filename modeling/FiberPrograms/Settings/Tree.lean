import FiberPrograms.Binary64
import FiberPrograms.Json.Basic
import FiberPrograms.Settings.Path
import FiberPrograms.Text.Case
import FiberPrograms.Toml.Basic

/-!
# Layers of settings

Every source of settings is a tree of values under names. The trees are laid over one another,
later ones over earlier ones: tables are merged name by name, and anything else replaces what was
there. Names are in lower case, whatever their case in the source; only inside a list, which is
never merged, they stay as they are. Values know where they come from, as long as they are no
tables.

## Main definitions

* `Setting`: trees of values under names
* `Setting.put`, `Setting.putAt`: lay a value over a tree, under a name or at a path
* `Setting.overlay`: lay a whole source over a tree
-/

namespace FiberPrograms

/-- Values without others inside. -/
inductive Atom where
  | none
  | bool (b : Bool)
  | int (n : Int)
  | float (x : Binary64)
  | str (s : String)
deriving DecidableEq, Repr

/-- Trees of values under names. -/
inductive Setting where
  | atom (origin : Option String) (value : Atom)
  | list (origin : Option String) (items : List Setting)
  | table (origin : Option String) (entries : List (String × Setting))
deriving Inhabited

namespace Setting

/-- A table without entries. -/
def empty : Setting := .table none []

/-- The entries of a table; anything else has none. -/
def entries : Setting → List (String × Setting)
  | table _ entries => entries
  | _ => []

/-- Entries in which a name stands for the given value. -/
def replace (name : String) (value : Setting) :
    List (String × Setting) → List (String × Setting)
  | [] => [(name, value)]
  | (other, old) :: rest =>
    if other == name then (name, value) :: rest else (other, old) :: replace name value rest

/-- The tree with its entries replaced. What was no table becomes one. -/
def withEntries (root : Setting) (entries : List (String × Setting)) : Setting :=
  match root with
  | table origin _ => table origin entries
  | _ => table none entries

mutual

/-- Lay a value over the entry of a name. A table is merged into what is there; if that is no
table, it gives way as soon as there is an entry to merge. -/
def put (root : Setting) (name : String) (value : Setting) : Setting :=
  let name := Text.lower name
  match value with
  | table _ incoming =>
    let target := (root.entries.lookup name).getD empty
    root.withEntries (replace name (putAll incoming target) root.entries)
  | value => root.withEntries (replace name value root.entries)

/-- Lay entries over a tree, one after the other. -/
def putAll (incoming : List (String × Setting)) (root : Setting) : Setting :=
  match incoming with
  | [] => root
  | (name, value) :: rest => putAll rest (put root name value)

end

/-- The items of a list; anything else has none. -/
def items : Setting → List Setting
  | list _ items => items
  | _ => []

/-- The list with its items replaced. What was no list becomes one. -/
def withItems (root : Setting) (items : List Setting) : Setting :=
  match root with
  | list origin _ => list origin items
  | _ => list none items

/-- Lay a value over what stands at a path. Whatever is in the way gives way, and a list grows as
far as it has to. -/
def putAt (root : Setting) (value : Setting) : SettingPath → Except Fault Setting
  | [] => .ok value
  | [.name name] => .ok (root.put name value)
  | .name name :: rest => do
    let name := Text.lower name
    let inner ← putAt ((root.entries.lookup name).getD (atom none .none)) value rest
    return root.withEntries (replace name inner root.entries)
  | .index n :: rest => do
    let position ← positionIn root.items.length n
    let items := root.items
      ++ List.replicate (position + 1 - root.items.length) (atom none .none)
    let inner ← putAt (items.getD position (atom none .none)) value rest
    return root.withItems (items.set position inner)

/-- Lay a whole source over a tree. Names in the source stand for paths. -/
def overlay (source : List (String × Setting)) (root : Setting) : Except Fault Setting :=
  source.foldlM (fun root (name, value) => root.putAt value (SettingPath.ofName name)) root

mutual

/-- The tree of a TOML value. Dates are text. -/
def ofToml (origin : String) : Toml → Setting
  | .str s => atom origin (.str s)
  | .int n => atom origin (.int n)
  | .float x => atom origin (.float x)
  | .bool b => atom origin (.bool b)
  | .date text => atom origin (.str text)
  | .arr items => list origin (ofTomlItems origin items)
  | .table entries => table origin (ofTomlEntries origin entries)

/-- The trees of TOML values. -/
def ofTomlItems (origin : String) : List Toml → List Setting
  | [] => []
  | item :: rest => ofToml origin item :: ofTomlItems origin rest

/-- The trees of the values of a TOML table. -/
def ofTomlEntries (origin : String) : List (String × Toml) → List (String × Setting)
  | [] => []
  | (name, value) :: rest => (name, ofToml origin value) :: ofTomlEntries origin rest

end

/-- The atom of a JSON integer, if there is one. What is out of range is kept as near as a binary
number is. -/
def ofJsonInt? (n : Int) : Option Atom :=
  if Int64.minValue.toInt ≤ n ∧ n ≤ Int64.maxValue.toInt then some (.int n)
  else (Binary64.ofDecimalInSteps? (n < 0) n.natAbs [] 0).map .float

mutual

/-- The tree of a JSON document, if all its numbers are within bounds. -/
def ofJson? (origin : String) : Json → Option Setting
  | .null => some (atom origin .none)
  | .bool b => some (atom origin (.bool b))
  | .int n => (ofJsonInt? n).map (atom origin)
  | .decimal n =>
    (Binary64.ofDecimalInSteps? n.negative n.whole n.places n.exponent).map fun x =>
      atom origin (.float x)
  | .str s => some (atom origin (.str s))
  | .arr items => (ofJsonItems? origin items).map (list origin)
  | .obj members => (ofJsonMembers? origin members).map (table origin)

/-- The trees of JSON documents. -/
def ofJsonItems? (origin : String) : List Json → Option (List Setting)
  | [] => some []
  | item :: rest => do return (← ofJson? origin item) :: (← ofJsonItems? origin rest)

/-- The trees of the members of a JSON object. A later member of the same name hides an earlier
one. -/
def ofJsonMembers? (origin : String) : List (String × Json) → Option (List (String × Setting))
  | [] => some []
  | (name, value) :: rest => do
    let value ← ofJson? origin value
    let others ← ofJsonMembers? origin rest
    return if rest.any (·.1 == name) then others else (name, value) :: others

end

end Setting

end FiberPrograms

import FiberPrograms.Toml.Parser

/-!
# Dates in disguise

A table whose first key is the mark of a date stands for that date, which is the text under the
mark; other keys of such a table do not matter. The text is read as a date in a document is.

## Main definitions

* `Toml.dateMark`: the mark
* `Toml.dateText?`: the date that a text stands for
* `Toml.dated?`: a value with all such tables replaced
-/

namespace FiberPrograms.Toml

/-- The first key of a table that stands for a date. -/
def dateMark : String := "$__toml_private_datetime"

/-- The date, the time, or both, that a text stands for as a whole, in its usual form. -/
def dateText? (text : String) : Option String :=
  match moment? text.toList with
  | some (text, []) => some text
  | _ => none

mutual

/-- The value in which tables that stand for dates are replaced by them; nothing if such a table
holds no date. -/
def dated? : Toml → Option Toml
  | .arr items => (datedItems? items).map .arr
  | .table entries =>
    match entries with
    | [] => some (.table [])
    | (key, value) :: rest =>
      if key == dateMark then
        match value with
        | .str text => (dateText? text).map .date
        | _ => none
      else do
        let value ← dated? value
        let others ← datedEntries? rest
        some (.table ((key, value) :: others))
  | value => some value

/-- The values of an array, each with its dates. -/
def datedItems? : List Toml → Option (List Toml)
  | [] => some []
  | item :: rest => do
    let item ← dated? item
    let others ← datedItems? rest
    some (item :: others)

/-- The entries of a table, each with its dates. -/
def datedEntries? : List (String × Toml) → Option (List (String × Toml))
  | [] => some []
  | (key, value) :: rest => do
    let value ← dated? value
    let others ← datedEntries? rest
    some ((key, value) :: others)

end

end FiberPrograms.Toml

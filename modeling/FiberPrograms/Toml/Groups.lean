import FiberPrograms.Toml.Basic
import FiberPrograms.Toml.Quoted

/-!
# TOML documents of groups

The simplest documents are groups of entries, each entry a string or a number under a key. They are
written line by line: a header for each group, then its entries, and an empty line before the next
group. Numbers are written as signed ones, so large ones cannot be. Names are written as they are.

## Main definitions

* `Toml.Field`, `Toml.Groups`: entries and groups of them
* `Toml.ofGroups`: the document that groups are
* `Toml.Groups.plain`, `Toml.Groups.fit`: whether their names and numbers can be written
* `Toml.print?`: groups in writing
-/

namespace FiberPrograms.Toml

/-- What stands under a key in a group. -/
inductive Field where
  | str (s : String)
  | nat (n : Nat)
deriving DecidableEq, Repr

/-- Groups under their names, each with its entries under their keys. -/
abbrev Groups : Type := List (String × List (String × Field))

/-- The value that stands under a key. -/
def Field.toToml : Field → Toml
  | str s => .str s
  | nat n => .int n

/-- The entries of a table that a group is. -/
def ofFields (fields : List (String × Field)) : List (String × Toml) :=
  fields.map fun entry => (entry.1, entry.2.toToml)

/-- The document that groups are. -/
def ofGroups (groups : Groups) : List (String × Toml) :=
  groups.map fun group => (group.1, .table (ofFields group.2))

/-- Whether names can be written as they are and are read alike everywhere: none comes up twice, and
all are in lower case. -/
def arePlain (names : List String) : Bool :=
  names.Nodup && names.all fun name =>
    !name.toList.isEmpty && name.toList.all fun c => c.isLower || c == '_'

/-- Whether the names of the groups and of what stands in them are plain. -/
def Groups.plain (groups : Groups) : Bool :=
  arePlain (groups.map Prod.fst) && groups.all fun group => arePlain (group.2.map Prod.fst)

/-- The bound of the numbers that can be written: they have 63 bits. -/
def signedBound : Nat := 0x8000000000000000

/-- What is said of a number that is too large to be written. -/
def outOfRange : String := "out-of-range value for u64 type"

/-- Whether what stands under a key can be written. -/
def Field.fits : Field → Bool
  | str _ => true
  | nat n => n < signedBound

/-- Whether everything in the groups can be written. -/
def Groups.fit (groups : Groups) : Bool :=
  groups.all fun group => group.2.all fun entry => entry.2.fits

/-- The characters of what stands under a key. -/
def Field.chars : Field → List Char
  | str s => quoteChars s.toList
  | nat n => (toString n).toList

/-- The lines of entries, in front of the lines that follow. -/
def fieldLines : List (String × Field) → List Char → List Char
  | [], rest => rest
  | (key, field) :: fields, rest =>
    key.toList ++ ' ' :: '=' :: ' ' :: (field.chars ++ '\n' :: fieldLines fields rest)

/-- The lines of a group, in front of the lines that follow. -/
def groupLines (name : String) (fields : List (String × Field)) (rest : List Char) : List Char :=
  '[' :: (name.toList ++ ']' :: '\n' :: fieldLines fields rest)

/-- The lines of groups. -/
def lines : Groups → List Char
  | [] => []
  | [(name, fields)] => groupLines name fields []
  | (name, fields) :: next :: groups => groupLines name fields ('\n' :: lines (next :: groups))

/-- Groups in writing. -/
def print? (groups : Groups) : Except String String :=
  if groups.fit then .ok (String.ofList (lines groups)) else .error outOfRange

end FiberPrograms.Toml

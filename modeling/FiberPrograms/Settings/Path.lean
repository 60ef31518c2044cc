import FiberPrograms.Fault

/-!
# Paths to settings

A path leads from the settings as a whole to one of them: into a table by a name, into a list by a
position, which is counted from the end if it is negative. In writing, `a.b[0]` stands for the
first item of the list `b` in the table `a`.

## Main definitions

* `SettingStep`, `SettingPath`: paths
* `SettingPath.parse?`: the path that a text stands for
* `positionIn`: where in a list a position leads
-/

namespace FiberPrograms

/-- The steps of a path. -/
inductive SettingStep where
  /-- Into a table. -/
  | name (name : String)
  /-- Into a list. -/
  | index (n : Int)
deriving DecidableEq, Repr

/-- Paths from the settings as a whole. -/
abbrev SettingPath : Type := List SettingStep

namespace SettingPath

/-- Whether a character may stand in a name in a path. -/
def isNameChar (c : Char) : Bool :=
  c.isAlphanum || c == ' ' || c == '_' || c == '-'

/-- Characters without the blanks in front that may stand around a position. -/
def skipBlanks (cs : List Char) : List Char :=
  cs.dropWhile fun c => c == ' ' || c == '\t'

/-- A name in front, of at least one character. -/
def name? (cs : List Char) : Option (SettingStep × List Char) :=
  match cs.takeWhile isNameChar with
  | [] => none
  | name => some (.name (String.ofList name), cs.dropWhile isNameChar)

/-- A position in front, and the bracket behind it. -/
def index? (cs : List Char) : Option (SettingStep × List Char) :=
  let cs := skipBlanks cs
  let (negative, cs) : Bool × List Char :=
    match cs with
    | '-' :: rest => (true, rest)
    | cs => (false, cs)
  let digits := cs.takeWhile Char.isDigit
  let magnitude : Int := (digits.foldl (fun n c => n * 10 + (c.toNat - '0'.toNat)) 0 : Nat)
  let n := if negative then -magnitude else magnitude
  match skipBlanks (cs.dropWhile Char.isDigit) with
  | ']' :: rest =>
    if digits.isEmpty || n < Int64.minValue.toInt || Int64.maxValue.toInt < n then none
    else some (.index n, rest)
  | _ => none

/-- The steps behind the first name, at most `fuel` of them. -/
def steps? : (fuel : Nat) → List Char → Option SettingPath
  | _, [] => some []
  | fuel + 1, '.' :: rest => do
    let (step, rest) ← name? rest
    return step :: (← steps? fuel rest)
  | fuel + 1, '[' :: rest => do
    let (step, rest) ← index? rest
    return step :: (← steps? fuel rest)
  | _, _ => none

/-- The path that a text stands for, if it has that form. -/
def parse? (text : String) : Option SettingPath := do
  let (first, rest) ← name? text.toList
  return first :: (← steps? rest.length rest)

/-- The path that a name in a source stands for: the name itself if it has no such form. -/
def ofName (name : String) : SettingPath :=
  (parse? name).getD [.name name]

end SettingPath

/-- How many items a list can have at most. -/
def maxItems : Nat := 96076792050570581

/-- Where in a list of the given length a position leads, be it behind the end. A position before
the beginning is a fault, and so is one that no list can have. -/
def positionIn (length : Nat) (index : Int) : Except Fault Nat :=
  if 0 ≤ index then
    if index.toNat < maxItems then .ok index.toNat else .error (.text "capacity overflow")
  else if index.natAbs ≤ length then .ok (length - index.natAbs)
  else .error (.text "attempt to subtract with overflow")

end FiberPrograms

/-!
# Patterns

A pattern describes texts by what stands in them one after the other: characters, any of a set of
characters, edges between characters, alternatives, and any of these again and again. A part in
parentheses is a group, which may have a name. In which way things are meant depends on modes,
which a pattern can change as it goes along, up to the end of the group.

## Main definitions

* `Pattern`: patterns
* `CharSet`: what stands in brackets for one character
* `Pattern.Modes`: the modes in which a part of a pattern is meant
* `Pattern.height`: how deep a pattern is nested
* `Pattern.groupNames`: the names of the groups of a pattern
-/

namespace FiberPrograms

namespace Pattern

/-- The modes that a pattern can change. -/
inductive Mode where
  /-- Letters stand for letters of either case. -/
  | caseless
  /-- Lines have edges of their own. -/
  | multiline
  /-- Any character may be a line break too. -/
  | dotAll
  /-- Repetitions take as little as they can. -/
  | greedless
  /-- Characters are meant, of all scripts, and not bytes. -/
  | scripts
  /-- A carriage return may be part of a line break. -/
  | carriage
  /-- Blanks and comments in the pattern stand for nothing. -/
  | spaced
deriving DecidableEq, Repr

/-- The mode that is changed under a letter. -/
def Mode.ofChar? : Char → Option Mode
  | 'i' => some caseless
  | 'm' => some multiline
  | 's' => some dotAll
  | 'U' => some greedless
  | 'u' => some scripts
  | 'R' => some carriage
  | 'x' => some spaced
  | _ => none

/-- Modes to be changed, and whether each is on from then on. -/
abbrev ModeChange : Type := List (Mode × Bool)

/-- The modes in which a part of a pattern is meant, as far as they decide whether it can be
read and used. -/
structure Modes where
  caseless : Bool := false
  scripts : Bool := true
  spaced : Bool := false
deriving DecidableEq, Repr

/-- The modes after one has been changed. -/
def Modes.set (modes : Modes) (mode : Mode) (on : Bool) : Modes :=
  match mode with
  | .caseless => { modes with caseless := on }
  | .scripts => { modes with scripts := on }
  | .spaced => { modes with spaced := on }
  | _ => modes

/-- The modes after a change. -/
def Modes.apply (modes : Modes) (change : ModeChange) : Modes :=
  change.foldl (fun modes (mode, on) => modes.set mode on) modes

/-- A character that stands for itself; `byte` if it is written as the number of a byte. -/
structure Literal where
  char : Char
  byte : Bool := false
deriving DecidableEq, Repr

/-- Edges between characters. -/
inductive Edge where
  | lineStart
  | lineEnd
  | textStart
  | textEnd
  /-- Either end of a word. -/
  | word
  /-- Neither end of a word. -/
  | noWord
  | wordStart
  | wordEnd
deriving DecidableEq, Repr

/-- Whether an edge is told by where words start and end. -/
def Edge.isOfWord : Edge → Bool
  | word | noWord | wordStart | wordEnd => true
  | _ => false

/-- Sets of characters that one letter stands for. -/
inductive Shorthand where
  | digit
  | space
  | word
deriving DecidableEq, Repr

/-- Operators between sets. -/
inductive SetOperator where
  | intersection
  | difference
  | symmetricDifference
deriving DecidableEq, Repr

end Pattern

open Pattern (Literal Edge Shorthand SetOperator ModeChange)

/-- What stands in brackets: a set of characters. -/
inductive CharSet where
  | literal (l : Literal)
  | range (first last : Literal)
  /-- A set that has a name, or all but that set. -/
  | named (negated : Bool) (name : String)
  | shorthand (negated : Bool) (kind : Shorthand)
  /-- Brackets inside of brackets. -/
  | nested (negated : Bool) (inner : CharSet)
  | union (sets : List CharSet)
  | combined (operator : SetOperator) (left right : CharSet)

/-- Patterns. -/
inductive Pattern where
  | literal (l : Literal)
  /-- Any character. -/
  | any
  | edge (edge : Edge)
  | shorthand (negated : Bool) (kind : Shorthand)
  | brackets (negated : Bool) (inner : CharSet)
  /-- A change of modes up to the end of the group. -/
  | change (change : ModeChange)
  | repeated (inner : Pattern)
  | group (name : Option String) (change : ModeChange) (inner : Pattern)
  | sequence (parts : List Pattern)
  | alternatives (branches : List Pattern)

namespace CharSet

/-- Several sets in one; a set alone is itself. -/
def ofList : List CharSet → CharSet
  | [set] => set
  | sets => union sets

mutual

/-- How deep a set is nested. -/
def height : CharSet → Nat
  | nested _ inner => inner.height + 1
  | union [] => 0
  | union (set :: sets) => max set.height (heights sets) + 1
  | combined _ left right => max left.height right.height + 1
  | _ => 0

/-- How deep the deepest of some sets is nested. -/
def heights : List CharSet → Nat
  | [] => 0
  | set :: sets => max set.height (heights sets)

end

end CharSet

namespace Pattern

/-- Parts one after the other; a part alone is itself. -/
def ofParts : List Pattern → Pattern
  | [part] => part
  | parts => sequence parts

/-- Some branches; a branch alone is itself. -/
def ofBranches : List Pattern → Pattern
  | [branch] => branch
  | branches => alternatives branches

mutual

/-- How deep a pattern is nested. -/
def height : Pattern → Nat
  | brackets _ inner => inner.height + 1
  | repeated inner => inner.height + 1
  | group _ _ inner => inner.height + 1
  | sequence [] => 0
  | sequence (part :: parts) => max part.height (heights parts) + 1
  | alternatives branches => heights branches + 1
  | _ => 0

/-- How deep the deepest of some patterns is nested. -/
def heights : List Pattern → Nat
  | [] => 0
  | part :: parts => max part.height (heights parts)

end

mutual

/-- The names of the groups of a pattern. -/
def groupNames : Pattern → List String
  | repeated inner => inner.groupNames
  | group name _ inner => name.toList ++ inner.groupNames
  | sequence parts => allGroupNames parts
  | alternatives branches => allGroupNames branches
  | _ => []

/-- The names of the groups of some patterns. -/
def allGroupNames : List Pattern → List String
  | [] => []
  | part :: parts => part.groupNames ++ allGroupNames parts

end

end Pattern

end FiberPrograms

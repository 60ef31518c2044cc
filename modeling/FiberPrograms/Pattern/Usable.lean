import FiberPrograms.Pattern.Parser

/-!
# Patterns that can be used

Not every pattern can be looked for in a text. There are no tables of what is a letter, a digit or
a blank in all scripts, and of which letters are the same but for their case; so these things are
only known for bytes, where they go by the first 128 characters. And where bytes are meant, no
part of the pattern may stand for a byte that is no character by itself.

Besides, groups must have names of their own, and a pattern must not be nested too deep.

## Main definitions

* `Pattern.after?`: the modes after a part of a pattern, if the part can be used
* `Pattern.isUsable`: whether a text is a pattern that can be used
-/

namespace FiberPrograms

open Pattern (Modes Literal)

/-- Whether a literal is among the first 128 characters. -/
def Pattern.Literal.isAscii (l : Literal) : Bool :=
  l.char.toNat < 128

namespace CharSet

mutual

/-- Whether a set can be used where it stands in the pattern. -/
def isUsable (modes : Modes) : CharSet → Bool
  | literal l => if modes.scripts then !modes.caseless else l.isAscii
  | range first last =>
    if modes.scripts then !modes.caseless else first.isAscii && last.isAscii
  | named negated _ => if modes.scripts then !modes.caseless else !negated
  | shorthand negated _ => !modes.scripts && !negated
  | nested negated inner => (modes.scripts || !negated) && inner.isUsable modes
  | union sets => areUsable modes sets
  | combined _ left right => left.isUsable modes && right.isUsable modes

/-- Whether some sets can all be used. -/
def areUsable (modes : Modes) : List CharSet → Bool
  | [] => true
  | set :: sets => set.isUsable modes && areUsable modes sets

end

end CharSet

namespace Pattern

mutual

/-- The modes after a part of a pattern, if the part can be used. -/
def after? (modes : Modes) : Pattern → Option Modes
  | literal l =>
    let known := if modes.scripts then !modes.caseless else l.isAscii || !l.byte
    if known then some modes else none
  | any => if modes.scripts then some modes else none
  | edge e => if modes.scripts && e.isOfWord then none else some modes
  | shorthand negated _ => if modes.scripts || negated then none else some modes
  | brackets negated inner =>
    if (modes.scripts || !negated) && inner.isUsable modes then some modes else none
  | change new => some (modes.apply new)
  | repeated inner => inner.after? modes
  | group _ new inner => (inner.after? (modes.apply new)).map fun _ => modes
  | sequence parts => afterAll? modes parts
  | alternatives branches => afterAll? modes branches

/-- The modes after some parts, if all can be used. -/
def afterAll? (modes : Modes) : List Pattern → Option Modes
  | [] => some modes
  | part :: parts =>
    match part.after? modes with
    | some modes => afterAll? modes parts
    | none => none

end

/-- How deep patterns may be nested. -/
def heightLimit : Nat := 250

/-- Whether a text is a pattern that can be used. -/
def isUsable (text : List Char) : Bool :=
  match parse? text with
  | none => false
  | some pattern =>
    decide (pattern.height ≤ heightLimit) && decide pattern.groupNames.Nodup
      && (pattern.after? {}).isSome

end Pattern

end FiberPrograms

/-!
# Numbers of characters

Characters are told by their numbers. A class of characters is a list of ranges of numbers, from
the lowest to the highest; blanks are such a class. A number can be written in base sixteen.

## Main definitions

* `Text.Ranges`, `Text.Ranges.contains`: classes of characters
* `Text.Ranges.areApart`: whether the ranges of a class are in order, with gaps between them
* `Text.isBlank`: whether a character is a blank of any kind, line breaks included
* `Text.trimEnd`, `Text.trim`: characters without the blanks at their end, or at both ends
* `Text.hexValue?`: the value of a digit in base sixteen
* `Text.charOf?`: the character of a number
-/

namespace FiberPrograms.Text

/-! ## Classes -/

/-- Classes of characters: the first and the last number of each range. -/
abbrev Ranges : Type := List (Nat × Nat)

namespace Ranges

/-- Whether a number is in one of the ranges. The search ends at the first range beyond it. -/
def contains (n : Nat) : Ranges → Bool
  | [] => false
  | (first, last) :: rest => first ≤ n && (n ≤ last || contains n rest)

/-- Whether the ranges are in order, with gaps between them. -/
def areApart : Ranges → Bool
  | [] => true
  | [range] => range.1 ≤ range.2
  | range :: next :: rest =>
    range.1 ≤ range.2 && range.2 + 1 < next.1 && areApart (next :: rest)

end Ranges

/-! ## Blanks -/

/-- The ranges of blanks. -/
def blankRanges : Ranges := [
  (0x9, 0xd), (0x20, 0x20), (0x85, 0x85), (0xa0, 0xa0), (0x1680, 0x1680), (0x2000, 0x200a),
  (0x2028, 0x2029), (0x202f, 0x202f), (0x205f, 0x205f), (0x3000, 0x3000)
]

example : blankRanges.areApart = true := by decide +kernel

/-- Whether a character is a blank of any kind. -/
def isBlank (c : Char) : Bool :=
  blankRanges.contains c.toNat

/-- Characters without the blanks at their end. -/
def trimEnd (cs : List Char) : List Char :=
  (cs.reverse.dropWhile isBlank).reverse

/-- Characters without the blanks at both ends. -/
def trim (cs : List Char) : List Char :=
  trimEnd (cs.dropWhile isBlank)

/-! ## Base sixteen -/

/-- The value of a digit in base sixteen. -/
def hexValue? (c : Char) : Option Nat :=
  if '0' ≤ c ∧ c ≤ '9' then some (c.toNat - '0'.toNat)
  else if 'a' ≤ c ∧ c ≤ 'f' then some (c.toNat - 'a'.toNat + 10)
  else if 'A' ≤ c ∧ c ≤ 'F' then some (c.toNat - 'A'.toNat + 10)
  else none

/-- The character of a number. Some numbers stand for halves of characters, and have none. -/
def charOf? (code : Nat) : Option Char :=
  if 0xd800 ≤ code && code < 0xe000 || 0x110000 ≤ code then none else some (Char.ofNat code)

end FiberPrograms.Text

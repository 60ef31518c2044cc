import FiberPrograms.Pattern.Basic
import FiberPrograms.Text.Hex
import FiberPrograms.Text.Letter

/-!
# Reading patterns

A pattern is read here that stands in a list of conditions, where a closing brace, a comma or an
equals sign would end it. So whatever takes a closing brace is no pattern: repetitions with a
count, numbers and names in braces.

What stands in brackets is a list of characters, ranges and further sets, with operators between
such lists, which are applied from left to right. A hyphen stands for itself at the beginning and
before the closing bracket, and a closing bracket does so at the very beginning.

## Main definitions

* `Pattern.escape?`: what stands after a backslash
* `CharSet.parse?`: what stands in brackets
* `Pattern.parse?`: the pattern that a text is, if it has that form
-/

namespace FiberPrograms

namespace Pattern

open Text (hexValue? charOf? isBlank)

/-! ## Blanks and comments -/

/-- Characters without the blanks and comments in front. A comment goes up to the end of its
line. -/
def skipFiller (comment : Bool) : List Char → List Char
  | [] => []
  | c :: rest =>
    if comment then skipFiller (c != '\n') rest
    else if isBlank c then skipFiller false rest
    else if c == '#' then skipFiller true rest
    else c :: rest

/-- Characters without what stands for nothing in front, if there is such. -/
def skip (spaced : Bool) (cs : List Char) : List Char :=
  if spaced then skipFiller false cs else cs

/-- The next character that is no blank. The mark of a comment does not count either, but a
character of the comment does. -/
def peekFiller (comment : Bool) : List Char → Option Char
  | [] => none
  | c :: rest =>
    if isBlank c then peekFiller comment rest
    else if c == '#' && !comment then peekFiller true rest
    else some c

/-- The next character, as far as it decides what a hyphen stands for. -/
def peek (spaced : Bool) (cs : List Char) : Option Char :=
  if spaced then peekFiller false cs else cs.head?

/-! ## Escapes -/

/-- The number that is written in `count` digits in base sixteen. -/
def hexCode? (spaced : Bool) : (count : Nat) → (code : Nat) → List Char →
    Option (Nat × List Char)
  | 0, code, cs => some (code, cs)
  | count + 1, code, cs =>
    match skip spaced cs with
    | [] => none
    | c :: rest => do hexCode? spaced count (code * 16 + (← hexValue? c)) rest

/-- The character whose number is written in `count` digits. -/
def numbered? (spaced : Bool) (count : Nat) (cs : List Char) : Option (Pattern × List Char) := do
  let (code, rest) ← hexCode? spaced count 0 cs
  return (.literal ⟨← charOf? code, count == 2⟩, rest)

/-- The set that a letter stands for; a capital one stands for all else. -/
def shorthand? : Char → Option Pattern
  | 'd' => some (.shorthand false .digit)
  | 's' => some (.shorthand false .space)
  | 'w' => some (.shorthand false .word)
  | 'D' => some (.shorthand true .digit)
  | 'S' => some (.shorthand true .space)
  | 'W' => some (.shorthand true .word)
  | _ => none

/-- The edge that a character stands for. -/
def edge? : Char → Option Edge
  | 'A' => some .textStart
  | 'z' => some .textEnd
  | 'b' => some .word
  | 'B' => some .noWord
  | '<' => some .wordStart
  | '>' => some .wordEnd
  | _ => none

/-- The control that a letter stands for. -/
def control? : Char → Option Char
  | 'a' => some '\x07'
  | 'f' => some '\x0c'
  | 't' => some '\t'
  | 'n' => some '\n'
  | 'r' => some '\r'
  | 'v' => some '\x0b'
  | _ => none

/-- What stands after a backslash. A sign stands for itself. -/
def escape? (spaced : Bool) : List Char → Option (Pattern × List Char)
  | [] => none
  | 'x' :: rest => numbered? spaced 2 rest
  | 'u' :: rest => numbered? spaced 4 rest
  | 'U' :: rest => numbered? spaced 8 rest
  | c :: rest =>
    match shorthand? c, edge? c, control? c with
    | some part, _, _ => some (part, rest)
    | _, some e, _ => some (.edge e, rest)
    | _, _, some control => some (.literal ⟨control, false⟩, rest)
    | _, _, _ => if c.toNat < 128 && !c.isAlphanum then some (.literal ⟨c, false⟩, rest) else none

end Pattern

/-! ## Sets -/

namespace CharSet

open Pattern (skip peek escape? SetOperator)

/-- The names that sets have. -/
def names : List String :=
  ["alnum", "alpha", "ascii", "blank", "cntrl", "digit", "graph", "lower", "print", "punct",
    "space", "upper", "word", "xdigit"]

/-- The set that a pattern for one character stands for. -/
def ofPattern? : Pattern → Option CharSet
  | .literal l => some (literal l)
  | .shorthand negated kind => some (shorthand negated kind)
  | _ => none

/-- A character or an escape. -/
def atom? (spaced : Bool) : List Char → Option (Pattern × List Char)
  | [] => none
  | '\\' :: rest => escape? spaced rest
  | c :: rest => some (.literal ⟨c, false⟩, rest)

/-- A character, a range, or an escape. -/
def item? (spaced : Bool) (cs : List Char) : Option (CharSet × List Char) := do
  let (first, rest) ← atom? spaced cs
  let alone (rest : List Char) : Option (CharSet × List Char) :=
    (ofPattern? first).map fun set => (set, rest)
  match skip spaced rest with
  | [] => none
  | '-' :: rest =>
    let next := peek spaced rest
    if next == some ']' || next == some '-' then alone ('-' :: rest)
    else
      let (last, rest) ← atom? spaced (skip spaced rest)
      match first, last with
      | .literal a, .literal b => if a.char ≤ b.char then some (.range a b, rest) else none
      | _, _ => none
  | rest => alone rest

/-- A set with a name, after its opening bracket. -/
def named? : List Char → Option (CharSet × List Char)
  | ':' :: rest =>
    let (negated, rest) : Bool × List Char :=
      match rest with
      | '^' :: rest => (true, rest)
      | rest => (false, rest)
    let name := String.ofList (rest.takeWhile (· != ':'))
    match rest.dropWhile (· != ':') with
    | ':' :: ']' :: rest => if names.contains name then some (.named negated name, rest) else none
    | _ => none
  | _ => none

/-- Hyphens in front, of which at most `fuel` are read; those `read` so far come last. -/
def hyphens (spaced : Bool) : (fuel : Nat) → (read : List CharSet) → List Char →
    List CharSet × List Char
  | fuel + 1, read, '-' :: rest =>
    hyphens spaced fuel (.literal ⟨'-', false⟩ :: read) (skip spaced rest)
  | _, read, cs => (read, cs)

/-- What stands right after an opening bracket: whether all but the set is meant, and characters
that stand for themselves only there. -/
def start (spaced : Bool) (cs : List Char) : Bool × List CharSet × List Char :=
  let (negated, cs) : Bool × List Char :=
    match skip spaced cs with
    | '^' :: rest => (true, skip spaced rest)
    | cs => (false, cs)
  match hyphens spaced cs.length [] cs with
  | ([], ']' :: rest) => (negated, [.literal ⟨']', false⟩], rest)
  | (read, rest) => (negated, read, rest)

/-- The operand that some sets make, which were read in reverse, after the operands and the
operator to the left of it. -/
def operand (left : Option (SetOperator × CharSet)) (read : List CharSet) : CharSet :=
  let right := ofList read.reverse
  match left with
  | some (operator, left) => combined operator left right
  | none => right

/-- What stands up to the closing bracket, after what is to the left of the last operator and the
sets `read` since then. -/
def body? (spaced : Bool) : (fuel : Nat) → (left : Option (SetOperator × CharSet)) →
    (read : List CharSet) → List Char → Option (CharSet × List Char)
  | 0, _, _, _ => none
  | fuel + 1, left, read, cs =>
    match skip spaced cs with
    | [] => none
    | ']' :: rest => some (operand left read, rest)
    | '[' :: rest =>
      match named? rest with
      | some (set, rest) => body? spaced fuel left (set :: read) rest
      | none => do
        let (negated, first, rest) := start spaced rest
        let (inner, rest) ← body? spaced fuel none first rest
        body? spaced fuel left (.nested negated inner :: read) rest
    | '&' :: '&' :: rest => body? spaced fuel (some (.intersection, operand left read)) [] rest
    | '-' :: '-' :: rest => body? spaced fuel (some (.difference, operand left read)) [] rest
    | '~' :: '~' :: rest =>
      body? spaced fuel (some (.symmetricDifference, operand left read)) [] rest
    | cs => do
      let (set, rest) ← item? spaced cs
      body? spaced fuel left (set :: read) rest

/-- What stands in brackets, after the opening one. -/
def parse? (spaced : Bool) (cs : List Char) : Option (Pattern × List Char) := do
  let (negated, first, rest) := start spaced cs
  let (inner, rest) ← body? spaced (rest.length + 1) none first rest
  return (.brackets negated inner, rest)

end CharSet

/-! ## Groups -/

namespace Pattern

open Text (isLetter isWordChar)

/-- What stands after an opening parenthesis. -/
inductive Opening where
  /-- A change of modes, closed already. -/
  | change (change : ModeChange)
  /-- The beginning of a group. -/
  | group (name : Option String) (change : ModeChange)

/-- Letters of modes, of which those after a hyphen are switched off: `off` is whether it has
been there, and `dangling` whether nothing has followed it. -/
def modeChange? (off dangling : Bool) (change : ModeChange) :
    List Char → Option (ModeChange × List Char)
  | [] => none
  | c :: rest =>
    if c == ':' || c == ')' then if dangling then none else some (change.reverse, c :: rest)
    else if c == '-' then if off then none else modeChange? true true change rest
    else
      match Mode.ofChar? c with
      | none => none
      | some mode =>
        if change.any (·.1 == mode) then none
        else modeChange? off false ((mode, !off) :: change) rest

/-- Whether a character may stand in the name of a group, but for the first one. -/
def isNameChar (c : Char) : Bool :=
  c == '_' || c == '.' || c == '[' || c == ']' || isWordChar c

/-- The name of a group, and its closing mark. -/
def groupName? (cs : List Char) : Option (String × List Char) :=
  match cs.takeWhile (· != '>'), cs.dropWhile (· != '>') with
  | c :: more, _ :: rest =>
    if (c == '_' || isLetter c) && more.all isNameChar then some (String.ofList (c :: more), rest)
    else none
  | _, _ => none

/-- What stands after an opening parenthesis. -/
def opening? (spaced : Bool) (cs : List Char) : Option (Opening × List Char) :=
  let named (cs : List Char) : Option (Opening × List Char) :=
    (groupName? cs).map fun (name, rest) => (.group (some name) [], rest)
  match skip spaced cs with
  | '?' :: 'P' :: '<' :: rest => named rest
  | '?' :: '<' :: rest => named rest
  | '?' :: rest =>
    match modeChange? false false [] rest with
    | some ([], ')' :: _) => none
    | some (modes, ')' :: rest) => some (.change modes, rest)
    | some (modes, _ :: rest) => some (.group none modes, rest)
    | _ => none
  | rest => some (.group none [], rest)

/-! ## Patterns -/

/-- The pattern that a character stands for, if it has no part in how the pattern is made up. -/
def ofChar : Char → Pattern
  | '.' => .any
  | '^' => .edge .lineStart
  | '$' => .edge .lineEnd
  | c => .literal ⟨c, false⟩

/-- The repetition of the last of the parts `read`. A change of modes cannot be repeated. -/
def repeatLast? : (read : List Pattern) → Option (List Pattern)
  | [] => none
  | .change _ :: _ => none
  | part :: read => some (.repeated part :: read)

/-- The mark after a repetition that has it take as little as it can stands for itself. -/
def skipMark : List Char → List Char
  | '?' :: rest => rest
  | cs => cs

/-- What stands up to the end of a group or of the pattern, after the parts `read` since the last
bar, and the branches `closed` before it, both in reverse. -/
def body? : (fuel : Nat) → (modes : Modes) → (read closed : List Pattern) → List Char →
    Option (Pattern × List Char)
  | 0, _, _, _, _ => none
  | fuel + 1, modes, read, closed, cs =>
    match skip modes.spaced cs with
    | [] => some (ofBranches (ofParts read.reverse :: closed).reverse, [])
    | ')' :: rest => some (ofBranches (ofParts read.reverse :: closed).reverse, ')' :: rest)
    | '|' :: rest => body? fuel modes [] (ofParts read.reverse :: closed) rest
    | '(' :: rest =>
      match opening? modes.spaced rest with
      | some (.change new, rest) =>
        body? fuel (modes.apply new) (.change new :: read) closed rest
      | some (.group name new, rest) =>
        match body? fuel (modes.apply new) [] [] rest with
        | some (inner, ')' :: rest) => body? fuel modes (.group name new inner :: read) closed rest
        | _ => none
      | none => none
    | '[' :: rest => do
      let (part, rest) ← CharSet.parse? modes.spaced rest
      body? fuel modes (part :: read) closed rest
    | '\\' :: rest => do
      let (part, rest) ← escape? modes.spaced rest
      body? fuel modes (part :: read) closed rest
    | '\x7b' :: _ => none
    | c :: rest =>
      if c == '?' || c == '*' || c == '+' then do
        body? fuel modes (← repeatLast? read) closed (skipMark rest)
      else body? fuel modes (ofChar c :: read) closed rest

/-- The pattern that a text is, if it has that form. -/
def parse? (text : List Char) : Option Pattern :=
  match body? (text.length + 1) {} [] [] text with
  | some (pattern, []) => some pattern
  | _ => none

end Pattern

end FiberPrograms

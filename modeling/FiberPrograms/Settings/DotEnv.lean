import FiberPrograms.Fault
import FiberPrograms.Text.Hex
import FiberPrograms.Text.Letter
import FiberPrograms.Text.Quoted

/-!
# Files of environment variables

A file of variables holds assignments, one a line, unless a quoted value goes over several lines.
Between single quotes all characters stand for themselves; elsewhere a backslash takes the
meaning from the next character, and a dollar sign stands before the name of a variable whose
value is meant. A value without quotes ends at a blank, after which only a comment may follow.

The variables of a file are set one after the other, up to the first line that is no assignment.
A variable that is set already keeps its value. A value with the character of number zero cannot
be set at all, and trying to is a fault.

## Main definitions

* `DotEnv.logicalLines`: the lines of a file, with those joined over which a quoted value goes
* `DotEnv.assignment`: the assignment that a line holds
* `DotEnv.load`: the variables after a file has been read
-/

namespace FiberPrograms.DotEnv

/-- Variables and their values. -/
abbrev Variables : Type := List (String × String)

open Text (isBlank trimEnd)

/-! ## Lines -/

/-- Where one is in a line, as far as quotes, comments and line breaks go. -/
inductive LineState where
  | plain
  /-- After a blank, where a comment may start. -/
  | blank
  /-- After a backslash outside of quotes. -/
  | escaped
  | single
  | singleEscaped
  | double
  | doubleEscaped
deriving DecidableEq

/-- Where a character leads. -/
def LineState.next (state : LineState) (c : Char) : LineState :=
  let outside : LineState :=
    if c == '\\' then .escaped
    else if c == '"' then .double
    else if c == '\'' then .single
    else .plain
  match state with
  | plain => if isBlank c && c != '\n' && c != '\r' then .blank else outside
  | blank => outside
  | escaped => .plain
  | single => if c == '\\' then .singleEscaped else if c == '\'' then .plain else .single
  | singleEscaped => .single
  | double => if c == '\\' then .doubleEscaped else if c == '"' then .plain else .double
  | doubleEscaped => .double

/-- The part of a physical line before its comment, whether there is a comment, and where the line
leads. -/
def scanLine (state : LineState) : List Char → List Char × Bool × LineState
  | [] => ([], false, state)
  | c :: rest =>
    if state == .blank && c == '#' then ([], true, state)
    else
      let (before, comment, last) := scanLine (state.next c) rest
      (c :: before, comment, last)

/-- The physical lines of a text, each with its line break. -/
def physicalLines (line : List Char) : List Char → List (List Char)
  | [] => if line.isEmpty then [] else [line.reverse]
  | '\n' :: rest => ('\n' :: line).reverse :: physicalLines [] rest
  | c :: rest => physicalLines (c :: line) rest

/-- A line without its line break. -/
def trimBreak (line : List Char) : List Char :=
  match line.reverse with
  | '\n' :: '\r' :: rest => rest.reverse
  | '\n' :: rest => rest.reverse
  | _ => line

/-- Whether a line is a comment as a whole. -/
def isComment (line : List Char) : Bool :=
  match line.dropWhile isBlank with
  | '#' :: _ => true
  | _ => false

/-- The lines of a file, those joined over which a value goes. Nothing stands for a line that is
not finished when the file ends. -/
def joinLines (read : List Char) (state : LineState) :
    List (List Char) → List (Option (List Char))
  | [] => if state == .plain then [] else [none]
  | line :: rest =>
    if isComment (read ++ line) then joinLines [] .plain rest
    else
      let (before, comment, last) := scanLine state line
      if comment then some (read ++ before) :: joinLines [] .plain rest
      else if last == .plain then some (trimBreak (read ++ line)) :: joinLines [] .plain rest
      else joinLines (read ++ line) last rest

/-- The lines of a file, those joined over which a quoted value goes. -/
def logicalLines (text : String) : List (Option (List Char)) :=
  joinLines [] .plain (physicalLines [] text.toList)

/-! ## Assignments -/

/-- The name of a variable, and the characters after it. -/
def name? (cs : List Char) : Option (String × List Char) :=
  let isFirst (c : Char) : Bool := c.isAlpha || c == '_'
  let isLater (c : Char) : Bool := c.isAlphanum || c == '_' || c == '.'
  match cs with
  | c :: _ =>
    if isFirst c then some (String.ofList (cs.takeWhile isLater), cs.dropWhile isLater) else none
  | [] => none

/-- The rest of a text behind some characters in front. -/
def behind? : (front : List Char) → List Char → Option (List Char)
  | [], cs => some cs
  | _ :: _, [] => none
  | a :: front, c :: cs => if a == c then behind? front cs else none

/-- The value of a variable. A variable and its value are kept as one text, in which an equals sign
stands between the two, and a name with an equals sign in it is looked for in that text: `a=b` is
found as a variable `a` whose value starts with `b=`, and what stands behind is its value. -/
def valueOf? (known : Variables) (name : List Char) : Option (List Char) :=
  match name.span (· != '=') with
  | (name, []) => (known.lookup (String.ofList name)).map String.toList
  | (name, _ :: more) =>
    match known.lookup (String.ofList name) with
    | some value => behind? (more ++ ['=']) value.toList
    | none => none

/-- The value that a name stands for: that of a variable, or else that assigned to it in the
file. -/
def substitute (known assigned : Variables) (name : List Char) : List Char :=
  match valueOf? known name with
  | some value => value
  | none => ((assigned.lookup (String.ofList name)).getD "").toList

/-- Where one is in a value. -/
inductive ValueState where
  | plain
  /-- After the end of the value. -/
  | closed
  | escaped
  | single
  | double
  | doubleEscaped
  /-- In a name after a dollar sign; `quoted` if the sign stands between double quotes. -/
  | name (quoted : Bool) (read : List Char)
  /-- In a name in braces. -/
  | braced (quoted : Bool) (read : List Char)

/-- The state in which plain characters are read. -/
def ValueState.ofQuoted (quoted : Bool) : ValueState :=
  if quoted then .double else .plain

/-- What a character that is no part of a name does; `name` stands for the start of a name. -/
def plainChar (c : Char) : ValueState × List Char :=
  if c == '$' then (.name false [], [])
  else if c == '\'' then (.single, [])
  else if c == '"' then (.double, [])
  else if c == '\\' then (.escaped, [])
  else if c == ' ' || c == '\t' then (.closed, [])
  else (.plain, [c])

/-- The characters of a value, after those `read` so far in reverse. -/
def value? (substitute : List Char → List Char) (read : List Char) (state : ValueState) :
    List Char → Option (List Char)
  | [] =>
    match state with
    | .plain | .closed | .escaped => some read.reverse
    | .name false name => some (read.reverse ++ substitute name.reverse)
    | _ => none
  | c :: rest =>
    let unescape (after : ValueState) : Option (List Char) :=
      if c == '\\' || c == '\'' || c == '"' || c == '$' || c == ' ' then
        value? substitute (c :: read) after rest
      else if c == 'n' then value? substitute ('\n' :: read) after rest
      else none
    match state with
    | .closed =>
      if c == ' ' || c == '\t' then value? substitute read .closed rest
      else if c == '#' then some read.reverse
      else none
    | .escaped => unescape .plain
    | .doubleEscaped => unescape .double
    | .single =>
      if c == '\'' then value? substitute read .plain rest
      else value? substitute (c :: read) .single rest
    | .name quoted name =>
      if Text.isWordChar c then value? substitute read (.name quoted (c :: name)) rest
      else if c == '\x7b' && name.isEmpty then value? substitute read (.braced quoted []) rest
      else
        let read := (substitute name.reverse).reverse ++ read
        if c == '$' then value? substitute read (.name quoted []) rest
        else value? substitute (c :: read) (.ofQuoted quoted) rest
    | .braced quoted name =>
      if c == '\x7d' then
        value? substitute ((substitute name.reverse).reverse ++ read) (.ofQuoted quoted) rest
      else value? substitute read (.braced quoted (c :: name)) rest
    | .double =>
      if c == '$' then value? substitute read (.name true []) rest
      else if c == '"' then value? substitute read .plain rest
      else if c == '\\' then value? substitute read .doubleEscaped rest
      else value? substitute (c :: read) .double rest
    | .plain =>
      let (state, more) := plainChar c
      value? substitute (more ++ read) state rest

/-- What a line holds: nothing, an assignment, or neither. -/
inductive Line where
  | blank
  | assignment (name value : String)
  | invalid

/-- The value behind an equals sign. -/
def afterEquals (known assigned : Variables) (name : String) (cs : List Char) : Line :=
  match cs.dropWhile isBlank with
  | [] => .assignment name ""
  | '#' :: _ => .assignment name ""
  | cs =>
    match value? (substitute known assigned) [] .plain cs with
    | some value => .assignment name (String.ofList value)
    | none => .invalid

/-- The assignment that a line holds. The word `export` may stand before it. Blanks around the
line do not count, even if a backslash stands before them. -/
def assignment (known assigned : Variables) (line : List Char) : Line :=
  match (trimEnd line).dropWhile isBlank with
  | [] => .blank
  | '#' :: _ => .blank
  | cs =>
    match name? cs with
    | none => .invalid
    | some (name, rest) =>
      match rest.dropWhile isBlank with
      | '=' :: rest => afterEquals known assigned name rest
      | rest =>
        if name == "export" then
          match name? rest with
          | none => .invalid
          | some (name, rest) =>
            match rest.dropWhile isBlank with
            | '=' :: rest => afterEquals known assigned name rest
            | _ => .invalid
        else .invalid

/-- The fault of setting a variable to a value that cannot be set. -/
def unsettable (name value : String) : Fault :=
  .text ("failed to set environment variable `" ++ Text.quotedTwice name ++ "` to `"
    ++ Text.quotedTwice value ++ "`: file name contained an unexpected NUL byte")

/-- Set the variables of lines, up to the first that is no assignment. -/
def loadLines (known assigned : Variables) : List (Option (List Char)) → Except Fault Variables
  | [] => .ok known
  | none :: _ => .ok known
  | some line :: rest =>
    match assignment known assigned line with
    | .blank => loadLines known assigned rest
    | .invalid => .ok known
    | .assignment name value =>
      let assigned := (name, value) :: assigned
      match known.lookup name with
      | some _ => loadLines known assigned rest
      | none =>
        if value.contains '\x00' then .error (unsettable name value)
        else loadLines (known ++ [(name, value)]) assigned rest

/-- The variables after a file has been read. -/
def load (known : Variables) (text : String) : Except Fault Variables :=
  let text :=
    match text.toList with
    | '\ufeff' :: rest => String.ofList rest
    | _ => text
  loadLines known [] (logicalLines text)

end FiberPrograms.DotEnv

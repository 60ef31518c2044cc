import FiberPrograms.Fault
import FiberPrograms.Pattern.Usable
import FiberPrograms.Text.Hex
import FiberPrograms.Text.Letter
import FiberPrograms.Text.Quoted

/-!
# Log filters

A filter is a list of directives with commas between them. A directive says up to which level is
logged, and for what: `target[span{field=value}]=level`, where either side may be missing, and
a word alone is a level if it can be one. A value is a truth value, a number or a pattern. What a
filter selects is nobody's business here, but it is read before anything is run, and reading it
can end in a fault.

The parts of a directive are told by their positions, in bytes. The positions count from the
first character that is no blank, but the parts are cut out of the directive with the blanks in
front of it. A cut that falls inside a character is a fault. This takes a blank of several bytes
in front: otherwise all positions at which parts end are the ends of characters.

## Main definitions

* `Text.cut`: the part of a text between two positions in bytes
* `LogFilter.Directive.check`, `LogFilter.check`: read a directive, or a whole filter
* `LogFilter.fault?`: the fault in which looking for a filter ends
-/

namespace FiberPrograms

namespace Text

/-- The character that a position is inside of, and the positions of its ends. The characters
start at `start`. -/
def inside? (position start : Nat) : List Char → Option (Char × Nat × Nat)
  | [] => none
  | c :: rest =>
    let next := start + c.utf8Size
    if position ≤ start then none
    else if position < next then some (c, start, next)
    else inside? position next rest

/-- The fault of cutting a character. -/
def cutFault (which : String) (position : Nat) : Char × Nat × Nat → Fault
  | (c, first, last) =>
    .text (which ++ " byte index " ++ toString position ++ " is not a char boundary; it is inside "
      ++ quotedChar c ++ " (bytes " ++ toString first ++ ".." ++ toString last ++ " of string)")

/-- The characters that start between two positions; the characters as a whole start at `start`. -/
def between (first last start : Nat) : List Char → List Char
  | [] => []
  | c :: rest =>
    let others := between first last (start + c.utf8Size) rest
    if first ≤ start && start < last then c :: others else others

/-- The part of a text between two positions, which must not be inside of characters. -/
def cut (text : List Char) (first last : Nat) : Except Fault (List Char) :=
  match inside? first 0 text, inside? last 0 text with
  | some found, _ => .error (cutFault "start" first found)
  | none, some found => .error (cutFault "end" last found)
  | none, none => .ok (between first last 0 text)

/-- How many bytes a text takes. -/
def byteSize : List Char → Nat
  | [] => 0
  | c :: rest => c.utf8Size + byteSize rest

end Text

namespace LogFilter

/-- Why a filter could not be read. -/
inductive Failure where
  /-- It is no filter. -/
  | invalid
  /-- Reading it ended in a fault. -/
  | fault (fault : Fault)
deriving DecidableEq, Repr

/-- A part of a directive. -/
def part (text : List Char) (first last : Nat) : Except Failure (List Char) :=
  (Text.cut text first last).mapError .fault

/-- Whether a word is a level: the name of one in letters of either case, or its number. -/
def isLevel (word : List Char) : Bool :=
  let digits :=
    match word with
    | '+' :: rest => rest
    | cs => cs
  let number := digits.foldl (fun n c => n * 10 + (c.toNat - '0'.toNat)) 0
  ["error", "warn", "info", "debug", "trace", "off"].contains
      (String.ofList (word.map Char.toLower))
    || !digits.isEmpty && digits.all Char.isDigit && number ≤ 5

/-- Whether a text is a number: one with digits before or after the point, and maybe with an
exponent, or one that is no finite number. -/
def isNumber (text : List Char) : Bool :=
  let magnitude : List Char :=
    match text with
    | '+' :: rest => rest
    | '-' :: rest => rest
    | cs => cs
  let whole := magnitude.takeWhile Char.isDigit
  let rest := magnitude.dropWhile Char.isDigit
  let (fraction, rest) : List Char × List Char :=
    match rest with
    | '.' :: rest => (rest.takeWhile Char.isDigit, rest.dropWhile Char.isDigit)
    | rest => ([], rest)
  let exponentIsGood (cs : List Char) : Bool :=
    let digits : List Char :=
      match cs with
      | '+' :: rest => rest
      | '-' :: rest => rest
      | cs => cs
    !digits.isEmpty && digits.all Char.isDigit
  let restIsGood : Bool :=
    match rest with
    | [] => true
    | c :: rest => (c == 'e' || c == 'E') && exponentIsGood rest
  ["inf", "infinity", "nan"].contains (String.ofList (magnitude.map Char.toLower))
    || !(whole.isEmpty && fraction.isEmpty) && restIsGood

/-- Whether fields can be compared with a value. -/
def isValue (text : List Char) : Bool :=
  ["true", "false"].contains (String.ofList text) || isNumber text || Pattern.isUsable text

/-- Whether a text is a field: a name, and maybe a value behind an equals sign. What stands behind
another equals sign does not matter. -/
def isField (text : List Char) : Bool :=
  match text.dropWhile (· != '=') with
  | [] => !text.isEmpty
  | _ :: rest => isValue (rest.takeWhile (· != '='))

namespace Directive

/-- Where one is in a directive; a part that is being read is told by where it starts. -/
inductive State where
  | start
  /-- In a level or a target. -/
  | word (first : Nat)
  | span (first : Nat)
  | field (first : Nat)
  /-- After the fields of a span. -/
  | fields
  /-- After all that tells for what the level is. -/
  | target
  | level (first : Nat)
deriving DecidableEq, Repr

/-- Where a character leads that stands at a position. -/
def State.next (text : List Char) (position : Nat) (c : Char) : State → Except Failure State
  | .start =>
    if c == '[' then .ok (.span (position + 1))
    else if c == '-' || c == ':' || c == '_' || Text.isWordChar c then .ok (.word position)
    else .error .invalid
  | .word first =>
    if c == '=' then (part text first position).map fun _ => .level (position + 1)
    else if c == '[' then (part text first position).map fun _ => .span (position + 1)
    else .ok (.word first)
  | .span first =>
    if c == ']' then (part text first position).map fun _ => .target
    else if c == '\x7b' then (part text first position).map fun _ => .field (position + 1)
    else .ok (.span first)
  | .field first =>
    if c == '\x7d' then do
      if isField (← part text first position) then .ok .fields else .error .invalid
    else .ok (.field first)
  | .fields => if c == ']' then .ok .target else .error .invalid
  | .target => if c == '=' then .ok (.level (position + 1)) else .error .invalid
  | .level first => .ok (.level first)

/-- Where characters lead, of which the first stands at a position. -/
def State.run (text : List Char) (position : Nat) : List Char → State → Except Failure State
  | [], state => .ok state
  | c :: rest, state => do
    State.run text (position + c.utf8Size) rest (← state.next text position c)

/-- Read a directive. -/
def check (text : List Char) : Except Failure Unit := do
  match ← State.run text 0 (Text.trim text) .start with
  | .word first => (part text first (Text.byteSize text)).map fun _ => ()
  | .level first =>
    let level ← part text first (Text.byteSize text)
    if level.isEmpty || isLevel level then .ok () else .error .invalid
  | .target => .ok ()
  | _ => .error .invalid

end Directive

/-- Read a filter, up to the first directive that cannot be read. Nothing between commas is no
directive. -/
def check (filter : String) : Except Failure Unit :=
  (filter.splitOn ",").forM fun directive =>
    if directive.isEmpty then .ok () else Directive.check directive.toList

/-- The variable that may hold a filter. -/
def variableName : String := "RUST_LOG"

/-- The fault in which looking for a filter ends, if it does. The one in the variable counts, or
else the one that is set; if neither can be read, a fixed one does. -/
def fault? (bindings : List (String × String)) (filter : String) : Option Fault :=
  match (bindings.lookup variableName).map check with
  | some (.ok ()) => none
  | some (.error (.fault fault)) => some fault
  | _ =>
    match check filter with
    | .error (.fault fault) => some fault
    | _ => none

end LogFilter

end FiberPrograms

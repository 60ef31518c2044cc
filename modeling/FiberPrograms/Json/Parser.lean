import FiberPrograms.Json.Basic
import FiberPrograms.Text.Hex

/-!
# Reading JSON

A document is read from characters. Blanks may stand around every part; nothing else may be
added, and nothing may follow the document. Arrays and objects may be nested only so deep.

## Main definitions

* `Json.parse?`: the document that a text is, if it is one
-/

namespace FiberPrograms.Json

open Text (hexValue?)

/-- Characters without the blanks in front. -/
def skipBlanks (cs : List Char) : List Char :=
  cs.dropWhile fun c => c == ' ' || c == '\n' || c == '\r' || c == '\t'

/-- The value of four digits in base sixteen. -/
def hexFour? (a b c d : Char) : Option Nat := do
  let a ← hexValue? a
  let b ← hexValue? b
  let c ← hexValue? c
  let d ← hexValue? d
  return ((a * 16 + b) * 16 + c) * 16 + d

/-- The character that an escape of one letter stands for. -/
def unescape? : Char → Option Char
  | '"' => some '"'
  | '\\' => some '\\'
  | '/' => some '/'
  | 'b' => some '\x08'
  | 'f' => some '\x0c'
  | 'n' => some '\n'
  | 'r' => some '\r'
  | 't' => some '\t'
  | _ => none

/-- The characters of a string up to its closing quote, put after those `read` so far, which are
in reverse. Characters beyond the first plane are escaped as two halves; a half alone is no
character. -/
def chars (read : List Char) : List Char → Option (String × List Char)
  | '"' :: rest => some (String.ofList read.reverse, rest)
  | '\\' :: 'u' :: a :: b :: c :: d :: '\\' :: 'u' :: a' :: b' :: c' :: d' :: rest =>
    match hexFour? a b c d with
    | none => none
    | some high =>
      if 0xd800 ≤ high && high < 0xdc00 then
        match hexFour? a' b' c' d' with
        | none => none
        | some low =>
          if 0xdc00 ≤ low && low < 0xe000 then
            chars (Char.ofNat (0x10000 + (high - 0xd800) * 0x400 + (low - 0xdc00)) :: read) rest
          else none
      else if 0xdc00 ≤ high && high < 0xe000 then none
      else
        chars (Char.ofNat high :: read)
          ('\\' :: 'u' :: a' :: b' :: c' :: d' :: rest)
  | '\\' :: 'u' :: a :: b :: c :: d :: rest =>
    match hexFour? a b c d with
    | none => none
    | some code =>
      if 0xd800 ≤ code && code < 0xe000 then none else chars (Char.ofNat code :: read) rest
  | '\\' :: c :: rest =>
    match unescape? c with
    | none => none
    | some c => chars (c :: read) rest
  | c :: rest => if c == '\\' || c.toNat < 0x20 then none else chars (c :: read) rest
  | [] => none
termination_by cs => cs.length

/-- The value of a digit. -/
def digitValue (c : Char) : Nat :=
  c.toNat - '0'.toNat

/-- The number that decimal digits are. -/
def ofDigits (digits : List Char) : Nat :=
  digits.foldl (fun n c => n * 10 + digitValue c) 0

/-- The digits in front, of which there has to be one. -/
def digits? (cs : List Char) : Option (List Char × List Char) :=
  match cs.takeWhile Char.isDigit with
  | [] => none
  | digits => some (digits, cs.dropWhile Char.isDigit)

/-- The digits after a point, if there is a point. -/
def fraction? : List Char → Option (List Char × List Char)
  | '.' :: rest => digits? rest
  | cs => some ([], cs)

/-- The power of ten behind a number, if there is one. -/
def exponent? : List Char → Option (Option Int × List Char)
  | e :: rest =>
    if e == 'e' || e == 'E' then
      let (negative, rest) : Bool × List Char :=
        match rest with
        | '-' :: rest => (true, rest)
        | '+' :: rest => (false, rest)
        | rest => (false, rest)
      (digits? rest).map fun (digits, rest) =>
        (some (if negative then -(ofDigits digits : Int) else ofDigits digits), rest)
    else some (none, e :: rest)
  | [] => some (none, [])

/-- A number without its sign. A leading zero stands alone. Zero with a sign is no integer. -/
def unsigned? (negative : Bool) (cs : List Char) : Option (Json × List Char) := do
  let (whole, rest) ← digits? cs
  if whole.length > 1 && whole.head? == some '0' then none
  else
    let (fraction, rest) ← fraction? rest
    let (exponent, rest) ← exponent? rest
    let n := ofDigits whole
    if fraction.isEmpty && exponent.isNone && !(negative && n == 0) then
      return (.int (if negative then -(n : Int) else n), rest)
    else return (.decimal ⟨negative, n, fraction.map digitValue, exponent.getD 0⟩, rest)

/-- A document that holds no others. -/
def scalar? : List Char → Option (Json × List Char)
  | 'n' :: 'u' :: 'l' :: 'l' :: rest => some (.null, rest)
  | 't' :: 'r' :: 'u' :: 'e' :: rest => some (.bool true, rest)
  | 'f' :: 'a' :: 'l' :: 's' :: 'e' :: rest => some (.bool false, rest)
  | '"' :: rest => (chars [] rest).map fun (s, rest) => (.str s, rest)
  | '-' :: rest => unsigned? true rest
  | cs => unsigned? false cs

/-- Items with commas between them, up to a closing bracket: at most `fuel` of them. -/
def items (item : List Char → Option (Json × List Char)) :
    (fuel : Nat) → List Char → Option (List Json × List Char)
  | 0, _ => none
  | fuel + 1, cs => do
    let (first, rest) ← item cs
    match skipBlanks rest with
    | ']' :: rest => return ([first], rest)
    | ',' :: rest =>
      let (others, rest) ← items item fuel (skipBlanks rest)
      return (first :: others, rest)
    | _ => none

/-- Members with commas between them, up to a closing brace: at most `fuel` of them. -/
def members (item : List Char → Option (Json × List Char)) :
    (fuel : Nat) → List Char → Option (List (String × Json) × List Char)
  | 0, _ => none
  | fuel + 1, cs =>
    match cs with
    | '"' :: rest => do
      let (key, rest) ← chars [] rest
      match skipBlanks rest with
      | ':' :: rest =>
        let (value, rest) ← item (skipBlanks rest)
        match skipBlanks rest with
        | '\x7d' :: rest => return ([(key, value)], rest)
        | ',' :: rest =>
          let (others, rest) ← members item fuel (skipBlanks rest)
          return ((key, value) :: others, rest)
        | _ => none
      | _ => none
    | _ => none

/-- A document in which arrays and objects are nested at most `depth` deep, and none has more than
`size` parts. -/
def document? (size : Nat) : (depth : Nat) → List Char → Option (Json × List Char)
  | 0, '[' :: _ => none
  | 0, '\x7b' :: _ => none
  | 0, cs => scalar? cs
  | depth + 1, '[' :: rest =>
    match skipBlanks rest with
    | ']' :: rest => some (.arr [], rest)
    | rest => (items (document? size depth) size rest).map fun (read, rest) => (.arr read, rest)
  | depth + 1, '\x7b' :: rest =>
    match skipBlanks rest with
    | '\x7d' :: rest => some (.obj [], rest)
    | rest => (members (document? size depth) size rest).map fun (read, rest) => (.obj read, rest)
  | _ + 1, cs => scalar? cs

/-- The document that a text is, if it is one in which arrays and objects are nested at most
`depth` deep. There are no more parts than characters. -/
def parse? (depth : Nat) (text : String) : Option Json :=
  let cs := text.toList
  match document? cs.length depth (skipBlanks cs) with
  | some (document, rest) => if (skipBlanks rest).isEmpty then some document else none
  | none => none

end FiberPrograms.Json

/-!
# JSON documents and their text

Objects keep their members in the order in which they were written. Numbers are integers, or
decimals that keep all their digits, those before the point apart from those behind it.

## Main definitions

* `Decimal`: decimal numbers
* `Json`: JSON documents
* `Json.get?`: the member of an object; a later member of the same key hides an earlier one
* `Json.compact`, `Json.pretty`: the text of a document on one line, and laid out
-/

namespace FiberPrograms

/-- Decimal numbers, digit by digit. -/
structure Decimal where
  negative : Bool
  /-- The number before the point. -/
  whole : Nat
  /-- The digits behind the point. -/
  places : List Nat
  /-- The power of ten behind the digits. -/
  exponent : Int
deriving DecidableEq, Repr, Inhabited

/-- JSON documents. -/
inductive Json where
  | null
  | bool (b : Bool)
  | int (n : Int)
  | decimal (number : Decimal)
  | str (s : String)
  | arr (items : List Json)
  | obj (members : List (String × Json))
deriving Inhabited, Repr

namespace Json

/-- The member of a list of members that a key stands for: the last one. -/
def member? (key : String) : List (String × Json) → Option Json
  | [] => none
  | (name, value) :: rest =>
    match member? key rest with
    | some value => some value
    | none => if name == key then some value else none

/-- The member of an object that a key stands for. -/
def get? (key : String) : Json → Option Json
  | obj members => member? key members
  | _ => none

/-- A digit in base sixteen, in lower case. -/
def hexDigit (n : Nat) : Char :=
  Nat.digitChar (n % 16)

/-- A character inside quotes. Only quotes, backslashes and control characters are escaped. -/
def escape (c : Char) : String :=
  if c == '"' then "\\\""
  else if c == '\\' then "\\\\"
  else if c == '\n' then "\\n"
  else if c == '\r' then "\\r"
  else if c == '\t' then "\\t"
  else if c == '\x08' then "\\b"
  else if c == '\x0c' then "\\f"
  else if c.toNat < 0x20 then
    String.ofList ['\\', 'u', '0', '0', hexDigit (c.toNat / 16), hexDigit c.toNat]
  else c.toString

/-- A text in quotes. -/
def quote (s : String) : String :=
  s.foldl (fun written c => written ++ escape c) "\"" ++ "\""

/-- The text of a decimal number. The power of ten is always written, so that it is no integer. -/
def number (n : Decimal) : String :=
  (if n.negative then "-" else "") ++ toString n.whole
    ++ (if n.places.isEmpty then "" else "." ++ String.join (n.places.map toString))
    ++ "e" ++ toString n.exponent

mutual

/-- Append the text of a document on one line. -/
def write (written : String) : Json → String
  | null => written ++ "null"
  | bool b => written ++ toString b
  | int n => written ++ toString n
  | decimal n => written ++ number n
  | str s => written ++ quote s
  | arr [] => written ++ "[]"
  | arr (item :: items) => writeItems (write (written ++ "[") item) items
  | obj [] => written ++ "\x7b\x7d"
  | obj ((key, value) :: members) =>
    writeMembers (write (written ++ "\x7b" ++ quote key ++ ":") value) members

/-- Append the items of an array after the first, and the closing bracket. -/
def writeItems (written : String) : List Json → String
  | [] => written ++ "]"
  | item :: items => writeItems (write (written ++ ",") item) items

/-- Append the members of an object after the first, and the closing brace. -/
def writeMembers (written : String) : List (String × Json) → String
  | [] => written ++ "\x7d"
  | (key, value) :: members =>
    writeMembers (write (written ++ "," ++ quote key ++ ":") value) members

end

/-- The text of a document on one line. -/
def compact (document : Json) : String :=
  write "" document

mutual

/-- Append the text of a document, laid out; `margin` is a line break and the indentation of the
line on which the document ends. -/
def writePretty (margin written : String) : Json → String
  | null => written ++ "null"
  | bool b => written ++ toString b
  | int n => written ++ toString n
  | decimal n => written ++ number n
  | str s => written ++ quote s
  | arr [] => written ++ "[]"
  | arr (item :: items) =>
    writePrettyItems margin (writePretty (margin ++ "  ") (written ++ "[" ++ margin ++ "  ") item)
      items
  | obj [] => written ++ "\x7b\x7d"
  | obj ((key, value) :: members) =>
    let opened := written ++ "\x7b" ++ margin ++ "  " ++ quote key ++ ": "
    writePrettyMembers margin (writePretty (margin ++ "  ") opened value) members

/-- Append the items of an array after the first, and the closing bracket. -/
def writePrettyItems (margin written : String) : List Json → String
  | [] => written ++ margin ++ "]"
  | item :: items =>
    writePrettyItems margin (writePretty (margin ++ "  ") (written ++ "," ++ margin ++ "  ") item)
      items

/-- Append the members of an object after the first, and the closing brace. -/
def writePrettyMembers (margin written : String) : List (String × Json) → String
  | [] => written ++ margin ++ "\x7d"
  | (key, value) :: members =>
    writePrettyMembers margin
      (writePretty (margin ++ "  ") (written ++ "," ++ margin ++ "  " ++ quote key ++ ": ") value)
      members

end

/-- The text of a document, laid out with two blanks for each level. -/
def pretty (document : Json) : String :=
  writePretty "\n" "" document

end Json

end FiberPrograms

import FiberPrograms.Text.Hidden

/-!
# Quoted text

How text is shown for diagnosis: in quotes, with the characters escaped that would not show, or
that would be mistaken for an end or for an escape.

## Main definitions

* `Text.quoted`: a text in double quotes
* `Text.quotedTwice`: a text in double quotes that could stand between single quotes as well
* `Text.quotedChar`: a character in single quotes
-/

namespace FiberPrograms.Text

/-- The digits of a number in base sixteen, in lower case. -/
def hex (n : Nat) : String :=
  String.ofList (Nat.toDigits 16 n)

/-- A character inside quotes, of which those in `quotes` are escaped. -/
def escape (quotes : List Char) (c : Char) : String :=
  if c == '\t' then "\\t"
  else if c == '\n' then "\\n"
  else if c == '\r' then "\\r"
  else if c == '\\' then "\\\\"
  else if c == '\x00' then "\\0"
  else if quotes.contains c then "\\" ++ c.toString
  else if isHidden c then "\\u\x7b" ++ hex c.toNat ++ "\x7d"
  else c.toString

/-- A text in double quotes, with the characters in `quotes` escaped. -/
def quotedWith (quotes : List Char) (s : String) : String :=
  s.foldl (fun written c => written ++ escape quotes c) "\"" ++ "\""

/-- A text in double quotes. -/
def quoted (s : String) : String :=
  quotedWith ['"'] s

/-- A text in double quotes, in which single quotes are escaped too. -/
def quotedTwice (s : String) : String :=
  quotedWith ['"', '\''] s

/-- A character in single quotes. -/
def quotedChar (c : Char) : String :=
  "'" ++ escape ['\''] c ++ "'"

end FiberPrograms.Text

/-!
# TOML strings in writing

A string can be written between one or three quotes of either kind. Between single quotes it
stands as it is; between double quotes a backslash starts an escape. The first form is taken
that needs no escape: double quotes, single quotes, three double quotes, three single quotes. If
every form needs escapes, the string goes between double quotes, three of them if it has several
lines.

## Main definitions

* `Toml.Form`, `Toml.form`: the forms, and the one that a string is written in
* `Toml.quote`: a string in writing
-/

namespace FiberPrograms.Toml

/-- The forms in which a string can be written. -/
inductive Form where
  | basic
  | literal
  | longBasic
  | longLiteral
deriving DecidableEq, Repr

namespace Form

/-- The quotes around a string. -/
def quotes : Form → List Char
  | basic => ['"']
  | literal => ['\'']
  | longBasic => ['"', '"', '"']
  | longLiteral => ['\'', '\'', '\'']

/-- Whether a string may have several lines. -/
def isLong : Form → Bool
  | longBasic | longLiteral => true
  | basic | literal => false

end Form

/-- The length of the longest run of a character, given that so many of them stand before. -/
def longestRun (c : Char) (before : Nat) : List Char → Nat
  | [] => before
  | d :: rest => if d == c then longestRun c (before + 1) rest else max before (longestRun c 0 rest)

/-- Whether a character can only be written as an escape. -/
def needsEscape (c : Char) : Bool :=
  c != '\t' && c != '\n' && (c.toNat ≤ 0x1f || c.toNat == 0x7f)

/-- Whether a string can be written in a form without escapes. -/
def fits (cs : List Char) : Form → Bool
  | .basic => !cs.any needsEscape && !cs.contains '\\' && !cs.contains '"' && !cs.contains '\n'
  | .literal => !cs.any needsEscape && !cs.contains '\'' && !cs.contains '\n'
  | .longBasic => !cs.any needsEscape && !cs.contains '\\' && longestRun '"' 0 cs ≤ 2
  | .longLiteral => !cs.any needsEscape && longestRun '\'' 0 cs ≤ 2

/-- The form that a string is written in. -/
def form (cs : List Char) : Form :=
  match [Form.basic, .literal, .longBasic, .longLiteral].find? (fits cs) with
  | some form => form
  | none => if cs.contains '\n' then .longBasic else .basic

/-- The code of a character in four digits. -/
def codeEscape (c : Char) : List Char :=
  let digit (n : Nat) : Char := (Nat.digitChar (n % 16)).toUpper
  ['\\', 'u', digit (c.toNat / 4096), digit (c.toNat / 256), digit (c.toNat / 16), digit c.toNat]

/-- The characters of a string between double quotes. With `long`, line breaks stand as they are,
and so do up to two double quotes in a row, of which `run` come before. -/
def escaped (long : Bool) (run : Nat) : List Char → List Char
  | [] => []
  | c :: rest =>
    if c == '"' then
      if long && run < 2 then c :: escaped long (run + 1) rest
      else '\\' :: '"' :: escaped long 0 rest
    else if c == '\x08' then '\\' :: 'b' :: escaped long 0 rest
    else if c == '\t' then '\\' :: 't' :: escaped long 0 rest
    else if c == '\n' && !long then '\\' :: 'n' :: escaped long 0 rest
    else if c == '\x0c' then '\\' :: 'f' :: escaped long 0 rest
    else if c == '\r' then '\\' :: 'r' :: escaped long 0 rest
    else if c == '\\' then '\\' :: '\\' :: escaped long 0 rest
    else if needsEscape c then codeEscape c ++ escaped long 0 rest
    else c :: escaped long 0 rest

/-- The characters of a string in writing. A string of several lines starts on a line of its
own. -/
def quoteChars (cs : List Char) : List Char :=
  let form := form cs
  let opening := if form.isLong && cs.contains '\n' then form.quotes ++ ['\n'] else form.quotes
  let body :=
    match form with
    | .basic => escaped false 0 cs
    | .longBasic => escaped true 0 cs
    | .literal | .longLiteral => cs
  opening ++ body ++ form.quotes

/-- A string in writing. -/
def quote (s : String) : String :=
  String.ofList (quoteChars s.toList)

end FiberPrograms.Toml

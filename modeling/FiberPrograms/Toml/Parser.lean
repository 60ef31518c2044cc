import FiberPrograms.Text.Hex
import FiberPrograms.Toml.Basic

/-!
# Reading TOML

A document is read line by line. A line is blank, or holds a header or an entry, and may end with
a comment. Characters that cannot be seen are no part of a document, apart from tabs and line
breaks; a line break is a line feed, or a carriage return and a line feed.

## Main definitions

* `Toml.parse?`: the table that a text is, if it is a document
-/

namespace FiberPrograms.Toml

open Text (hexValue? charOf?)

/-! ## Characters and blanks -/

/-- Whether a character may stand in a comment, and between quotes unless it ends them. -/
def isText (c : Char) : Bool :=
  c == '\t' || (0x20 ≤ c.toNat && c.toNat != 0x7f)

/-- Whether a character may stand in a key without quotes. -/
def isBare (c : Char) : Bool :=
  ('a' ≤ c && c ≤ 'z') || ('A' ≤ c && c ≤ 'Z') || ('0' ≤ c && c ≤ '9') || c == '_' || c == '-'

/-- Whether a character is a blank within a line. -/
def isBlank (c : Char) : Bool :=
  c == ' ' || c == '\t'

/-- Characters without the blanks in front. -/
def skipBlanks (cs : List Char) : List Char :=
  cs.dropWhile isBlank

/-- The characters after a line break, if there is one in front. -/
def newline? : List Char → Option (List Char)
  | '\n' :: rest => some rest
  | '\r' :: '\n' :: rest => some rest
  | _ => none

/-- Characters without the comment in front, if there is one. -/
def skipComment : List Char → List Char
  | '#' :: rest => rest.dropWhile isText
  | cs => cs

/-- The characters after the end of a line, before which only blanks and a comment may stand. -/
def endOfLine? (cs : List Char) : Option (List Char) :=
  match skipComment (skipBlanks cs) with
  | [] => some []
  | rest => newline? rest

/-- Characters without the blanks, comments and line breaks in front. -/
def skipFiller : (fuel : Nat) → List Char → List Char
  | 0, cs => cs
  | fuel + 1, cs =>
    let rest := skipComment (skipBlanks cs)
    match newline? rest with
    | some rest => skipFiller fuel rest
    | none => skipBlanks cs

/-- Characters without the blanks and line breaks in front. -/
def skipBlankLines : (fuel : Nat) → List Char → List Char
  | 0, cs => cs
  | fuel + 1, cs =>
    match newline? (skipBlanks cs) with
    | some rest => skipBlankLines fuel rest
    | none => skipBlanks cs

/-! ## Strings -/

/-- The character whose code is written in `count` digits. -/
def codeEscape? (count : Nat) (cs : List Char) : Option (Char × List Char) := do
  let digits := cs.take count
  if digits.length < count then none
  else
    let code ← digits.foldlM (fun n c => (hexValue? c).map (n * 16 + ·)) 0
    return (← charOf? code, cs.drop count)

/-- The character that an escape after a backslash stands for. -/
def escape? : List Char → Option (Char × List Char)
  | 'b' :: rest => some ('\x08', rest)
  | 't' :: rest => some ('\t', rest)
  | 'n' :: rest => some ('\n', rest)
  | 'f' :: rest => some ('\x0c', rest)
  | 'r' :: rest => some ('\r', rest)
  | '"' :: rest => some ('"', rest)
  | '\\' :: rest => some ('\\', rest)
  | 'u' :: rest => codeEscape? 4 rest
  | 'U' :: rest => codeEscape? 8 rest
  | _ => none

/-- The rest of a string in double quotes, after those characters `read` so far in reverse. -/
def basicString (read : List Char) : (fuel : Nat) → List Char → Option (String × List Char)
  | 0, _ => none
  | _ + 1, [] => none
  | _ + 1, '"' :: rest => some (String.ofList read.reverse, rest)
  | fuel + 1, '\\' :: rest =>
    match escape? rest with
    | some (c, rest) => basicString (c :: read) fuel rest
    | none => none
  | fuel + 1, c :: rest => if isText c then basicString (c :: read) fuel rest else none

/-- The rest of a string in single quotes. -/
def literalString (cs : List Char) : Option (String × List Char) :=
  match cs.dropWhile fun c => c != '\'' && isText c with
  | '\'' :: rest => some (String.ofList (cs.takeWhile fun c => c != '\'' && isText c), rest)
  | _ => none

/-- The rest of a string in three quotes of a kind, after those characters `read` so far in
reverse. Up to two quotes more may stand before the three that end it. With `escapes`, a
backslash starts an escape; one at the end of a line takes the blanks and line breaks after it
away. -/
def longString (quote : Char) (escapes : Bool) (read : List Char) :
    (fuel : Nat) → List Char → Option (String × List Char)
  | 0, _ => none
  | _ + 1, [] => none
  | fuel + 1, c :: rest =>
    if c == quote then
      let quotes := (c :: rest).takeWhile (· == quote)
      if quotes.length < 3 then longString quote escapes (c :: read) fuel rest
      else
        let more := min (quotes.length - 3) 2
        some (String.ofList (read.reverse ++ List.replicate more quote),
          (c :: rest).drop (more + 3))
    else if escapes && c == '\\' then
      match newline? (skipBlanks rest) with
      | some rest =>
        longString quote escapes read fuel (skipBlankLines rest.length rest)
      | none =>
        match escape? rest with
        | some (c, rest) => longString quote escapes (c :: read) fuel rest
        | none => none
    else
      match newline? (c :: rest) with
      | some rest => longString quote escapes ('\n' :: read) fuel rest
      | none => if isText c then longString quote escapes (c :: read) fuel rest else none

/-- The rest of a string in three quotes. A line break right after the quotes is no part of it. -/
def longStringBody (quote : Char) (escapes : Bool) (cs : List Char) : Option (String × List Char) :=
  let cs := (newline? cs).getD cs
  longString quote escapes [] (cs.length + 1) cs

/-! ## Keys -/

/-- A key without dots. -/
def simpleKey? : List Char → Option (String × List Char)
  | '"' :: rest => basicString [] (rest.length + 1) rest
  | '\'' :: rest => literalString rest
  | cs =>
    match cs.takeWhile isBare with
    | [] => none
    | bare => some (String.ofList bare, cs.dropWhile isBare)

/-- The parts of a key before the last dot, and the part behind it. -/
def keyParts? : (fuel : Nat) → List Char → Option ((List String × String) × List Char)
  | 0, _ => none
  | fuel + 1, cs =>
    match simpleKey? (skipBlanks cs) with
    | none => none
    | some (part, rest) =>
      match skipBlanks rest with
      | '.' :: rest =>
        (keyParts? fuel rest).map fun ((path, key), rest) => ((part :: path, key), rest)
      | rest => some (([], part), rest)

/-- How many parts a key can have before its last dot. -/
def keyLimit : Nat := 78

/-- A key: the parts before the last dot, and the part behind it. -/
def key? (cs : List Char) : Option ((List String × String) × List Char) :=
  match keyParts? cs.length cs with
  | some ((path, key), rest) =>
    if path.length ≤ keyLimit then some ((path, key), rest) else none
  | none => none

/-! ## Numbers -/

/-- Digits after the first. An underscore may stand between two of them. -/
def moreDigits (isDigit : Char → Bool) : List Char → List Char × List Char
  | '_' :: c :: rest =>
    if isDigit c then
      let (digits, rest) := moreDigits isDigit rest
      (c :: digits, rest)
    else ([], '_' :: c :: rest)
  | c :: rest =>
    if isDigit c then
      let (digits, rest) := moreDigits isDigit rest
      (c :: digits, rest)
    else ([], c :: rest)
  | [] => ([], [])

/-- At least one digit. -/
def digits? (isDigit : Char → Bool) : List Char → Option (List Char × List Char)
  | c :: rest =>
    if isDigit c then
      let (digits, rest) := moreDigits isDigit rest
      some (c :: digits, rest)
    else none
  | [] => none

/-- The number that digits in a base are. -/
def ofDigits (base : Nat) (digits : List Char) : Nat :=
  digits.foldl (fun n c => n * base + (hexValue? c).getD 0) 0

/-- Whether a character is a digit in a base. -/
def isDigitIn (base : Nat) (c : Char) : Bool :=
  ((hexValue? c).map fun digit => decide (digit < base)).getD false

/-- An integer, if it is in range. -/
def inRange? (n : Int) : Option Toml :=
  if Int64.minValue.toInt ≤ n ∧ n ≤ Int64.maxValue.toInt then some (.int n) else none

/-- An integer in a base other than ten, after the mark of the base. -/
def based? (base : Nat) (cs : List Char) : Option (Toml × List Char) := do
  let (digits, rest) ← digits? (isDigitIn base) cs
  let n ← inRange? (ofDigits base digits)
  some (n, rest)

/-- The sign in front of a number. -/
def sign : List Char → Bool × List Char
  | '-' :: rest => (true, rest)
  | '+' :: rest => (false, rest)
  | cs => (false, cs)

/-- The digits after a point, if there is a point. -/
def fraction? : List Char → Option (Option (List Char) × List Char)
  | '.' :: rest => (digits? (isDigitIn 10) rest).map fun (digits, rest) => (some digits, rest)
  | cs => some (none, cs)

/-- The power of ten behind a number, if there is one. -/
def exponent? : List Char → Option (Option Int × List Char)
  | e :: rest =>
    if e == 'e' || e == 'E' then
      let (negative, rest) := sign rest
      (digits? (isDigitIn 10) rest).map fun (digits, rest) =>
        let n : Int := ofDigits 10 digits
        (some (if negative then -n else n), rest)
    else some (none, e :: rest)
  | [] => some (none, [])

/-- A decimal number, after its sign. A leading zero stands alone, and a number with a point has
to be less than infinite. -/
def decimal? (negative : Bool) (cs : List Char) : Option (Toml × List Char) := do
  let (whole, rest) ← digits? (isDigitIn 10) cs
  if whole.length > 1 && whole.head? == some '0' then none
  else
    let (fraction, rest) ← fraction? rest
    let (exponent, rest) ← exponent? rest
    if fraction.isNone && exponent.isNone then
      let magnitude : Int := ofDigits 10 whole
      let n ← inRange? (if negative then -magnitude else magnitude)
      some (n, rest)
    else
      let fraction := fraction.getD []
      let x := Binary64.ofDecimal negative (ofDigits 10 (whole ++ fraction))
        (exponent.getD 0 - fraction.length)
      if x = .infinite false then none else some (.float x, rest)

/-- A number. -/
def number? : List Char → Option (Toml × List Char)
  | '0' :: 'x' :: rest => based? 16 rest
  | '0' :: 'o' :: rest => based? 8 rest
  | '0' :: 'b' :: rest => based? 2 rest
  | cs =>
    let (negative, rest) := sign cs
    match rest with
    | 'i' :: 'n' :: 'f' :: rest => some (.float (.infinite negative), rest)
    | 'n' :: 'a' :: 'n' :: rest => some (.float .nan, rest)
    | rest => decimal? negative rest

/-! ## Dates and times -/

/-- A number of exactly `count` digits. -/
def fixed? (count : Nat) (cs : List Char) : Option (Nat × List Char) :=
  let digits := cs.take count
  if digits.length = count ∧ digits.all (isDigitIn 10) then
    some (ofDigits 10 digits, cs.drop count)
  else none

/-- The character that has to stand in front. -/
def expect? (c : Char) : List Char → Option (List Char)
  | d :: rest => if d == c then some rest else none
  | [] => none

/-- A number in digits, with zeros in front up to a width. -/
def padded (width n : Nat) : String :=
  let digits := Nat.toDigits 10 n
  String.ofList (List.replicate (width - digits.length) '0' ++ digits)

/-- The number of days of a month. -/
def daysIn (year month : Nat) : Nat :=
  if month = 2 then
    if year % 4 = 0 ∧ (year % 100 ≠ 0 ∨ year % 400 = 0) then 29 else 28
  else if month = 4 ∨ month = 6 ∨ month = 9 ∨ month = 11 then 30
  else 31

/-- A day of the calendar. -/
def date? (cs : List Char) : Option (String × List Char) := do
  let (year, rest) ← fixed? 4 cs
  let (month, rest) ← fixed? 2 (← expect? '-' rest)
  let (day, rest) ← fixed? 2 (← expect? '-' rest)
  if 1 ≤ month ∧ month ≤ 12 ∧ 1 ≤ day ∧ day ≤ daysIn year month then
    some (padded 4 year ++ "-" ++ padded 2 month ++ "-" ++ padded 2 day, rest)
  else none

/-- The part of a second, of which nine digits count and zeros at the end are not written. -/
def secondFraction (digits : List Char) : String :=
  let counted := (digits.take 9).reverse.dropWhile (· == '0')
  if counted.isEmpty then "" else "." ++ String.ofList counted.reverse

/-- A time of day. -/
def time? (cs : List Char) : Option (String × List Char) := do
  let (hour, rest) ← fixed? 2 cs
  let (minute, rest) ← fixed? 2 (← expect? ':' rest)
  let (second, rest) ← fixed? 2 (← expect? ':' rest)
  if hour < 24 ∧ minute < 60 ∧ second ≤ 60 then
    let text := padded 2 hour ++ ":" ++ padded 2 minute ++ ":" ++ padded 2 second
    match rest with
    | '.' :: rest =>
      match rest.takeWhile (isDigitIn 10) with
      | [] => none
      | digits => some (text ++ secondFraction digits, rest.dropWhile (isDigitIn 10))
    | rest => some (text, rest)
  else none

/-- The distance from universal time, if it is given. -/
def offset? : List Char → Option (String × List Char)
  | 'Z' :: rest => some ("Z", rest)
  | 'z' :: rest => some ("Z", rest)
  | c :: rest =>
    if c == '+' || c == '-' then do
      let (hours, rest) ← fixed? 2 rest
      let (minutes, rest) ← fixed? 2 (← expect? ':' rest)
      if hours < 24 ∧ minutes < 60 then
        let mark := if c == '-' && (hours != 0 || minutes != 0) then "-" else "+"
        some (mark ++ padded 2 hours ++ ":" ++ padded 2 minutes, rest)
      else none
    else some ("", c :: rest)
  | [] => some ("", [])

/-- A date, a time, or both. The two may be parted by a blank, but then a time has to follow. -/
def moment? (cs : List Char) : Option (String × List Char) :=
  match date? cs with
  | none => time? cs
  | some (day, rest) =>
    let both (rest : List Char) : Option (String × List Char) := do
      let (time, rest) ← time? rest
      let (offset, rest) ← offset? rest
      some (day ++ "T" ++ time ++ offset, rest)
    match rest with
    | 'T' :: rest => both rest
    | 't' :: rest => both rest
    | ' ' :: c :: more =>
      if isDigitIn 10 c then both (c :: more) else some (day, rest)
    | _ => some (day, rest)

/-- Whether what stands in front can only be a date or a time. -/
def looksLikeMoment (cs : List Char) : Bool :=
  match fixed? 4 cs, fixed? 2 cs with
  | some (_, '-' :: _), _ => true
  | _, some (_, ':' :: _) => true
  | _, _ => false

/-! ## Values -/

/-- Items with commas between them, up to a closing bracket. A comma may stand behind the last. -/
def items (item : List Char → Option (Toml × List Char)) :
    (fuel : Nat) → List Char → Option (List Toml × List Char)
  | 0, _ => none
  | fuel + 1, cs =>
    match skipFiller cs.length cs with
    | ']' :: rest => some ([], rest)
    | cs =>
      match item cs with
      | none => none
      | some (first, rest) =>
        match skipFiller rest.length rest with
        | ']' :: rest => some ([first], rest)
        | ',' :: rest => (items item fuel rest).map fun (others, rest) => (first :: others, rest)
        | _ => none

/-- An entry: a key, an equals sign and a value. -/
def entry? (item : List Char → Option (Toml × List Char)) (cs : List Char) :
    Option (((List String × String) × Toml) × List Char) := do
  let (key, rest) ← key? cs
  let rest ← expect? '=' (skipBlanks rest)
  let (value, rest) ← item (skipBlanks rest)
  some ((key, value), rest)

/-- Entries with commas between them, up to a closing brace, added to those `read` so far. -/
def inlineEntries (item : List Char → Option (Toml × List Char)) (read : Entries) :
    (fuel : Nat) → List Char → Option (Entries × List Char)
  | 0, _ => none
  | fuel + 1, cs =>
    match entry? item cs with
    | none => none
    | some (((path, key), value), rest) =>
      match read.add path key value with
      | none => none
      | some read =>
        match skipBlanks rest with
        | '\x7d' :: rest => some (read, rest)
        | ',' :: rest => inlineEntries item read fuel rest
        | _ => none

/-- A value without others inside. -/
def plainValue? (cs : List Char) : Option (Toml × List Char) :=
  match cs with
  | '"' :: '"' :: '"' :: rest =>
    (longStringBody '"' true rest).map fun (s, rest) => (.str s, rest)
  | '\'' :: '\'' :: '\'' :: rest =>
    (longStringBody '\'' false rest).map fun (s, rest) => (.str s, rest)
  | '"' :: rest => (basicString [] (rest.length + 1) rest).map fun (s, rest) => (.str s, rest)
  | '\'' :: rest => (literalString rest).map fun (s, rest) => (.str s, rest)
  | 't' :: 'r' :: 'u' :: 'e' :: rest => some (.bool true, rest)
  | 'f' :: 'a' :: 'l' :: 's' :: 'e' :: rest => some (.bool false, rest)
  | cs =>
    if looksLikeMoment cs then (moment? cs).map fun (text, rest) => (.date text, rest)
    else number? cs

/-- A value in which arrays and tables are nested at most `depth` deep. -/
def value? : (depth : Nat) → List Char → Option (Toml × List Char)
  | 0, '[' :: _ => none
  | 0, '\x7b' :: _ => none
  | 0, cs => plainValue? cs
  | depth + 1, '[' :: rest =>
    (items (value? depth) (rest.length + 1) rest).map fun (read, rest) => (.arr read, rest)
  | depth + 1, '\x7b' :: rest =>
    match skipBlanks rest with
    | '\x7d' :: rest => some (.table [], rest)
    | rest =>
      (inlineEntries (value? depth) [] (rest.length + 1) rest).map fun (read, rest) =>
        (.table (closeEntries read), rest)
  | _ + 1, cs => plainValue? cs

/-- How deep values may be nested. -/
def depthLimit : Nat := 79

/-! ## Documents -/

/-- What has been read of a document: the entries, and the path of the table that is being added
to. -/
structure Draft where
  entries : Entries := []
  path : List String := []

/-- The key of a header, and the characters after it, of which `closing` are the brackets. -/
def header? (closing : List Char) (cs : List Char) : Option ((List String × String) × List Char) :=
  match key? cs with
  | none => none
  | some (key, rest) =>
    if closing.isPrefixOf rest then some (key, rest.drop closing.length) else none

/-- Read what a line holds. -/
def line? (draft : Draft) (cs : List Char) : Option (Draft × List Char) :=
  match cs with
  | '[' :: '[' :: rest => do
    let ((path, key), rest) ← header? [']', ']'] rest
    let entries ← draft.entries.openElement path key
    some (⟨entries, path ++ [key]⟩, rest)
  | '[' :: rest => do
    let ((path, key), rest) ← header? [']'] rest
    let entries ← draft.entries.openTable path key
    some (⟨entries, path ++ [key]⟩, rest)
  | '#' :: _ => some (draft, cs)
  | '\n' :: _ => some (draft, cs)
  | '\r' :: _ => some (draft, cs)
  | [] => some (draft, cs)
  | cs => do
    let (((path, key), value), rest) ← entry? (value? depthLimit) cs
    let entries ← draft.entries.within false draft.path
      (fun _ table => Entries.add path key value table) none
    some (⟨entries, draft.path⟩, rest)

/-- Read the lines of a document. -/
def lines? (draft : Draft) : (fuel : Nat) → List Char → Option Draft
  | 0, _ => none
  | _ + 1, [] => some draft
  | fuel + 1, cs =>
    match line? draft (skipBlanks cs) with
    | none => none
    | some (draft, rest) =>
      match endOfLine? rest with
      | none => none
      | some rest => lines? draft fuel rest

/-- The table that a text is, if it is a document. -/
def parse? (text : String) : Option (List (String × Toml)) :=
  let cs := text.toList
  (lines? {} (cs.length + 1) cs).map fun draft => closeEntries draft.entries

end FiberPrograms.Toml

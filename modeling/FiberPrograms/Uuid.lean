/-!
# Universally unique identifiers

Outside of a session, fibers are known by 128-bit identifiers. They are written as 32 digits in
base sixteen, in five groups with hyphens between them. For reading, the digits may be of either
case; the hyphens may all be left out; and the hyphenated form may stand in braces or behind
`urn:uuid:`.

## Main definitions

* `Uuid`: identifiers
* `Uuid.text`: how an identifier is written
* `Uuid.parse?`: the identifier that a text is, if it is one
* `Uuid.ofRandom`: the identifier made of random bits
-/

namespace FiberPrograms

/-- The number of identifiers: they have 128 bits. -/
def Uuid.count : Nat := 0x100000000000000000000000000000000

/-- A 128-bit identifier. -/
structure Uuid where
  value : Nat
  value_lt : value < Uuid.count
deriving DecidableEq

namespace Uuid

/-- The value of a digit in base sixteen. -/
def digitValue? (c : Char) : Option Nat :=
  if '0' ≤ c ∧ c ≤ '9' then some (c.toNat - '0'.toNat)
  else if 'a' ≤ c ∧ c ≤ 'f' then some (c.toNat - 'a'.toNat + 10)
  else if 'A' ≤ c ∧ c ≤ 'F' then some (c.toNat - 'A'.toNat + 10)
  else none

/-- The number that digits in base sixteen are. -/
def ofDigits? (digits : List Char) : Option Nat :=
  digits.foldlM (fun n c => (digitValue? c).map (n * 16 + ·)) 0

/-- The last digits of a number in base sixteen, the highest first. -/
def digits : (count : Nat) → Nat → List Char
  | 0, _ => []
  | count + 1, n => digits count (n / 16) ++ [Nat.digitChar (n % 16)]

/-- Characters in groups of the given sizes, with hyphens between them. -/
def hyphenate : List Nat → List Char → List Char
  | [], cs => cs
  | [_], cs => cs
  | size :: sizes, cs => cs.take size ++ '-' :: hyphenate sizes (cs.drop size)

/-- The sizes of the groups of digits. -/
def groups : List Nat := [8, 4, 4, 4, 12]

/-- How an identifier is written. -/
def text (id : Uuid) : String :=
  String.ofList (hyphenate groups (digits 32 id.value))

/-- The characters of groups of the given sizes without the hyphens between them, if these are
where they should be. -/
def unhyphenate? : List Nat → List Char → Option (List Char)
  | [], cs => if cs.isEmpty then some [] else none
  | [size], cs => if cs.length = size then some cs else none
  | size :: sizes, cs =>
    match cs.drop size with
    | '-' :: rest => (unhyphenate? sizes rest).map (cs.take size ++ ·)
    | _ => none

/-- The identifier of a number, if it is small enough. -/
def ofNat? (n : Nat) : Option Uuid :=
  if h : n < count then some ⟨n, h⟩ else none

/-- The identifier in the hyphenated form. -/
def ofHyphenated? (cs : List Char) : Option Uuid := do
  let digits ← unhyphenate? groups cs
  ofNat? (← ofDigits? digits)

/-- What may stand before the hyphenated form, in either case. -/
def urn : List Char := "urn:uuid:".toList

/-- The identifier that characters are, if they are one. -/
def ofChars? (cs : List Char) : Option Uuid :=
  if cs.length = 32 then (ofDigits? cs).bind ofNat?
  else if cs.length = 36 then ofHyphenated? cs
  else if cs.length = 38 then
    if cs.head? = some '\x7b' ∧ cs.getLast? = some '\x7d' then ofHyphenated? (cs.drop 1).dropLast
    else none
  else if (cs.take 9).map Char.toLower = urn then ofHyphenated? (cs.drop 9)
  else none

/-- The identifier that a text is, if it is one. -/
def parse? (s : String) : Option Uuid :=
  ofChars? s.toList

/-- How an identifier is shown for diagnosis. -/
def shown (id : Uuid) : String :=
  "FiberId(" ++ id.text ++ ")"

/-- The identifier made of random bits: of the 128 bits, six are fixed and mark the kind of
identifier. -/
def ofRandom (bits : Nat) : Uuid where
  value :=
    let low := bits % 0x4000000000000000
    let middle := bits / 0x4000000000000000 % 0x1000
    let high := bits / 0x4000000000000000000 % 0x1000000000000
    ((high * 0x10 + 4) * 0x1000 + middle) * 0x10000000000000000 + (0x8000000000000000 + low)
  value_lt := by
    dsimp only [count]
    omega

end Uuid

end FiberPrograms

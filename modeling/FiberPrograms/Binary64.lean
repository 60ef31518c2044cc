/-!
# Binary numbers of 64 bits

Numbers with a point are kept as binary floating-point numbers: a mantissa of at most 53 bits
times a power of two. A decimal number stands for the nearest of them; of two that are equally
near, for the one with the even mantissa. A binary number is written in the fewest decimal digits
that stand for it again, without an exponent.

## Main definitions

* `Binary64`: finite numbers, infinities, and what is no number
* `Binary64.ofDecimal`: the number that a decimal number stands for
* `Binary64.ofDecimalInSteps?`: the number that it comes to when it is rounded at every step
* `Binary64.round`: the nearest integer, a half going away from zero
* `Binary64.text`: how a number is written
-/

namespace FiberPrograms

/-- A binary floating-point number of 64 bits. -/
inductive Binary64 where
  /-- The number `mantissa * 2 ^ exponent`, possibly negated. -/
  | finite (negative : Bool) (mantissa : Nat) (exponent : Int)
  | infinite (negative : Bool)
  | nan
deriving DecidableEq, Repr

namespace Binary64

/-- The fraction `n * b ^ e` as a numerator and a denominator. -/
def scale (n b : Nat) (e : Int) : Nat × Nat :=
  if 0 ≤ e then (n * Nat.pow b e.toNat, 1) else (n, Nat.pow b (-e).toNat)

/-- The integer nearest to a fraction, a half going to the even one. -/
def divEven (num den : Nat) : Nat :=
  let q := num / den
  let r := num % den
  if 2 * r < den then q
  else if 2 * r = den then q + q % 2
  else q + 1

/-- The number of mantissas: they have 53 bits. -/
def mantissaCount : Nat := 0x20000000000000

/-- The smallest exponent. -/
def minExponent : Int := -1074

/-- The largest exponent. -/
def maxExponent : Int := 971

/-- The number nearest to a positive fraction. -/
def ofFraction (negative : Bool) (num den : Nat) : Binary64 :=
  let guess : Int := (num.log2 : Int) - den.log2 - 53
  let exponent :=
    let (n, d) := scale den 2 guess
    if num * d < mantissaCount * n then guess else guess + 1
  let exponent := max exponent minExponent
  let (n, d) := scale den 2 exponent
  let mantissa := divEven (num * d) n
  let (mantissa, exponent) :=
    if mantissa = mantissaCount then (mantissaCount / 2, exponent + 1) else (mantissa, exponent)
  if maxExponent < exponent then .infinite negative else .finite negative mantissa exponent

/-- The number of decimal digits of a number. -/
def digitCount (n : Nat) : Nat :=
  (Nat.toDigits 10 n).length

/-- The number that the decimal number `mantissa * 10 ^ exponent`, possibly negated, stands for.
What is beyond all bounds is not worked out exactly. -/
def ofDecimal (negative : Bool) (mantissa : Nat) (exponent : Int) : Binary64 :=
  let magnitude : Int := digitCount mantissa + exponent
  if mantissa = 0 ∨ magnitude < -400 then .finite negative 0 minExponent
  else if 400 < magnitude then .infinite negative
  else
    let (num, den) := scale mantissa 10 exponent
    ofFraction negative num den

/-- The largest power of ten that is used to scale a number. -/
def maxPower : Int := 308

/-- A finite number times or over a power of ten, the power and the result being rounded each on
its own. What is no finite number stays. -/
def timesPower (x : Binary64) (exponent : Int) : Binary64 :=
  match x, ofDecimal false 1 exponent.natAbs with
  | finite negative mantissa e, finite _ mantissa' e' =>
    if mantissa = 0 then x
    else
      let (num, den) := scale mantissa 2 e
      let (num', den') := scale mantissa' 2 e'
      if 0 ≤ exponent then ofFraction negative (num * num') (den * den')
      else ofFraction negative (num * den') (den * num')
  | _, _ => x

/-- The first digits of a number, as many as fit into 64 bits, and how many are left out. -/
def leading (n : Nat) : Nat × Nat :=
  if n < 0x10000000000000000 then (n, 0)
  else
    let (digits, rest) := leading (n / 10)
    (digits, rest + 1)
decreasing_by omega

/-- A number of 64 bits followed by as many of the given digits as fit as well, and how many do. -/
def extended (n : Nat) : List Nat → Nat × Nat
  | [] => (n, 0)
  | digit :: rest =>
    if n * 10 + digit < 0x10000000000000000 then
      let (digits, taken) := extended (n * 10 + digit) rest
      (digits, taken + 1)
    else (n, 0)

/-- A number that a decimal number, given by the digits before and behind its point and a power of
ten, comes to in three roundings: its first digits are taken for a whole number, which is scaled
by a power of ten, in several steps if need be. Digits are taken as long as the number fits into
64 bits; where those before the point end early, those behind it are still tried. Nothing if
that goes beyond all bounds. The result can differ from `ofDecimal` in the last bit, or further up
if digits were left out in the middle. -/
def ofDecimalInSteps? (negative : Bool) (whole : Nat) (places : List Nat) (exponent : Int) :
    Option Binary64 :=
  let (first, rest) := leading whole
  let (digits, taken) := extended first places
  let exponent := exponent + rest - taken
  let x := ofDecimal negative digits 0
  if digits = 0 then some x
  else if maxPower < exponent then none
  else
    let x := if exponent < -maxPower then x.timesPower (-maxPower) else x
    let exponent := if exponent < -maxPower then exponent + maxPower else exponent
    let x :=
      if exponent < -maxPower then .finite negative 0 minExponent else x.timesPower exponent
    match x with
    | infinite _ => none
    | x => some x

/-- The integer nearest to a number, a half going away from zero; nothing for what is not
finite. -/
def round : Binary64 → Option Int
  | finite negative mantissa exponent =>
    let (num, den) := scale mantissa 2 exponent
    let magnitude : Int := ((2 * num + den) / (2 * den) : Nat)
    some (if negative then -magnitude else magnitude)
  | _ => none

/-- The decimal number `d * 10 ^ e` with the fewest digits among those whose nearest binary number
is `mantissa * 2 ^ exponent`: of two with as few digits, the nearer, or else the larger. The
search starts at the power of ten `e` and goes down. -/
def shortestFrom (mantissa : Nat) (exponent : Int) : (fuel : Nat) → (e : Int) → Nat × Int
  | 0, e => (0, e)
  | fuel + 1, e =>
    let below : Nat := if mantissa = mantissaCount / 2 ∧ minExponent < exponent then 1 else 2
    let (unit, den) := scale 1 2 (exponent - 2)
    let (tenNum, tenDen) := scale 1 10 e
    -- all quantities below are multiples of one over `den * tenDen`
    let value := 4 * mantissa * unit * tenDen
    let low := (4 * mantissa - below) * unit * tenDen
    let high := (4 * mantissa + 2) * unit * tenDen
    let step := tenNum * den
    let inside (d : Nat) : Bool :=
      if mantissa % 2 = 0 then low ≤ d * step && d * step ≤ high
      else low < d * step && d * step < high
    let d := value / step
    let lowerInside := d != 0 && inside d
    let upperInside := inside (d + 1)
    if lowerInside && upperInside then
      if 2 * (value - d * step) < step then (d, e) else (d + 1, e)
    else if lowerInside then (d, e)
    else if upperInside then (d + 1, e)
    else shortestFrom mantissa exponent fuel (e - 1)

/-- The decimal number with the fewest digits that stands for a positive binary number. -/
def shortest (mantissa : Nat) (exponent : Int) : Nat × Int :=
  let (num, den) := scale mantissa 2 exponent
  let top : Int := (digitCount num : Int) - digitCount den + 1
  shortestFrom mantissa exponent 30 top

/-- The decimal number `d * 10 ^ e` without an exponent. -/
def positional (d : Nat) (e : Int) : String :=
  let digits := Nat.toDigits 10 d
  if 0 ≤ e then String.ofList (digits ++ List.replicate e.toNat '0')
  else
    let places := (-e).toNat
    let digits := List.replicate (places + 1 - digits.length) '0' ++ digits
    let whole := digits.take (digits.length - places)
    String.ofList (whole ++ '.' :: digits.drop (digits.length - places))

/-- How a number is written. -/
def text : Binary64 → String
  | nan => "NaN"
  | infinite negative => if negative then "-inf" else "inf"
  | finite negative mantissa exponent =>
    let magnitude :=
      if mantissa = 0 then "0"
      else
        let (d, e) := shortest mantissa exponent
        positional d e
    if negative then "-" ++ magnitude else magnitude

end Binary64

end FiberPrograms

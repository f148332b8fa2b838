/-!
# Numbers in binary64

Numbers of the 64-bit binary format, as a sign, a mantissa and a power of two. Reading a decimal
number takes the nearest of them, ties going to the even mantissa.

## Main definitions

- `Binary64` — a number of the format, an infinity, or the value that is no number
- `Binary64.ofDecimal` — the number nearest to a decimal one
- `Binary64.toInt?` — the integer that a number is, if it is one
-/

namespace TwoStage

/-- A number of the 64-bit binary format. A finite one is `mantissa * 2 ^ exponent`, with a mantissa
below `2 ^ 53` and an exponent of at least `-1074`. -/
inductive Binary64 where
  | finite (negative : Bool) (mantissa : Nat) (exponent : Int)
  | infinite (negative : Bool)
  | nan
  deriving Repr, DecidableEq

namespace Binary64

/-- The quotient rounded to the nearest integer, halves to the even neighbour. -/
def divRound (num den : Nat) : Nat :=
  let q := num / den
  let r := num % den
  if 2 * r < den then q else if den < 2 * r then q + 1 else if q % 2 = 0 then q else q + 1

/-- The least exponent of a finite number. -/
def leastExponent : Int := -1074

/-- The greatest exponent of a finite number. -/
def greatestExponent : Int := 971

/-- The nearest number of the format to `num / den`, which is not zero. -/
def ofRatio (negative : Bool) (num den : Nat) : Binary64 :=
  let scale : Int := (Nat.log2 num : Int) - (Nat.log2 den : Int)
  let below :=
    if 0 ≤ scale then num < den * Nat.pow 2 scale.toNat else num * Nat.pow 2 (-scale).toNat < den
  let exponent := max leastExponent (if below then scale - 53 else scale - 52)
  let mantissa :=
    if 0 ≤ exponent then divRound num (den * Nat.pow 2 exponent.toNat)
    else divRound (num * Nat.pow 2 (-exponent).toNat) den
  let (mantissa, exponent) :=
    if mantissa = Nat.pow 2 53 then (Nat.pow 2 52, exponent + 1) else (mantissa, exponent)
  if greatestExponent < exponent then infinite negative else finite negative mantissa exponent

/-- The number nearest to `digits * 10 ^ power`. -/
def ofDecimal (negative : Bool) (digits : Nat) (power : Int) : Binary64 :=
  if digits = 0 then finite negative 0 leastExponent
  else
    let leading : Int := power + (Nat.toDigits 10 digits).length
    if 400 < leading then infinite negative
    else if leading < -400 then finite negative 0 leastExponent
    else if 0 ≤ power then ofRatio negative (digits * Nat.pow 10 power.toNat) 1
    else ofRatio negative digits (Nat.pow 10 (-power).toNat)

/-- Whether the number is zero, of either sign. -/
def isZero : Binary64 → Bool
  | finite _ mantissa _ => mantissa == 0
  | _ => false

/-- The integer that a finite number is, if it has no fractional part. -/
def toInt? : Binary64 → Option Int
  | finite negative mantissa exponent =>
    let size : Option Nat :=
      if 0 ≤ exponent then some (mantissa * Nat.pow 2 exponent.toNat)
      else if mantissa % Nat.pow 2 (-exponent).toNat = 0 then
        some (mantissa / Nat.pow 2 (-exponent).toNat)
      else none
    size.map fun n => if negative then -(n : Int) else n
  | _ => none

end Binary64

end TwoStage

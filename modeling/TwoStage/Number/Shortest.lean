import TwoStage.Number.Binary64

/-!
# The shortest decimal text of a number

A finite number is written with the fewest significant digits that read back as the same number,
and of several such texts with the one nearest to it.

## Main definitions

- `Binary64.shortest` — those digits, and where the decimal point stands
- `Binary64.text` — the number as messages show it
-/

namespace TwoStage.Binary64

/-- `num * 10 ^ power / den` as a quotient of two naturals. -/
def scaled (num den : Nat) (power : Int) : Nat × Nat :=
  if 0 ≤ power then (num * Nat.pow 10 power.toNat, den)
  else (num, den * Nat.pow 10 (-power).toNat)

/-- The value of a mantissa and a power of two as a quotient of two naturals. -/
def ratio (mantissa : Nat) (exponent : Int) : Nat × Nat :=
  if 0 ≤ exponent then (mantissa * Nat.pow 2 exponent.toNat, 1)
  else (mantissa, Nat.pow 2 (-exponent).toNat)

/-- Whether the grid point `digits * 10 ^ power` reads back as `mantissa * 2 ^ exponent`: it lies
nearer than halfway to either neighbour, or halfway when the mantissa is even. All is compared in
quarters of the unit of the mantissa. -/
def readsBack (mantissa : Nat) (exponent : Int) (digits : Nat) (power : Int) : Bool :=
  let (num, den) := scaled (4 * digits) 1 power
  let (unit, unitDen) := ratio 1 exponent
  let point := num * unitDen
  let perQuarter := den * unit
  let atPowerOfTwo := mantissa == Nat.pow 2 52 && leastExponent < exponent
  let low := (4 * mantissa - if atPowerOfTwo then 1 else 2) * perQuarter
  let high := (4 * mantissa + 2) * perQuarter
  if mantissa % 2 = 0 then low ≤ point && point ≤ high else low < point && point < high

/-- The number of decimal digits before the point of `num / den`; zero or less below one tenth. -/
def magnitude (num den : Nat) : Int :=
  if den ≤ num then ((Nat.toDigits 10 (num / den)).length : Int)
  else 1 - ((Nat.toDigits 10 ((den - 1) / num)).length : Int)

/-- Tries grids of one digit more each time; the first grid with a point that reads back wins. -/
def shortestFrom (mantissa : Nat) (exponent places : Int) : (tries digits : Nat) → Nat × Int
  | 0, _ => (mantissa, places)
  | tries + 1, digits =>
    let power := places - digits
    let (num, den) := ratio mantissa exponent
    let (num, den) := scaled num den (-power)
    let down := num / den
    let up := down + 1
    let downFits := readsBack mantissa exponent down power
    let upFits := readsBack mantissa exponent up power
    if downFits && upFits then
      let rest := 2 * (num % den)
      if rest < den || (rest == den && down % 2 == 0) then (down, power) else (up, power)
    else if downFits then (down, power)
    else if upFits then (up, power)
    else shortestFrom mantissa exponent places tries (digits + 1)

/-- The fewest digits that read back as the number, as an integer and a power of ten. -/
def shortest (mantissa : Nat) (exponent : Int) : Nat × Int :=
  let (num, den) := ratio mantissa exponent
  shortestFrom mantissa exponent (magnitude num den) 17 1

/-- The digits of a positive integer without its trailing zeros. -/
def significant (n : Nat) : List Char :=
  ((Nat.toDigits 10 n).reverse.dropWhile (· == '0')).reverse

/-- Digits with the point after `places` of them: in full when the point is near, with an exponent
of at least two digits when it is far. -/
def placed (digits : List Char) (places : Int) : List Char :=
  if -4 < places && places ≤ 16 then
    if places ≤ 0 then '0' :: '.' :: List.replicate (-places).toNat '0' ++ digits
    else
      let whole := digits.take places.toNat
      let fraction := digits.drop places.toNat
      whole ++ List.replicate (places.toNat - whole.length) '0' ++
        '.' :: (if fraction.isEmpty then ['0'] else fraction)
  else
    let power := places - 1
    let size := Nat.toDigits 10 power.natAbs
    let mark := if power < 0 then '-' else '+'
    let fraction := digits.drop 1
    digits.take 1 ++ (if fraction.isEmpty then [] else '.' :: fraction) ++
      'e' :: mark :: (List.replicate (2 - size.length) '0' ++ size)

/-- A number as messages show it. -/
def text : Binary64 → String
  | nan => "nan"
  | infinite negative => if negative then "-inf" else "inf"
  | finite negative mantissa exponent =>
    let cs :=
      if mantissa = 0 then ['0', '.', '0']
      else
        let (n, power) := shortest mantissa exponent
        placed (significant n) (power + (Nat.toDigits 10 n).length)
    String.ofList (if negative then '-' :: cs else cs)

end TwoStage.Binary64

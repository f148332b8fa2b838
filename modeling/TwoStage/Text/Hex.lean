/-!
# Hexadecimal digits

Numbers in base sixteen, with a fixed count of small digits, and back.

## Main definitions

- `hexDigits` — the last `count` digits of a number
- `hexValue?` — the value of one digit, small or capital
-/

namespace TwoStage

/-- The digit of a value below sixteen. -/
def hexDigit (value : Nat) : Char :=
  if value < 10 then Char.ofNat (0x30 + value) else Char.ofNat (0x57 + value)

/-- The last `count` digits of `value` in base sixteen. -/
def hexDigits : (count : Nat) → (value : Nat) → List Char
  | 0, _ => []
  | count + 1, value => hexDigits count (value / 16) ++ [hexDigit (value % 16)]

/-- The value of a digit in base sixteen, small or capital. -/
def hexValue? (c : Char) : Option Nat :=
  if '0' ≤ c ∧ c ≤ '9' then some (c.toNat - 0x30)
  else if 'a' ≤ c ∧ c ≤ 'f' then some (c.toNat - 0x57)
  else if 'A' ≤ c ∧ c ≤ 'F' then some (c.toNat - 0x37)
  else none

theorem length_hexDigits (count value : Nat) : (hexDigits count value).length = count := by
  induction count generalizing value with
  | zero => rfl
  | succ count ih => simp [hexDigits, ih]

end TwoStage

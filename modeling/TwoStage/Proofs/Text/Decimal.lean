import TwoStage.Text.Digit

/-!
# Numbers in decimal digits

Sixty-six scripts have a zero with the digits from one to nine in a row behind it. A text of such
decimal digits denotes a number, whichever script each of them comes from. Other characters that
stand for a digit, such as superscripts, have no place value.

## Main definitions

- `decimalDigit?` — the value of a decimal digit
- `decimalValue?` — the number that a text denotes

## Main statements

- `isAllDigits_of_decimalValue?` — a text that denotes a number is one of digits
- `decimalValue?_eq_none_iff`, `decimalValue?_eq_zero_iff` — texts that denote no number, and zero
- `decimalValue?_toString` — a number as it is written denotes itself
-/

namespace TwoStage

/-- The zeros of all scripts. -/
def decimalZeros : List Nat :=
  [0x30, 0x660, 0x6f0, 0x7c0, 0x966, 0x9e6, 0xa66, 0xae6, 0xb66, 0xbe6, 0xc66, 0xce6, 0xd66, 0xde6,
   0xe50, 0xed0, 0xf20, 0x1040, 0x1090, 0x17e0, 0x1810, 0x1946, 0x19d0, 0x1a80, 0x1a90, 0x1b50,
   0x1bb0, 0x1c40, 0x1c50, 0xa620, 0xa8d0, 0xa900, 0xa9d0, 0xa9f0, 0xaa50, 0xabf0, 0xff10, 0x104a0,
   0x10d30, 0x11066, 0x110f0, 0x11136, 0x111d0, 0x112f0, 0x11450, 0x114d0, 0x11650, 0x116c0,
   0x11730, 0x118e0, 0x11950, 0x11c50, 0x11d50, 0x11da0, 0x16a60, 0x16ac0, 0x16b50, 0x1d7ce,
   0x1d7d8, 0x1d7e2, 0x1d7ec, 0x1d7f6, 0x1e140, 0x1e2f0, 0x1e950, 0x1fbf0]

/-- The value of a decimal digit of any script. -/
def decimalDigit? (c : Char) : Option Nat :=
  (decimalZeros.find? fun first => first ≤ c.toNat && c.toNat ≤ first + 9).map fun first =>
    c.toNat - first

/-- The number that digits denote behind those that denote `n`. -/
def decimalFrom? (n : Nat) : List Char → Option Nat
  | [] => some n
  | c :: rest => (decimalDigit? c).bind fun digit => decimalFrom? (10 * n + digit) rest

/-- The number that a text denotes, if it is one of decimal digits. -/
def decimalValue? (s : String) : Option Nat := if s.isEmpty then none else decimalFrom? 0 s.toList

theorem isDigit_of_decimalDigit? {c : Char} {value : Nat} (h : decimalDigit? c = some value) :
    isDigit c = true := by
  have hrows : ∀ first ∈ decimalZeros,
      ∃ range ∈ digitRanges, range.1 ≤ first ∧ first + 9 ≤ range.2 := by
    decide +kernel
  obtain ⟨first, hfind, -⟩ := Option.map_eq_some_iff.mp h
  obtain ⟨range, hrange, hfirst, hlast⟩ := hrows first (List.mem_of_find?_eq_some hfind)
  have hrow := List.find?_some hfind
  rw [Bool.and_eq_true, decide_eq_true_eq, decide_eq_true_eq] at hrow
  exact inRanges_iff.mpr
    ⟨range, hrange, Nat.le_trans hfirst hrow.1, Nat.le_trans hrow.2 hlast⟩

theorem decimalFrom?_eq_none_iff {n : Nat} {cs : List Char} :
    decimalFrom? n cs = none ↔ ∃ c ∈ cs, decimalDigit? c = none := by
  induction cs generalizing n with
  | nil => simp [decimalFrom?]
  | cons c cs ih =>
    rw [decimalFrom?]
    cases hdigit : decimalDigit? c with
    | none => simp [hdigit]
    | some digit => simp [hdigit, ih]

theorem decimalFrom?_eq_zero_iff {n : Nat} {cs : List Char} :
    decimalFrom? n cs = some 0 ↔ n = 0 ∧ ∀ c ∈ cs, decimalDigit? c = some 0 := by
  induction cs generalizing n with
  | nil => simp [decimalFrom?]
  | cons c cs ih =>
    rw [decimalFrom?, List.forall_mem_cons]
    cases decimalDigit? c with
    | none => simp
    | some digit =>
      rw [Option.bind_some, ih, Option.some.injEq]
      constructor
      · rintro ⟨hvalue, hcs⟩
        exact ⟨by omega, by omega, hcs⟩
      · rintro ⟨rfl, rfl, hcs⟩
        exact ⟨rfl, hcs⟩

/-- A text denotes no number if it is empty or holds a character that is no decimal digit. -/
theorem decimalValue?_eq_none_iff {s : String} :
    decimalValue? s = none ↔ s = "" ∨ ∃ c ∈ s.toList, decimalDigit? c = none := by
  rw [decimalValue?]
  by_cases hs : s = ""
  · simp [hs]
  · rw [if_neg (by simpa using hs), decimalFrom?_eq_none_iff]
    exact (or_iff_right hs).symm

/-- A text denotes zero if it is one of zeros. -/
theorem decimalValue?_eq_zero_iff {s : String} :
    decimalValue? s = some 0 ↔ s ≠ "" ∧ ∀ c ∈ s.toList, decimalDigit? c = some 0 := by
  rw [decimalValue?]
  by_cases hs : s = ""
  · simp [hs]
  · rw [if_neg (by simpa using hs), decimalFrom?_eq_zero_iff]
    simp [hs]

-- ════════════════════════════════════════════════════════════════════════
-- Numbers as they are written
-- ════════════════════════════════════════════════════════════════════════

theorem decimalFrom?_append {n : Nat} {cs rest : List Char} :
    decimalFrom? n (cs ++ rest) = (decimalFrom? n cs).bind fun m => decimalFrom? m rest := by
  induction cs generalizing n with
  | nil => rfl
  | cons c cs ih =>
    rw [List.cons_append, decimalFrom?, decimalFrom?, Option.bind_assoc]
    exact Option.bind_congr fun digit _ => ih

theorem decimalDigit?_digitChar {digit : Nat} (h : digit < 10) :
    decimalDigit? digit.digitChar = some digit :=
  (show ∀ digit < 10, decimalDigit? (Nat.digitChar digit) = some digit by decide) digit h

theorem decimalFrom?_toDigits (n : Nat) : decimalFrom? 0 (Nat.toDigits 10 n) = some n := by
  induction n using Nat.strongRecOn with
  | ind n ih =>
    by_cases hsmall : n < 10
    · rw [Nat.toDigits_of_lt_base hsmall, decimalFrom?, decimalDigit?_digitChar hsmall,
        Option.bind_some, decimalFrom?, Nat.mul_zero, Nat.zero_add]
    · have hlast : n % 10 < 10 := Nat.mod_lt n (by decide)
      rw [Nat.toDigits_of_base_le (by decide) (by omega), decimalFrom?_append,
        ih (n / 10) (by omega), Option.bind_some, decimalFrom?, decimalDigit?_digitChar hlast]
      exact congrArg some (Nat.div_add_mod n 10)

/-- A number as it is written denotes itself. -/
theorem decimalValue?_toString (n : Nat) : decimalValue? (toString n) = some n := by
  have hdigits := decimalFrom?_toDigits n
  rw [← Nat.toList_repr, ← Nat.toString_eq_repr] at hdigits
  rw [decimalValue?, if_neg (by simp), hdigits]

/-- A text that denotes a number is one of digits. -/
theorem isAllDigits_of_decimalValue? {s : String} {n : Nat} (h : decimalValue? s = some n) :
    isAllDigits s = true := by
  have hsome : ¬ decimalValue? s = none := by simp [h]
  rw [decimalValue?_eq_none_iff, not_or, not_exists] at hsome
  rw [isAllDigits, Bool.and_eq_true, List.all_eq_true]
  refine ⟨by simpa using hsome.1, fun c hc => ?_⟩
  obtain ⟨value, hvalue⟩ := Option.ne_none_iff_exists'.mp fun hnone => hsome.2 c ⟨hc, hnone⟩
  exact isDigit_of_decimalDigit? hvalue

end TwoStage

import TwoStage.Json.Printer
import TwoStage.Json.Reader
import TwoStage.Proofs.Text.Pieces

/-!
# Strings between quotes

A string between quotes holds no control character, whatever it stands for: what would be one is
escaped. It is read back as what it stands for, be it escaped down to ASCII or not.

## Main statements

- `Json.stringFrom_flatMap` — strings in JSON are read back
- `Json.space_le_of_mem_quoted` — strings in JSON hold no control characters
-/

namespace TwoStage

theorem mem_hexDigits {count value : Nat} {c : Char} (h : c ∈ hexDigits count value) :
    ∃ digit < 16, c = hexDigit digit := by
  induction count generalizing value with
  | zero => cases h
  | succ count ih =>
    rw [hexDigits, List.mem_append, List.mem_singleton] at h
    rcases h with hinit | hlast
    · exact ih hinit
    · exact ⟨value % 16, Nat.mod_lt _ (by decide), hlast⟩

namespace Json

-- ════════════════════════════════════════════════════════════════════════
-- Control characters
-- ════════════════════════════════════════════════════════════════════════

theorem space_le_of_mem_unitEscape {unit : Nat} {c : Char} (h : c ∈ unitEscape unit) :
    0x20 ≤ c.toNat := by
  rw [unitEscape, List.mem_cons, List.mem_cons] at h
  rcases h with rfl | rfl | hdigits
  · decide
  · decide
  · obtain ⟨digit, hdigit, rfl⟩ := mem_hexDigits hdigits
    have hall : ∀ digit < 16, 0x20 ≤ (hexDigit digit).toNat := by decide
    exact hall digit hdigit

theorem space_le_of_mem_numericEscape {c d : Char} (h : d ∈ numericEscape c) :
    0x20 ≤ d.toNat := by
  simp only [numericEscape] at h
  split at h
  · exact space_le_of_mem_unitEscape h
  · rcases List.mem_append.mp h with hfirst | hsecond
    · exact space_le_of_mem_unitEscape hfirst
    · exact space_le_of_mem_unitEscape hsecond

theorem space_le_of_shortEscape? {c letter : Char} (h : shortEscape? c = some letter) :
    0x20 ≤ letter.toNat := by
  have hletters : letter ∈ ['\x22', '\\', 'n', 'r', 't', 'b', 'f'] := by
    rw [shortEscape?] at h
    repeat' split at h
    all_goals
      cases h
      try decide
  have hall : ∀ letter ∈ ['\x22', '\\', 'n', 'r', 't', 'b', 'f'], 0x20 ≤ letter.toNat := by simp
  exact hall letter hletters

theorem space_le_of_mem_stringChar {ascii : Bool} {c d : Char} (h : d ∈ stringChar ascii c) :
    0x20 ≤ d.toNat := by
  rw [stringChar] at h
  split at h
  · next letter hletter =>
    rw [List.mem_cons, List.mem_singleton] at h
    rcases h with rfl | rfl
    · decide
    · exact space_le_of_shortEscape? hletter
  · split at h
    · exact space_le_of_mem_numericEscape h
    · next hplain =>
      rw [List.mem_singleton] at h
      simp only [Bool.or_eq_true, decide_eq_true_eq, not_or, Nat.not_lt] at hplain
      exact h ▸ hplain.1

/-- A string between quotes holds no control character. -/
theorem space_le_of_mem_quoted {ascii : Bool} {s : String} {c : Char}
    (h : c ∈ (quoted ascii s).toList) : 0x20 ≤ c.toNat := by
  rw [quoted, String.toList_ofList, stringChars, List.cons_append, List.mem_cons, List.mem_append,
    List.mem_singleton, List.mem_flatMap] at h
  rcases h with rfl | ⟨d, -, hd⟩ | rfl
  · decide
  · exact space_le_of_mem_stringChar hd
  · decide

-- ════════════════════════════════════════════════════════════════════════
-- Reading
-- ════════════════════════════════════════════════════════════════════════

theorem hexValue?_hexDigit : ∀ digit < 16, hexValue? (hexDigit digit) = some digit := by decide

theorem unitEscape_eq (n : Nat) :
    unitEscape n = ['\\', 'u', hexDigit (n / 4096 % 16), hexDigit (n / 256 % 16),
      hexDigit (n / 16 % 16), hexDigit (n % 16)] := by
  simp [unitEscape, hexDigits, Nat.div_div_eq_div_mul]

theorem unit?_hexDigit {n : Nat} (h : n < 0x10000) :
    unit? (hexDigit (n / 4096 % 16)) (hexDigit (n / 256 % 16)) (hexDigit (n / 16 % 16))
      (hexDigit (n % 16)) = some n := by
  have hvalue : ∀ m, hexValue? (hexDigit (m % 16)) = some (m % 16) :=
    fun m => hexValue?_hexDigit _ (Nat.mod_lt m (by decide))
  have hn : ((n / 4096 % 16 * 16 + n / 256 % 16) * 16 + n / 16 % 16) * 16 + n % 16 = n := by omega
  simp [unit?, hvalue, hn]

section StringFrom

variable {opening done tail : List Char} (htail : tail ≠ [])

include htail

theorem stringFrom_unitEscape {n : Nat} (h : n < 0x10000) :
    stringFrom opening none done (unitEscape n ++ tail) =
      if isFirstHalf n then stringFrom opening (some n) done tail
      else stringFrom opening none (unitChar n :: done) tail := by
  have hrest : tail.isEmpty = false := by simpa using htail
  simp only [unitEscape_eq, List.cons_append, List.nil_append]
  rw [stringFrom]
  simp only [unit?_hexDigit h, hrest, Bool.false_eq_true, if_false]

theorem stringFrom_second {first n : Nat} (hn : isSecondHalf n = true) :
    stringFrom opening (some first) done (unitEscape n ++ tail) =
      stringFrom opening none (pairChar first n :: done) tail := by
  have hrest : tail.isEmpty = false := by simpa using htail
  have h : n < 0x10000 := by
    simp only [isSecondHalf, Bool.and_eq_true, decide_eq_true_eq] at hn
    omega
  simp only [unitEscape_eq, List.cons_append, List.nil_append]
  rw [stringFrom]
  simp only [unit?_hexDigit h, hrest, hn, Bool.false_eq_true, if_false, if_true]

theorem stringFrom_numericEscape (c : Char) :
    stringFrom opening none done (numericEscape c ++ tail) =
      stringFrom opening none (c :: done) tail := by
  have hvalid : c.toNat < 0xd800 ∨ 0xdfff < c.toNat ∧ c.toNat < 0x110000 := c.valid
  by_cases hsmall : c.toNat < 0x10000
  · have hhalf : isFirstHalf c.toNat = false ∧ isSecondHalf c.toNat = false := by
      simp only [isFirstHalf, isSecondHalf, Bool.and_eq_false_iff, decide_eq_false_iff_not]
      omega
    rw [numericEscape, if_pos hsmall, stringFrom_unitEscape htail hsmall, hhalf.1, unitChar,
      hhalf.1, hhalf.2]
    simp [Char.ofNat_toNat]
  · simp only [numericEscape, hsmall, if_false, List.append_assoc]
    have hfirst : isFirstHalf (0xd800 + (c.toNat - 0x10000) / 0x400) = true := by
      simp only [isFirstHalf, Bool.and_eq_true, decide_eq_true_eq]
      omega
    have hsecond : isSecondHalf (0xdc00 + (c.toNat - 0x10000) % 0x400) = true := by
      simp only [isSecondHalf, Bool.and_eq_true, decide_eq_true_eq]
      omega
    have hpair : pairChar (0xd800 + (c.toNat - 0x10000) / 0x400)
        (0xdc00 + (c.toNat - 0x10000) % 0x400) = c := by
      have hn : 0x10000 + (0xd800 + (c.toNat - 0x10000) / 0x400 - 0xd800) * 0x400 +
          (0xdc00 + (c.toNat - 0x10000) % 0x400 - 0xdc00) = c.toNat := by omega
      rw [pairChar, hn, Char.ofNat_toNat]
    rw [stringFrom_unitEscape (by simp [unitEscape_eq]) (by omega), if_pos hfirst,
      stringFrom_second htail hsecond, hpair]

theorem stringFrom_stringChar (ascii : Bool) (c : Char) :
    stringFrom opening none done (stringChar ascii c ++ tail) =
      stringFrom opening none (c :: done) tail := by
  rw [stringChar]
  split
  · next letter hletter =>
    rw [shortEscape?] at hletter
    repeat' split at hletter
    all_goals
      cases hletter
      try
        subst_vars
        rfl
  · next hnone =>
    split
    · exact stringFrom_numericEscape htail c
    · next hplain =>
      have hquote : c ≠ '\x22' := by
        rintro rfl
        cases hnone
      have hbackslash : c ≠ '\\' := by
        rintro rfl
        cases hnone
      simp only [Bool.or_eq_true, decide_eq_true_eq, not_or] at hplain
      rw [List.singleton_append, stringFrom, if_neg hbackslash, if_neg hplain.1, settle]
      · exact hquote
      · exact fun _ _ _ _ _ heq => absurd heq hbackslash
      · exact fun _ _ heq => absurd heq hbackslash

end StringFrom

/-- A string between quotes is read as what it stands for. -/
theorem stringFrom_flatMap (opening done : List Char) (ascii : Bool) (cs rest : List Char) :
    stringFrom opening none done (cs.flatMap (stringChar ascii) ++ '\x22' :: rest) =
      .ok (String.ofList (done.reverse ++ cs), rest) := by
  induction cs generalizing done with
  | nil =>
    rw [List.flatMap_nil, List.nil_append, stringFrom, settle, List.append_nil]
  | cons c cs ih =>
    rw [List.flatMap_cons, List.append_assoc, stringFrom_stringChar (by simp), ih]
    simp

theorem toList_quoted (ascii : Bool) (s : String) :
    (quoted ascii s).toList = '\x22' :: s.toList.flatMap (stringChar ascii) ++ ['\x22'] := by
  rw [quoted, String.toList_ofList, stringChars]

end Json

end TwoStage

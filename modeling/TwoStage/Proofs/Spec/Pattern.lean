import Mathlib.Computability.Language
import TwoStage.Proofs.Spec.PlainText

/-!
# The languages of the patterns

The shapes of names, paths and digests as languages, built from classes of characters, products and
repetitions. A pattern that ends in `lineEnd` looks at a text up to its end or up to a line feed
that ends it.

## Main definitions

- `oneOf`, `upTo`, `lineEnd` — one character of a class, repetitions, the end of a text
- `packageNames`, `variableNames`, `userNames`, `binaryNames` — the languages of names
- `absolutePaths`, `plainPaths`, `digests` — those of paths and digests

## Main statements

- `dropFinalNewline_mem_iff` — a check up to a final line feed is a product with `lineEnd`
- `isPackageName_iff` and those after it — the checks decide the languages
-/

namespace TwoStage

open scoped Computability

/-- One character of a class. -/
def oneOf (p : Char → Bool) : Language Char := {w : List Char | ∃ c, p c = true ∧ w = [c]}

/-- At most so many words of a language, one after the other. -/
def upTo (n : Nat) (l : Language Char) : Language Char := {w : List Char | ∃ k ≤ n, w ∈ l ^ k}

/-- The end of a text, or a line feed that ends it. -/
def lineEnd : Language Char := {[], ['\n']}

section Letters

variable {p : Char → Bool} {w : List Char}

theorem mem_oneOf_mul {l : Language Char} :
    w ∈ oneOf p * l ↔ ∃ c rest, w = c :: rest ∧ p c = true ∧ rest ∈ l := by
  rw [Language.mem_mul]
  constructor
  · rintro ⟨_, ⟨c, hc, rfl⟩, rest, hrest, rfl⟩
    exact ⟨c, rest, rfl, hc, hrest⟩
  · rintro ⟨c, rest, rfl, hc, hrest⟩
    exact ⟨[c], ⟨c, hc, rfl⟩, rest, hrest, rfl⟩

/-- A power of a class holds the words of that length all of whose characters are in the class. -/
theorem mem_oneOf_pow {n : Nat} : w ∈ oneOf p ^ n ↔ w.length = n ∧ ∀ c ∈ w, p c = true := by
  induction n generalizing w with
  | zero =>
    rw [pow_zero, Language.mem_one, List.length_eq_zero_iff]
    constructor
    · rintro rfl
      exact ⟨rfl, by simp⟩
    · exact And.left
  | succ n ih =>
    rw [pow_succ', mem_oneOf_mul]
    constructor
    · rintro ⟨c, rest, rfl, hc, hrest⟩
      obtain ⟨hlength, hall⟩ := ih.mp hrest
      exact ⟨by simp [hlength], List.forall_mem_cons.mpr ⟨hc, hall⟩⟩
    · rintro ⟨hlength, hall⟩
      cases w with
      | nil => cases hlength
      | cons c rest =>
        rw [List.forall_mem_cons] at hall
        exact ⟨c, rest, rfl, hall.1, ih.mpr ⟨by simpa using hlength, hall.2⟩⟩

theorem mem_oneOf_kstar : w ∈ (oneOf p)∗ ↔ ∀ c ∈ w, p c = true := by
  rw [Language.kstar_eq_iSup_pow, Language.mem_iSup]
  constructor
  · rintro ⟨n, hn⟩
    exact (mem_oneOf_pow.mp hn).2
  · intro h
    exact ⟨w.length, mem_oneOf_pow.mpr ⟨rfl, h⟩⟩

theorem mem_upTo_oneOf {n : Nat} : w ∈ upTo n (oneOf p) ↔ w.length ≤ n ∧ ∀ c ∈ w, p c = true := by
  constructor
  · rintro ⟨k, hle, hk⟩
    obtain ⟨hlength, hall⟩ := mem_oneOf_pow.mp hk
    exact ⟨by omega, hall⟩
  · rintro ⟨hlength, hall⟩
    exact ⟨w.length, hlength, mem_oneOf_pow.mpr ⟨rfl, hall⟩⟩

theorem mem_mul_lineEnd {l : Language Char} :
    w ∈ l * lineEnd ↔ w ∈ l ∨ ∃ v ∈ l, w = v ++ ['\n'] := by
  rw [Language.mem_mul]
  constructor
  · rintro ⟨v, hv, rest, hrest, rfl⟩
    rcases hrest with rfl | rfl
    · rw [List.append_nil]
      exact Or.inl hv
    · exact Or.inr ⟨v, hv, rfl⟩
  · rintro (hw | ⟨v, hv, rfl⟩)
    · exact ⟨w, hw, [], Or.inl rfl, List.append_nil w⟩
    · exact ⟨v, hv, ['\n'], Or.inr rfl, rfl⟩

end Letters

/-- What a check finds in the characters up to a final line feed, a pattern finds in all of them,
as long as no word of its language has a line feed itself. -/
theorem dropFinalNewline_mem_iff {l : Language Char} (hl : ∀ w ∈ l, '\n' ∉ w) {cs : List Char} :
    dropFinalNewline cs ∈ l ↔ cs ∈ l * lineEnd := by
  rw [mem_mul_lineEnd]
  constructor
  · intro h
    rcases dropFinalNewline_cases cs with hsame | hends
    · rw [hsame] at h
      exact Or.inl h
    · exact Or.inr ⟨_, h, hends⟩
  · rintro (hcs | ⟨v, hv, rfl⟩)
    · have hlast : cs.getLast? ≠ some '\n' := fun hlast =>
        hl cs hcs (List.mem_of_getLast? hlast)
      rwa [dropFinalNewline, if_neg hlast]
    · rw [dropFinalNewline, if_pos List.getLast?_concat, List.dropLast_concat]
      exact hv

theorem startsAndGoesOn_iff {start goOn : Char → Bool} {cs : List Char} :
    startsAndGoesOn start goOn cs = true ↔ cs ∈ oneOf start * (oneOf goOn)∗ := by
  rw [mem_oneOf_mul]
  cases cs with
  | nil => simp [startsAndGoesOn]
  | cons c rest => simp [startsAndGoesOn, mem_oneOf_kstar]

theorem newline_not_mem_of_startsAndGoesOn {start goOn : Char → Bool} (hstart : start '\n' = false)
    (hgoOn : goOn '\n' = false) : ∀ w ∈ oneOf start * (oneOf goOn)∗, '\n' ∉ w := by
  intro w hw hmem
  rw [← startsAndGoesOn_iff] at hw
  refine forall_mem_of_startsAndGoesOn (P := (· ≠ '\n')) ?_ ?_ hw '\n' hmem rfl
  · rintro c hc rfl
    rw [hstart] at hc
    cases hc
  · rintro c hc rfl
    rw [hgoOn] at hc
    cases hc

-- ════════════════════════════════════════════════════════════════════════
-- Names
-- ════════════════════════════════════════════════════════════════════════

/-- Names of packages, as `^[A-Za-z0-9][A-Za-z0-9.+_:=~-]*$` has them. -/
def packageNames : Language Char :=
  oneOf Char.isAlphanum *
    (oneOf fun c => c.isAlphanum || c ∈ ['.', '+', '_', ':', '=', '~', '-'])∗ * lineEnd

/-- Names of variables, as `^[A-Za-z_][A-Za-z0-9_]*$` has them. -/
def variableNames : Language Char :=
  oneOf (fun c => c.isAlpha || c = '_') * (oneOf fun c => c.isAlphanum || c = '_')∗ * lineEnd

/-- Names of users, as `^[a-z_][a-z0-9_-]{0,31}$` has them. -/
def userNames : Language Char :=
  oneOf (fun c => c.isLower || c = '_') *
    upTo 31 (oneOf fun c => c.isLower || c.isDigit || c = '_' || c = '-') * lineEnd

/-- Names of executables, as `^[A-Za-z0-9][A-Za-z0-9._-]*$` has them. -/
def binaryNames : Language Char :=
  oneOf Char.isAlphanum * (oneOf fun c => c.isAlphanum || c ∈ ['.', '_', '-'])∗ * lineEnd

theorem isPackageName_iff {s : String} : isPackageName s = true ↔ s.toList ∈ packageNames := by
  rw [isPackageName, startsAndGoesOn_iff]
  exact dropFinalNewline_mem_iff (newline_not_mem_of_startsAndGoesOn (by decide) (by decide))

theorem isVariableName_iff {s : String} : isVariableName s = true ↔ s.toList ∈ variableNames := by
  rw [isVariableName, startsAndGoesOn_iff]
  exact dropFinalNewline_mem_iff (newline_not_mem_of_startsAndGoesOn (by decide) (by decide))

theorem isBinaryName_iff {s : String} : isBinaryName s = true ↔ s.toList ∈ binaryNames := by
  rw [isBinaryName, startsAndGoesOn_iff]
  exact dropFinalNewline_mem_iff (newline_not_mem_of_startsAndGoesOn (by decide) (by decide))

/-- A bounded repetition is a repetition and a bound. -/
theorem startsAndGoesOn_upTo_iff {start goOn : Char → Bool} {n : Nat} {cs : List Char} :
    startsAndGoesOn start goOn cs = true ∧ cs.length ≤ n + 1 ↔
      cs ∈ oneOf start * upTo n (oneOf goOn) := by
  rw [startsAndGoesOn_iff, mem_oneOf_mul, mem_oneOf_mul]
  constructor
  · rintro ⟨⟨c, rest, rfl, hc, hrest⟩, hlength⟩
    rw [List.length_cons] at hlength
    exact ⟨c, rest, rfl, hc, mem_upTo_oneOf.mpr ⟨by omega, mem_oneOf_kstar.mp hrest⟩⟩
  · rintro ⟨c, rest, rfl, hc, hrest⟩
    obtain ⟨hlength, hall⟩ := mem_upTo_oneOf.mp hrest
    exact ⟨⟨c, rest, rfl, hc, mem_oneOf_kstar.mpr hall⟩, by simp [hlength]⟩

theorem isUserName_iff {s : String} : isUserName s = true ↔ s.toList ∈ userNames := by
  rw [isUserName, Bool.and_eq_true, decide_eq_true_eq, startsAndGoesOn_upTo_iff]
  refine dropFinalNewline_mem_iff fun w hw => ?_
  exact newline_not_mem_of_startsAndGoesOn (by decide) (by decide) w
    (startsAndGoesOn_iff.mp (startsAndGoesOn_upTo_iff.mpr hw).1)

-- ════════════════════════════════════════════════════════════════════════
-- Paths and digests
-- ════════════════════════════════════════════════════════════════════════

/-- Texts that start with a slash. -/
def absolutePaths : Language Char := {['/']} * ⊤

/-- Paths that start with a slash and go on with at least one letter, digit or one of `._/` and the
minus sign. -/
def plainPaths : Language Char := {['/']} * (oneOf isPathChar * (oneOf isPathChar)∗) * lineEnd

/-- Digests, as `sha256:[0-9a-f]{64}` has them, up to the end of the text. -/
def digests : Language Char :=
  {"sha256:".toList} * oneOf (fun c => c.isDigit || 'a' ≤ c && c ≤ 'f') ^ 64

theorem mem_singleton_mul {start w : List Char} {l : Language Char} :
    w ∈ ({start} : Language Char) * l ↔ ∃ rest ∈ l, w = start ++ rest := by
  rw [Language.mem_mul]
  constructor
  · rintro ⟨_, rfl, rest, hrest, rfl⟩
    exact ⟨rest, hrest, rfl⟩
  · rintro ⟨rest, hrest, rfl⟩
    exact ⟨start, rfl, rest, hrest, rfl⟩

theorem head?_eq_slash_iff {s : String} :
    s.toList.head? = some '/' ↔ s.toList ∈ absolutePaths := by
  rw [absolutePaths, mem_singleton_mul, List.head?_eq_some_iff]
  constructor
  · rintro ⟨rest, h⟩
    exact ⟨rest, trivial, h⟩
  · rintro ⟨rest, -, h⟩
    exact ⟨rest, h⟩

theorem isPlainPath_iff {s : String} : isPlainPath s = true ↔ s.toList ∈ plainPaths := by
  have hpath : isPlainPath s = true ↔ dropFinalNewline s.toList ∈
      ({['/']} : Language Char) * (oneOf isPathChar * (oneOf isPathChar)∗) := by
    simp only [isPlainPath, mem_singleton_mul, mem_oneOf_mul, mem_oneOf_kstar]
    constructor
    · intro h
      split at h
      · next c rest hcs =>
        rw [List.all_cons, Bool.and_eq_true, List.all_eq_true] at h
        exact ⟨c :: rest, ⟨c, rest, rfl, h⟩, hcs⟩
      · cases h
    · rintro ⟨_, ⟨c, rest, rfl, hc, hrest⟩, hcs⟩
      rw [hcs]
      simp only [List.cons_append, List.nil_append, List.all_cons, hc, Bool.true_and]
      exact List.all_eq_true.mpr hrest
  rw [hpath]
  refine dropFinalNewline_mem_iff fun w hw hmem => ?_
  obtain ⟨rest, hrest, rfl⟩ := mem_singleton_mul.mp hw
  rcases List.mem_append.mp hmem with hslash | hrestmem
  · exact absurd hslash (by decide)
  · exact newline_not_mem_of_startsAndGoesOn (by decide) (by decide) rest hrest hrestmem

theorem isDigestChars_iff {cs : List Char} : isDigestChars cs = true ↔ cs ∈ digests := by
  simp only [isDigestChars, digests, mem_singleton_mul, mem_oneOf_pow]
  constructor
  · intro h
    split at h
    · next digits hstart =>
      rw [Bool.and_eq_true, decide_eq_true_eq, List.all_eq_true] at h
      exact ⟨digits, h, afterStart?_eq_some_iff.mp hstart⟩
    · cases h
  · rintro ⟨digits, ⟨hlength, hall⟩, hcs⟩
    rw [afterStart?_eq_some_iff.mpr hcs]
    simp only [hlength, decide_true, Bool.true_and]
    exact List.all_eq_true.mpr hall

theorem isDigestLine_iff {s : String} : isDigestLine s = true ↔ s.toList ∈ digests * lineEnd := by
  rw [isDigestLine, isDigestChars_iff]
  refine dropFinalNewline_mem_iff fun w hw hmem => ?_
  obtain ⟨digits, hdigits, rfl⟩ := mem_singleton_mul.mp hw
  rcases List.mem_append.mp hmem with hstart | hdigit
  · exact absurd hstart (by decide)
  · exact absurd ((mem_oneOf_pow.mp hdigits).2 '\n' hdigit) (by decide)

end TwoStage

import Mathlib.Tactic.Tauto
import TwoStage.Proofs.Text.Words
import TwoStage.Spec.Pattern

/-!
# Plain texts

Names and paths are made of plain characters, which leaves room for a line feed at their end, since
the patterns look at a text only up to a line feed that ends it.

## Main definitions

- `isPlainChar`, `PlainText` — the characters of names and paths, and texts of them
- `withoutFinalNewline` — a text up to the line feed that ends it

## Main statements

- `PlainText.unspaced_withoutFinalNewline` — a plain text has no blanks but a line feed at its end
- `PlainText.of_isPackageName` and those after it — what the patterns match is plain
-/

namespace TwoStage

/-- The characters of names and plain paths. -/
def isPlainChar (c : Char) : Bool :=
  c.isAlphanum || c ∈ ['.', '+', '_', ':', '=', '~', '-', '/']

/-- A text without a line feed that ends it. -/
def withoutFinalNewline (s : String) : String := String.ofList (dropFinalNewline s.toList)

/-- A text of at least one plain character, but for a line feed that ends it. -/
structure PlainText (s : String) : Prop where
  isPlain : ∀ c ∈ dropFinalNewline s.toList, isPlainChar c = true
  ne_nil : dropFinalNewline s.toList ≠ []

theorem isAlphanum_of_isLower {c : Char} (h : c.isLower = true) : c.isAlphanum = true := by
  show (c.isUpper || c.isLower || c.isDigit) = true
  rw [h, Bool.or_true, Bool.true_or]

theorem isAlphanum_of_isDigit {c : Char} (h : c.isDigit = true) : c.isAlphanum = true := by
  show (c.isAlpha || c.isDigit) = true
  rw [h, Bool.or_true]

theorem toNat_lt_of_isAlphanum {c : Char} (h : c.isAlphanum = true) : c.toNat < 128 := by
  have hranges : (decide ('A'.val ≤ c.val ∧ c.val ≤ 'Z'.val) ||
      decide ('a'.val ≤ c.val) && decide (c.val ≤ 'z'.val) ||
      decide ('0'.val ≤ c.val) && decide (c.val ≤ '9'.val)) = true := h
  simp only [Bool.or_eq_true, Bool.and_eq_true, decide_eq_true_eq,
    UInt32.le_iff_toNat_le] at hranges
  have hcode : c.toNat = c.val.toNat := rfl
  have hZ : 'Z'.val.toNat = 90 := rfl
  have hz : 'z'.val.toNat = 122 := rfl
  have h9 : '9'.val.toNat = 57 := rfl
  omega

/-- A class of letters, digits and some marks holds ASCII characters only if the marks are. -/
theorem toNat_lt_of_isAlphanum_or {marks : List Char} (hmarks : ∀ c ∈ marks, c.toNat < 128)
    {c : Char} (h : (c.isAlphanum || decide (c ∈ marks)) = true) : c.toNat < 128 := by
  rw [Bool.or_eq_true, decide_eq_true_eq] at h
  rcases h with hletter | hmark
  · exact toNat_lt_of_isAlphanum hletter
  · exact hmarks c hmark

/-- What holds of the first 128 characters holds of each ASCII character. -/
theorem forall_ascii {P : Char → Prop} (h : ∀ n < 128, P (Char.ofNat n)) {c : Char}
    (hc : c.toNat < 128) : P c := by
  have hchar := h c.toNat hc
  rwa [Char.ofNat_toNat] at hchar

theorem toNat_lt_of_isPlainChar {c : Char} (h : isPlainChar c = true) : c.toNat < 128 :=
  toNat_lt_of_isAlphanum_or (by simp) h

/-- Plain characters are not blank. -/
theorem isBlank_of_isPlainChar {c : Char} (h : isPlainChar c = true) : isBlank c = false :=
  forall_ascii (P := fun c => isPlainChar c = true → isBlank c = false) (by decide)
    (toNat_lt_of_isPlainChar h) h

theorem dropFinalNewline_cases (cs : List Char) :
    dropFinalNewline cs = cs ∨ cs = dropFinalNewline cs ++ ['\n'] := by
  rw [dropFinalNewline]
  split
  · next hlast =>
    obtain ⟨body, rfl⟩ := List.getLast?_eq_some_iff.mp hlast
    right
    simp
  · left
    rfl

theorem withoutFinalNewline_cases (s : String) :
    s = withoutFinalNewline s ∨ s = withoutFinalNewline s ++ "\n" := by
  rcases dropFinalNewline_cases s.toList with hsame | hends
  · left
    rw [withoutFinalNewline, hsame, String.ofList_toList]
  · right
    rw [← String.toList_inj, String.toList_append, withoutFinalNewline, String.toList_ofList]
    exact hends

/-- What a pattern finds at the start of a text is the first character of the text. -/
theorem exists_cons_of_startsAndGoesOn {start goOn : Char → Bool} {cs : List Char}
    (h : startsAndGoesOn start goOn (dropFinalNewline cs) = true) :
    ∃ first rest, cs = first :: rest ∧ start first = true := by
  cases hdrop : dropFinalNewline cs with
  | nil =>
    rw [hdrop] at h
    cases h
  | cons first rest =>
    rw [hdrop, startsAndGoesOn, Bool.and_eq_true] at h
    rcases dropFinalNewline_cases cs with hsame | hends
    · exact ⟨first, rest, hsame.symm.trans hdrop, h.1⟩
    · rw [hdrop, List.cons_append] at hends
      exact ⟨first, rest ++ ['\n'], hends, h.1⟩

/-- What a pattern matches is made of the characters of its two classes. -/
theorem forall_mem_of_startsAndGoesOn {start goOn : Char → Bool} {P : Char → Prop}
    (hstart : ∀ c, start c = true → P c) (hgoOn : ∀ c, goOn c = true → P c) {cs : List Char}
    (h : startsAndGoesOn start goOn cs = true) : ∀ c ∈ cs, P c := by
  cases cs with
  | nil => simp
  | cons first rest =>
    rw [startsAndGoesOn, Bool.and_eq_true, List.all_eq_true] at h
    exact List.forall_mem_cons.mpr ⟨hstart first h.1, fun c hc => hgoOn c (h.2 c hc)⟩

theorem equals_not_mem_of_isVariableName {name : String} (h : isVariableName name = true) :
    '=' ∉ name.toList := by
  have hclass : ∀ c ∈ dropFinalNewline name.toList, c ≠ '=' := by
    refine forall_mem_of_startsAndGoesOn ?_ ?_ h
    · rintro _ hc rfl
      exact absurd hc (by decide)
    · rintro _ hc rfl
      exact absurd hc (by decide)
  intro hmem
  rcases dropFinalNewline_cases name.toList with hsame | hends
  · rw [hsame] at hclass
    exact hclass '=' hmem rfl
  · rw [hends, List.mem_append, List.mem_singleton] at hmem
    rcases hmem with hmem | hline
    · exact hclass '=' hmem rfl
    · exact absurd hline (by decide)

namespace PlainText

variable {s : String}

theorem isPlainChar_or (h : PlainText s) {c : Char} (hc : c ∈ s.toList) :
    isPlainChar c = true ∨ c = '\n' := by
  rcases dropFinalNewline_cases s.toList with hsame | hends
  · rw [← hsame] at hc
    exact Or.inl (h.isPlain c hc)
  · rw [hends, List.mem_append, List.mem_singleton] at hc
    rcases hc with hc | hc
    · exact Or.inl (h.isPlain c hc)
    · exact Or.inr hc

/-- A character that is neither plain nor a line feed does not occur in a plain text. -/
theorem not_mem (h : PlainText s) {c : Char} (hc : isPlainChar c = false) (hne : c ≠ '\n') :
    c ∉ s.toList := by
  intro hmem
  rcases h.isPlainChar_or hmem with hplain | heq
  · rw [hc] at hplain
    cases hplain
  · exact hne heq

theorem ne_empty (h : PlainText s) : s ≠ "" := by
  rintro rfl
  exact h.ne_nil rfl

theorem withoutFinalNewline_ne (h : PlainText s) : withoutFinalNewline s ≠ "" := by
  rw [withoutFinalNewline, ne_eq, String.ofList_eq_empty_iff]
  exact h.ne_nil

/-- Up to the line feed, a plain text has neither line feeds nor blanks. -/
theorem unspaced_withoutFinalNewline (h : PlainText s) : Unspaced (withoutFinalNewline s) := by
  intro c hc
  rw [withoutFinalNewline, String.toList_ofList] at hc
  exact isBlank_of_isPlainChar (h.isPlain c hc)

/-- A pattern of which both classes hold plain characters only matches plain texts only. -/
theorem of_startsAndGoesOn {start goOn : Char → Bool}
    (hstart : ∀ c, start c = true → isPlainChar c = true)
    (hgoOn : ∀ c, goOn c = true → isPlainChar c = true)
    (h : startsAndGoesOn start goOn (dropFinalNewline s.toList) = true) : PlainText s := by
  refine ⟨forall_mem_of_startsAndGoesOn hstart hgoOn h, fun hnil => ?_⟩
  rw [hnil] at h
  cases h

theorem of_isPackageName (h : isPackageName s = true) : PlainText s := by
  refine of_startsAndGoesOn (fun c hc => ?_) (fun c hc => ?_) h
  · simp [isPlainChar, hc]
  · simp only [isPlainChar, Bool.or_eq_true, decide_eq_true_eq, List.mem_cons] at hc ⊢
    tauto

theorem of_isUserName (h : isUserName s = true) : PlainText s := by
  rw [isUserName, Bool.and_eq_true] at h
  refine of_startsAndGoesOn (fun c hc => ?_) (fun c hc => ?_) h.1
  all_goals
    have hlower : c.isLower = true → c.isAlphanum = true := isAlphanum_of_isLower
    have hdigit : c.isDigit = true → c.isAlphanum = true := isAlphanum_of_isDigit
    simp only [isPlainChar, Bool.or_eq_true, decide_eq_true_eq, List.mem_cons] at hc ⊢
    tauto

theorem of_isBinaryName (h : isBinaryName s = true) : PlainText s := by
  refine of_startsAndGoesOn (fun c hc => ?_) (fun c hc => ?_) h
  · simp [isPlainChar, hc]
  · simp only [isPlainChar, Bool.or_eq_true, decide_eq_true_eq, List.mem_cons] at hc ⊢
    tauto

theorem of_isPlainPath (h : isPlainPath s = true) : PlainText s := by
  rw [isPlainPath] at h
  split at h
  · next first rest hcs =>
    rw [List.all_eq_true] at h
    refine ⟨fun c hc => ?_, by simp [hcs]⟩
    rw [hcs] at hc
    rcases List.mem_cons.mp hc with rfl | hc
    · decide
    · have hpath := h c hc
      simp only [isPathChar, isPlainChar, Bool.or_eq_true, decide_eq_true_eq,
        List.mem_cons] at hpath ⊢
      tauto
  · cases h

end PlainText

end TwoStage

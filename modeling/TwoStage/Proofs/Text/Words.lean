import TwoStage.Text.Blank

/-!
# Words between blanks

A blank between two texts keeps their words apart, and a text without blanks is a word of its own.

## Main definitions

- `Unspaced` — texts without a blank

## Main statements

- `words_append_blank` — the words of two texts with a blank between them
- `words_of_unspaced` — a text without blanks is one word
-/

namespace TwoStage

/-- A text without a blank. -/
def Unspaced (s : String) : Prop := ∀ c ∈ s.toList, isBlank c = false

instance (s : String) : Decidable (Unspaced s) := List.decidableBAll _ s.toList

theorem Unspaced.space_not_mem {s : String} (h : Unspaced s) : ' ' ∉ s.toList := by
  intro hmem
  have hblank := h ' ' hmem
  exact absurd hblank (by decide)

theorem Unspaced.newline_not_mem {s : String} (h : Unspaced s) : '\n' ∉ s.toList := by
  intro hmem
  have hblank := h '\n' hmem
  exact absurd hblank (by decide)

private theorem wordsFrom_append_blank {b : Char} (hb : isBlank b = true)
    (current cs rest : List Char) :
    wordsFrom current (cs ++ b :: rest) = wordsFrom current cs ++ wordsFrom [] rest := by
  induction cs generalizing current with
  | nil => by_cases hcurrent : current = [] <;> simp [wordsFrom, hb, hcurrent]
  | cons c cs ih =>
    rw [List.cons_append, wordsFrom, wordsFrom]
    by_cases hc : isBlank c = true
    · rw [if_pos hc, if_pos hc, ih]
      by_cases hcurrent : current = [] <;> simp [hcurrent]
    · rw [if_neg hc, if_neg hc, ih]

private theorem wordsFrom_of_not_blank {cs : List Char} (h : ∀ c ∈ cs, isBlank c = false)
    (current : List Char) (hne : current.reverse ++ cs ≠ []) :
    wordsFrom current cs = [current.reverse ++ cs] := by
  induction cs generalizing current with
  | nil =>
    have hcurrent : current ≠ [] := by simpa using hne
    simp [wordsFrom, hcurrent]
  | cons c cs ih =>
    have hc : isBlank c = false := h c List.mem_cons_self
    have hcs : ∀ d ∈ cs, isBlank d = false := fun d hd => h d (List.mem_cons_of_mem _ hd)
    rw [wordsFrom, if_neg (by rw [hc]; exact Bool.false_ne_true), ih hcs (c :: current) (by simp)]
    simp

/-- A blank keeps the words before it and behind it apart. -/
theorem words_append_blank (s t : String) : words (s ++ " " ++ t) = words s ++ words t := by
  have hb : isBlank ' ' = true := by decide
  rw [words, words, words, String.toList_append, String.toList_append,
    show (" " : String).toList = [' '] from rfl, List.append_assoc, List.singleton_append,
    wordsFrom_append_blank hb, List.map_append]

/-- A text without blanks is one word. -/
theorem words_of_unspaced {s : String} (h : Unspaced s) (hne : s ≠ "") : words s = [s] := by
  have hcs : ([] : List Char).reverse ++ s.toList ≠ [] := by simpa using hne
  rw [words, wordsFrom_of_not_blank h [] hcs]
  simp

/-- A keyword is the first word of its line. -/
theorem words_keyword {keyword : String} (h : Unspaced keyword) (hne : keyword ≠ "")
    (rest : String) : words (keyword ++ (" " ++ rest)) = keyword :: words rest := by
  rw [← String.append_assoc, words_append_blank, words_of_unspaced h hne, List.singleton_append]

end TwoStage

import TwoStage.Text.Blank
import TwoStage.Text.Lines
import Mathlib.Data.List.DropRight
import Mathlib.Data.List.TakeWhile

/-!
# Texts that are blank

Cutting the blanks off a text leaves nothing exactly when the text holds nothing else, and reading
a text with its line ends unified does not make it blank or take that from it.

## Main definitions

- `Blank` — texts of blank characters alone

## Main statements

- `strip_eq_empty_iff` — what is left of a text without the blanks at its ends
- `strip_strip`, `isBlank_getLast?_strip` — there are no blanks left at its ends
- `stripChars_append_blanks` — nothing but the blanks around a text is cut off
- `words_eq_nil_iff` — what has no words
- `blank_unifyNewlines_iff` — line ends do not matter
- `unifyNewlines_eq_self` — texts whose line ends are read as they are
-/

namespace TwoStage

/-- A text of blank characters alone. -/
def Blank (s : String) : Prop := ∀ c ∈ s.toList, isBlank c = true

private theorem stripChars_eq_nil_iff (cs : List Char) :
    stripChars cs = [] ↔ ∀ c ∈ cs, isBlank c = true := by
  have hdrop : dropBlanks cs = [] ↔ ∀ c ∈ cs, isBlank c = true := List.dropWhile_eq_nil_iff
  rw [stripChars, List.reverse_eq_nil_iff, ← hdrop]
  constructor
  · intro h
    have hall := List.dropWhile_eq_nil_iff.mp h
    -- the first character that is left would not be blank
    by_contra hne
    have hblank : isBlank ((dropBlanks cs).head hne) = true :=
      hall _ (List.mem_reverse.mpr (List.head_mem hne))
    have hnot : isBlank ((dropBlanks cs).head hne) = false := List.head_dropWhile_not isBlank hne
    rw [hblank] at hnot
    cases hnot
  · intro h
    rw [h]
    rfl

theorem strip_eq_empty_iff (s : String) : strip s = "" ↔ Blank s := by
  rw [strip, String.ofList_eq_empty_iff, stripChars_eq_nil_iff]
  rfl

private theorem stripChars_stripChars (cs : List Char) :
    stripChars (stripChars cs) = stripChars cs := by
  have hdef : ∀ cs, stripChars cs = (cs.dropWhile isBlank).rdropWhile isBlank := fun _ => rfl
  -- what is left starts as the text without its leading blanks does
  have hstart : (stripChars cs).dropWhile isBlank = stripChars cs := by
    obtain ⟨rest, hrest⟩ := List.rdropWhile_prefix isBlank (cs.dropWhile isBlank)
    have hdrop := List.dropWhile_idempotent isBlank cs
    rw [← hrest, ← hdef] at hdrop
    cases hcs : stripChars cs with
    | nil => rfl
    | cons c more =>
      rw [hcs, List.cons_append, List.dropWhile_cons] at hdrop
      split at hdrop
      · have hle := (List.dropWhile_sublist isBlank (l := more ++ rest)).length_le
        rw [hdrop, List.length_cons] at hle
        omega
      · next hnot => rw [List.dropWhile_cons, if_neg hnot]
  rw [hdef (stripChars cs), hstart, hdef cs, List.rdropWhile_idempotent]

theorem strip_strip (s : String) : strip (strip s) = strip s := by
  rw [strip, strip, String.toList_ofList, stripChars_stripChars]

/-- The last character that is left is not blank. -/
theorem isBlank_getLast?_strip {s : String} {c : Char} (h : (strip s).toList.getLast? = some c) :
    isBlank c = false := by
  rw [strip, String.toList_ofList, stripChars, List.getLast?_reverse] at h
  have hnot := List.head?_dropWhile_not isBlank (dropBlanks s.toList).reverse
  rwa [← dropBlanks, h] at hnot

theorem dropBlanks_eq_self {cs : List Char} (h : ∀ c ∈ cs, isBlank c = false) :
    dropBlanks cs = cs := by
  cases cs with
  | nil => rfl
  | cons c rest =>
    rw [dropBlanks, List.dropWhile_cons_of_neg]
    simp [h c List.mem_cons_self]

/-- Nothing is cut off a text without blanks. -/
theorem stripChars_eq_self {cs : List Char} (h : ∀ c ∈ cs, isBlank c = false) :
    stripChars cs = cs := by
  rw [stripChars, dropBlanks_eq_self h, dropBlanks_eq_self fun c hc => h c (List.mem_reverse.mp hc),
    List.reverse_reverse]

/-- Blanks around a text without blanks are cut off. -/
theorem stripChars_append_blanks {before cs after : List Char}
    (hbefore : ∀ c ∈ before, isBlank c = true) (hcs : ∀ c ∈ cs, isBlank c = false)
    (hafter : ∀ c ∈ after, isBlank c = true) : stripChars (before ++ cs ++ after) = cs := by
  have hdrop : ∀ {blanks rest : List Char}, (∀ c ∈ blanks, isBlank c = true) →
      dropBlanks (blanks ++ rest) = dropBlanks rest := List.dropWhile_append_of_pos
  cases cs with
  | nil =>
    refine (stripChars_eq_nil_iff _).mpr fun c hc => ?_
    rw [List.append_nil, List.mem_append] at hc
    exact hc.elim (hbefore c) (hafter c)
  | cons c rest =>
    have hfirst : isBlank c = false := hcs c List.mem_cons_self
    have hfront : dropBlanks (c :: rest ++ after) = c :: rest ++ after := by
      rw [List.cons_append, dropBlanks, List.dropWhile_cons_of_neg (by simp [hfirst])]
    rw [stripChars, List.append_assoc, hdrop hbefore, hfront, List.reverse_append,
      hdrop fun c hc => hafter c (List.mem_reverse.mp hc),
      dropBlanks_eq_self fun c hc => hcs c (List.mem_reverse.mp hc), List.reverse_reverse]

private theorem wordsFrom_eq_nil_iff (current cs : List Char) :
    wordsFrom current cs = [] ↔ current = [] ∧ ∀ c ∈ cs, isBlank c = true := by
  induction cs generalizing current with
  | nil => by_cases hcurrent : current = [] <;> simp [wordsFrom, hcurrent]
  | cons c cs ih =>
    rw [wordsFrom, List.forall_mem_cons]
    by_cases hc : isBlank c = true
    · by_cases hcurrent : current = [] <;> simp [hc, hcurrent, ih]
    · simp [hc, ih]

/-- A text without words is blank. -/
theorem words_eq_nil_iff (s : String) : words s = [] ↔ Blank s := by
  rw [words, List.map_eq_nil_iff, wordsFrom_eq_nil_iff]
  exact and_iff_right rfl

private theorem blank_unifyNewlineChars_iff (cs : List Char) :
    (∀ c ∈ unifyNewlineChars cs, isBlank c = true) ↔ ∀ c ∈ cs, isBlank c = true := by
  fun_induction unifyNewlineChars cs with
  | case1 => rfl
  | case2 rest ih =>
    rw [List.forall_mem_cons, List.forall_mem_cons, List.forall_mem_cons, ih]
    simp [show isBlank '\n' = true from by decide, show isBlank '\r' = true from by decide]
  | case3 c rest _ ih =>
    rw [List.forall_mem_cons, List.forall_mem_cons, ih]
    by_cases hc : c = '\r'
    · rw [if_pos hc, hc]
      simp [show isBlank '\n' = true from by decide, show isBlank '\r' = true from by decide]
    · rw [if_neg hc]

theorem blank_unifyNewlines_iff (s : String) : Blank (unifyNewlines s) ↔ Blank s := by
  unfold Blank unifyNewlines
  rw [String.toList_ofList, blank_unifyNewlineChars_iff]

theorem unifyNewlineChars_of_not_mem {cs : List Char} (h : '\r' ∉ cs) :
    unifyNewlineChars cs = cs := by
  fun_induction unifyNewlineChars cs with
  | case1 => rfl
  | case2 rest ih => exact absurd List.mem_cons_self h
  | case3 c rest _ ih =>
    rw [List.mem_cons, not_or] at h
    rw [if_neg (Ne.symm h.1), ih h.2]

/-- A text without carriage returns is read with the line ends that it has. -/
theorem unifyNewlines_eq_self {s : String} (h : '\r' ∉ s.toList) : unifyNewlines s = s := by
  rw [unifyNewlines, unifyNewlineChars_of_not_mem h, String.ofList_toList]

end TwoStage

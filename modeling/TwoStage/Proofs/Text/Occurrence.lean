import Mathlib.Data.List.Basic
import TwoStage.Proofs.Text.Pieces

/-!
# Occurrences in a text

A text occurs in another one where it is an infix of it. What is put together of two parts with a
mark between them has an occurrence of a text without the mark in one of the parts, and one of a
text with the mark only where both sides of the mark fit.

## Main statements

- `containsChars_iff`, `contains_iff` — the search finds the infixes
- `infix_append_cons_iff`, `infix_across_iff` — occurrences in two parts with a mark between them
- `infix_intercalate_iff` — occurrences in pieces with a mark between any two
-/

namespace TwoStage

theorem containsChars_iff {part cs : List Char} : containsChars part cs = true ↔ part <:+: cs := by
  induction cs with
  | nil => rw [containsChars, List.isEmpty_iff, List.infix_nil]
  | cons c rest ih =>
    rw [containsChars, Bool.or_eq_true, List.isPrefixOf_iff_prefix, ih, List.infix_cons_iff]

theorem contains_iff {whole part : String} :
    contains whole part = true ↔ part.toList <:+: whole.toList := containsChars_iff

section Mark

variable {mark : Char} {part before after : List Char}

/-- What begins without the mark begins before it. -/
theorem prefix_append_cons_iff (h : mark ∉ part) :
    part <+: before ++ mark :: after ↔ part <+: before := by
  constructor
  · intro hpart
    rcases List.prefix_or_prefix_of_prefix hpart (List.prefix_append before _) with hle | hle
    · exact hle
    · obtain ⟨more, rfl⟩ := hle
      rw [List.prefix_append_right_inj, List.prefix_cons_iff] at hpart
      rcases hpart with rfl | ⟨rest, rfl, -⟩
      · exact ⟨[], by simp⟩
      · exact absurd (by simp) h
  · intro hpart
    exact hpart.trans (List.prefix_append before _)

/-- What ends without the mark ends behind it. -/
theorem suffix_append_cons_iff (h : mark ∉ part) :
    part <:+ before ++ mark :: after ↔ part <:+ after := by
  constructor
  · intro hpart
    rcases List.suffix_or_suffix_of_suffix hpart (List.suffix_append before _) with hle | hle
    · rcases List.suffix_cons_iff.mp hle with rfl | hafter
      · exact absurd List.mem_cons_self h
      · exact hafter
    · exact absurd (hle.subset List.mem_cons_self) h
  · intro hpart
    exact (hpart.trans (List.suffix_cons mark after)).trans (List.suffix_append before _)

/-- A text occurs before the mark, behind it, or across it. -/
theorem infix_append_cons_cases :
    part <:+: before ++ mark :: after ↔ part <:+: before ∨ part <:+: after ∨
      ∃ left right, part = left ++ mark :: right ∧ left <:+ before ∧ right <+: after := by
  constructor
  · intro hpart
    rcases List.infix_append_iff.mp hpart with hbefore | hafter | ⟨left, right, rfl, hleft, hright⟩
    · exact Or.inl hbefore
    · rcases List.infix_cons_iff.mp hafter with hstart | hafter
      · rcases List.prefix_cons_iff.mp hstart with rfl | ⟨right, rfl, hright⟩
        · exact Or.inl List.nil_infix
        · exact Or.inr (Or.inr ⟨[], right, rfl, List.nil_suffix, hright⟩)
      · exact Or.inr (Or.inl hafter)
    · rcases List.prefix_cons_iff.mp hright with rfl | ⟨rest, rfl, hrest⟩
      · rw [List.append_nil]
        exact Or.inl hleft.isInfix
      · exact Or.inr (Or.inr ⟨left, rest, rfl, hleft, hrest⟩)
  · rintro (hbefore | hafter | ⟨left, right, rfl, ⟨start, rfl⟩, ⟨rest, rfl⟩⟩)
    · exact hbefore.trans (List.infix_append [] before _)
    · exact (hafter.trans (List.suffix_cons mark after).isInfix).trans
        (List.suffix_append before _).isInfix
    · exact ⟨start, rest, by simp⟩

/-- A text without the mark occurs on one side of it. -/
theorem infix_append_cons_iff (h : mark ∉ part) :
    part <:+: before ++ mark :: after ↔ part <:+: before ∨ part <:+: after := by
  rw [infix_append_cons_cases, or_congr_right (or_iff_left ?_)]
  rintro ⟨left, right, rfl, -, -⟩
  exact h (by simp)

/-- A text without the mark occurs in pieces that are put together where it does in one of them. -/
theorem infix_intercalate_iff (h : mark ∉ part) (hne : part ≠ []) (pieces : List (List Char)) :
    part <:+: [mark].intercalate pieces ↔ ∃ piece ∈ pieces, part <:+: piece := by
  induction pieces with
  | nil => simp [List.intercalate, hne]
  | cons piece rest ih =>
    simp only [List.mem_cons, exists_eq_or_imp, ← ih]
    rcases intercalate_cons_cases mark piece rest with ⟨rfl, hjoined⟩ | hjoined
    · rw [hjoined]
      simp [List.intercalate, hne]
    · rw [hjoined, infix_append_cons_iff h]

/-- A text with one mark occurs on one side of the mark, or across it. -/
theorem infix_across_iff {left right : List Char} (hleft : mark ∉ left) (hright : mark ∉ right) :
    left ++ mark :: right <:+: before ++ mark :: after ↔
      left ++ mark :: right <:+: before ∨ left ++ mark :: right <:+: after ∨
        left <:+ before ∧ right <+: after := by
  rw [infix_append_cons_cases, or_congr_right (or_congr_right ?_)]
  constructor
  · rintro ⟨left', right', heq, hbefore, hafter⟩
    obtain ⟨rfl, -, rfl⟩ := (List.append_cons_inj_of_notMem hleft hright).mp heq
    exact ⟨hbefore, hafter⟩
  · rintro ⟨hbefore, hafter⟩
    exact ⟨left, right, rfl, hbefore, hafter⟩

/-- A text does not occur where its mark does not. -/
theorem not_infix_of_not_mem (h : mark ∉ before) (left right : List Char) :
    ¬ left ++ mark :: right <:+: before := fun hpart => h (hpart.subset (by simp))

/-- A text is found behind what its first character does not occur in. -/
theorem infix_append_iff_of_not_mem (h : mark ∉ before) :
    mark :: part <:+: before ++ after ↔ mark :: part <:+: after := by
  induction before with
  | nil => rfl
  | cons c before ih =>
    rw [List.mem_cons, not_or] at h
    rw [List.cons_append, List.infix_cons_iff, ih h.2, or_iff_right]
    intro hstart
    exact h.1 (List.cons_prefix_cons.mp hstart).1

end Mark

end TwoStage

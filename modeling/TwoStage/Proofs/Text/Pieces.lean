import TwoStage.Text.Lines
import TwoStage.Text.Search

/-!
# Pieces of a text

Joining texts and cutting a text are inverse to each other as long as the mark between the pieces
does not occur in them. A text of lines, each with its line feed, comes apart into these lines and
an empty piece behind the last line feed.

## Main statements

- `intercalate_cons_cases` — pieces that are put together, seen from the first one
- `splitAtEach_eq_splitOn` — the pieces are those of the library
- `splitAtEach_lines` — lines that are put together come apart again
- `cutAt_append_cons`, `cutAt_cases` — a cut at the first occurrence of a mark
-/

namespace TwoStage

theorem mem_toList_append {c : Char} {s t : String} :
    c ∈ (s ++ t).toList ↔ c ∈ s.toList ∨ c ∈ t.toList := by
  rw [String.toList_append, List.mem_append]

/-- A number is written in digits alone. -/
theorem not_mem_toString {c : Char} (hc : c.isDigit = false) (n : Nat) :
    c ∉ (toString n).toList := by
  intro hmem
  rw [Nat.toString_eq_repr, Nat.toList_repr] at hmem
  rw [Nat.isDigit_of_mem_toDigits (by decide) (by decide) hmem] at hc
  cases hc

theorem toList_joinWith (separator : String) (texts : List String) :
    (joinWith separator texts).toList = separator.toList.intercalate (texts.map String.toList) :=
  String.toList_intercalate

theorem joinWith_cons_cons (separator first next : String) (rest : List String) :
    joinWith separator (first :: next :: rest) =
      first ++ separator ++ joinWith separator (next :: rest) := by
  rw [← String.toList_inj]
  simp [toList_joinWith, List.intercalate_cons_cons]

theorem mem_joinWith {separator : String} {texts : List String} {c : Char}
    (h : c ∈ (joinWith separator texts).toList) :
    c ∈ separator.toList ∨ ∃ text ∈ texts, c ∈ text.toList := by
  rw [toList_joinWith] at h
  induction texts with
  | nil => simp at h
  | cons text rest ih =>
    cases rest with
    | nil => simpa using Or.inr h
    | cons next rest =>
      simp only [List.map_cons, List.intercalate_cons_cons, List.mem_append] at h ih
      rcases h with (hc | hc) | hc
      · exact Or.inr ⟨text, List.mem_cons_self, hc⟩
      · exact Or.inl hc
      · rcases ih hc with hs | ⟨other, hmem, hc⟩
        · exact Or.inl hs
        · exact Or.inr ⟨other, List.mem_cons_of_mem _ hmem, hc⟩

theorem mem_joinWith_of_mem (separator : String) {texts : List String} {text : String} {c : Char}
    (hmem : text ∈ texts) (hc : c ∈ text.toList) : c ∈ (joinWith separator texts).toList := by
  rw [toList_joinWith]
  induction texts with
  | nil => cases hmem
  | cons first rest ih =>
    cases rest with
    | nil =>
      rw [List.mem_singleton] at hmem
      simpa [← hmem] using hc
    | cons next rest =>
      simp only [List.map_cons, List.intercalate_cons_cons, List.mem_append] at ih ⊢
      rcases List.mem_cons.mp hmem with rfl | hmem
      · exact Or.inl (Or.inl hc)
      · exact Or.inr (ih hmem)

/-- Pieces that are put together are the first one, or that one and behind a mark the others. -/
theorem intercalate_cons_cases (mark : Char) (piece : List Char) (pieces : List (List Char)) :
    (pieces = [] ∧ [mark].intercalate (piece :: pieces) = piece) ∨
      [mark].intercalate (piece :: pieces) = piece ++ mark :: [mark].intercalate pieces := by
  cases pieces with
  | nil => exact Or.inl ⟨rfl, List.intercalate_singleton⟩
  | cons next rest =>
    right
    rw [List.intercalate_cons_cons, List.append_assoc, List.singleton_append]

theorem splitAtEach_eq_splitOn (mark : Char) (cs : List Char) :
    splitAtEach mark cs = cs.splitOn mark := by
  induction cs with
  | nil => rw [splitAtEach, List.splitOn_nil]
  | cons c rest ih =>
    rw [List.splitOn_cons_eq_if_modifyHead, splitAtEach, ih]
    by_cases h : c = mark
    · simp [h]
    · rw [if_neg h, if_neg (by simpa using h)]
      obtain ⟨piece, pieces, hpieces⟩ :=
        List.exists_cons_of_ne_nil (List.splitOn_ne_nil mark rest)
      rw [hpieces, List.modifyHead_cons]

theorem splitAtEach_of_not_mem {mark : Char} {cs : List Char} (h : mark ∉ cs) :
    splitAtEach mark cs = [cs] := by
  rw [splitAtEach_eq_splitOn, List.splitOn_eq_singleton h]

/-- A mark keeps the pieces before it and behind it apart. -/
theorem splitAtEach_append_mark (mark : Char) (before after : List Char) :
    splitAtEach mark (before ++ mark :: after) =
      splitAtEach mark before ++ splitAtEach mark after := by
  rw [splitAtEach_eq_splitOn, splitAtEach_eq_splitOn, splitAtEach_eq_splitOn,
    List.splitOn_append_cons_self]

theorem splitAtEach_append_cons {mark : Char} {piece : List Char} (h : mark ∉ piece)
    (cs : List Char) : splitAtEach mark (piece ++ mark :: cs) = piece :: splitAtEach mark cs := by
  rw [splitAtEach_append_mark, splitAtEach_of_not_mem h, List.singleton_append]

/-- No piece holds the mark. -/
theorem not_mem_of_mem_splitAtEach {mark : Char} {cs piece : List Char}
    (h : piece ∈ splitAtEach mark cs) : mark ∉ piece := by
  induction cs generalizing piece with
  | nil =>
    rw [splitAtEach, List.mem_singleton] at h
    simp [h]
  | cons c rest ih =>
    rw [splitAtEach] at h
    split at h
    · rcases List.mem_cons.mp h with rfl | h
      · exact List.not_mem_nil
      · exact ih h
    · next hc =>
      split at h
      · next first pieces heq =>
        rw [heq] at ih
        rcases List.mem_cons.mp h with rfl | h
        · have hfirst := ih List.mem_cons_self
          simp [Ne.symm hc, hfirst]
        · exact ih (List.mem_cons_of_mem _ h)
      · next heq => exact absurd heq (splitAtEach_ne_nil mark rest)

/-- The characters of the pieces are those of the text but for the marks. -/
theorem mem_splitAtEach_iff {mark c : Char} (hc : c ≠ mark) {cs : List Char} :
    (∃ piece ∈ splitAtEach mark cs, c ∈ piece) ↔ c ∈ cs := by
  induction cs with
  | nil => simp [splitAtEach]
  | cons first rest ih =>
    rw [splitAtEach]
    split
    · next heq => simp [ih, heq, hc]
    · split
      · next piece pieces heq =>
        rw [heq] at ih
        simp only [List.mem_cons, exists_eq_or_imp] at ih ⊢
        rw [or_assoc, ih]
      · next heq => exact absurd heq (splitAtEach_ne_nil mark rest)

/-- Lines that are put together, each with its line feed, come apart again. -/
theorem splitAtEach_lines (lines : List (List Char)) :
    splitAtEach '\n' (lines.flatMap fun line => line ++ ['\n']) =
      lines.flatMap (splitAtEach '\n') ++ [[]] := by
  induction lines with
  | nil => rfl
  | cons line rest ih =>
    rw [List.flatMap_cons, List.append_assoc, List.singleton_append, splitAtEach_append_mark, ih,
      List.flatMap_cons, List.append_assoc]

theorem cutAt_append_cons {mark : Char} {before : List Char} (h : mark ∉ before)
    (after : List Char) : cutAt mark (before ++ mark :: after) = (before, some after) := by
  induction before with
  | nil => simp [cutAt]
  | cons c before ih =>
    rw [List.mem_cons, not_or] at h
    rw [List.cons_append, cutAt, if_neg (Ne.symm h.1), ih h.2]

/-- A text is cut at the first mark, or holds none. -/
theorem cutAt_cases (mark : Char) (cs : List Char) :
    (cutAt mark cs = (cs, none) ∧ mark ∉ cs) ∨
      ∃ before after, cs = before ++ mark :: after ∧ mark ∉ before ∧
        cutAt mark cs = (before, some after) := by
  by_cases h : mark ∈ cs
  · obtain ⟨before, after, rfl, hbefore⟩ := List.eq_append_cons_of_mem h
    exact Or.inr ⟨before, after, rfl, hbefore, cutAt_append_cons hbefore after⟩
  · left
    refine ⟨?_, h⟩
    induction cs with
    | nil => rfl
    | cons c rest ih =>
      rw [List.mem_cons, not_or] at h
      rw [cutAt, if_neg (Ne.symm h.1), ih h.2]

end TwoStage

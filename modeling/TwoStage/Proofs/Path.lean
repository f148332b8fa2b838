import TwoStage.Path
import TwoStage.Proofs.Text.Pieces

/-!
# What a path keeps of its text

Reading a path and writing it out again may lose slashes and dots, and nothing else. Slashes at the
end of a text make no difference. A relative path stands for one place below every other path: taken
relative to that path again, it is what it was.

## Main definitions

- `Path.Holds` — the characters in the components of a path
- `Path.IsBelow`, `Path.relativeTo?` — a path below another, and as seen from there

## Main statements

- `Path.mem_text` — what stands in the text of a path
- `Path.holds_ofText_iff` — what the components keep of a text
- `Path.holds_join`, `Path.holds_join_iff` — a path below another
- `Path.ofText_of_append_slashes` — slashes at the end of a text
- `Path.isBelow_join`, `Path.relativeTo?_join` — a relative path below any other
-/

namespace TwoStage.Path

variable {c : Char}

/-- Whether a character stands in one of the components. -/
def Holds (p : Path) (c : Char) : Prop := ∃ part ∈ p.parts, c ∈ part.toList

/-- Only slashes, or the dot of the empty path, are in the text of a path and in no component. -/
theorem mem_text {p : Path} (h : c ∈ p.text.toList) : c = '/' ∨ c = '.' ∨ p.Holds c := by
  rw [text] at h
  split at h
  · have hdot : c = '.' := by simpa using h
    exact Or.inr (Or.inl hdot)
  · rw [mem_toList_append, String.toList_ofList] at h
    rcases h with hslashes | hparts
    · exact Or.inl (List.eq_of_mem_replicate hslashes)
    · rcases mem_joinWith hparts with hslash | hheld
      · left
        simpa using hslash
      · exact Or.inr (Or.inr hheld)

/-- What a component holds is in the text. -/
theorem mem_text_of_holds {p : Path} (h : p.Holds c) : c ∈ p.text.toList := by
  obtain ⟨part, hpart, hc⟩ := h
  have hparts : p.parts ≠ [] := List.ne_nil_of_mem hpart
  have hnot : ¬ (p.slashes = 0 && p.parts.isEmpty) = true := by simp [hparts]
  rw [text, if_neg hnot, String.toList_append]
  exact List.mem_append_right _ (mem_joinWith_of_mem "/" hpart hc)

/-- The components keep all characters of a text but slashes and dots. -/
theorem holds_ofText_iff (hslash : c ≠ '/') (hdot : c ≠ '.') (s : String) :
    (ofText s).Holds c ↔ c ∈ s.toList := by
  rw [← mem_splitAtEach_iff hslash]
  constructor
  · rintro ⟨part, hpart, hc⟩
    have hpiece : part ∈ pieces s := (List.mem_filter.mp hpart).1
    obtain ⟨piece, hmem, rfl⟩ := List.mem_map.mp hpiece
    rw [String.toList_ofList] at hc
    exact ⟨piece, hmem, hc⟩
  · rintro ⟨piece, hmem, hc⟩
    have hcomponent : isComponent (String.ofList piece) = true := by
      simp only [isComponent, ne_eq, decide_not, Bool.and_eq_true, Bool.not_eq_true',
        decide_eq_false_iff_not]
      constructor
      · intro heq
        rw [String.ofList_eq_empty_iff] at heq
        rw [heq] at hc
        cases hc
      · intro heq
        have hpiece : piece = ['.'] := by simpa using congrArg String.toList heq
        rw [hpiece] at hc
        exact hdot (List.mem_singleton.mp hc)
    refine ⟨String.ofList piece, List.mem_filter.mpr ⟨?_, hcomponent⟩, ?_⟩
    · exact List.mem_map_of_mem hmem
    · rwa [String.toList_ofList]

/-- A path below another has the components of both or of itself alone. -/
theorem holds_join {p q : Path} (h : (p.join q).Holds c) : p.Holds c ∨ q.Holds c := by
  rw [join] at h
  split at h
  · exact Or.inr h
  · obtain ⟨part, hpart, hc⟩ := h
    rcases List.mem_append.mp hpart with hp | hq
    · exact Or.inl ⟨part, hp, hc⟩
    · exact Or.inr ⟨part, hq, hc⟩

/-- A relative path below another adds its components. -/
theorem holds_join_iff {p q : Path} (hq : q.isAbsolute = false) :
    (p.join q).Holds c ↔ p.Holds c ∨ q.Holds c := by
  refine ⟨holds_join, ?_⟩
  have hjoin : (p.join q).parts = p.parts ++ q.parts := by
    rw [join, hq]
    rfl
  simp only [Holds, hjoin, List.mem_append, or_and_right, exists_or, imp_self]

theorem isAbsolute_eq_false_iff {p : Path} : p.isAbsolute = false ↔ p.slashes = 0 := by
  simp [isAbsolute]

theorem leadingSlashes_eq_zero_iff {cs : List Char} :
    leadingSlashes cs = 0 ↔ cs.head? ≠ some '/' := by
  cases cs with
  | nil => simp [leadingSlashes]
  | cons first rest =>
    by_cases hfirst : first = '/'
    · rw [hfirst, leadingSlashes, List.takeWhile_cons_of_pos (by rfl), List.length_cons]
      match (rest.takeWhile (· == '/')).length with
      | 0 | 1 | count + 2 => simp
    · simp [leadingSlashes, hfirst]

/-- A text is a relative path unless it starts with a slash. -/
theorem isAbsolute_ofText_eq_false_iff {s : String} :
    (ofText s).isAbsolute = false ↔ s.toList.head? ≠ some '/' :=
  isAbsolute_eq_false_iff.trans leadingSlashes_eq_zero_iff

theorem isAbsolute_ofText {s : String} (h : s.toList.head? ≠ some '/') :
    (ofText s).isAbsolute = false := isAbsolute_ofText_eq_false_iff.mpr h

-- ════════════════════════════════════════════════════════════════════════
-- Slashes at the end
-- ════════════════════════════════════════════════════════════════════════

/-- The components do not change with slashes at the end of a text. -/
theorem parts_ofText_of_append_slashes {s t : String} {count : Nat}
    (h : s.toList = t.toList ++ List.replicate count '/') : (ofText s).parts = (ofText t).parts := by
  rw [ofText, ofText, pieces, pieces, h]
  clear h
  induction count with
  | zero => rw [List.replicate_zero, List.append_nil]
  | succ count ih =>
    have hlast : t.toList ++ List.replicate (count + 1) '/' =
        (t.toList ++ List.replicate count '/') ++ '/' :: [] := by
      rw [List.replicate_succ', ← List.append_assoc]
    rw [hlast, splitAtEach_append_mark, List.map_append, List.filter_append]
    -- behind the last slash there is an empty piece
    show _ ++ [] = _
    rw [List.append_nil]
    exact ih

/-- A relative path does not change with slashes at the end of its text. -/
theorem ofText_of_append_slashes {s t : String} {count : Nat}
    (h : s.toList = t.toList ++ List.replicate count '/') (hs : (ofText s).isAbsolute = false) :
    ofText t = ofText s := by
  have ht : t.toList.head? ≠ some '/' := by
    intro hhead
    obtain ⟨rest, hrest⟩ := List.head?_eq_some_iff.mp hhead
    exact isAbsolute_ofText_eq_false_iff.mp hs (by rw [h, hrest]; rfl)
  have hslashes : (ofText t).slashes = (ofText s).slashes := by
    rw [isAbsolute_eq_false_iff.mp hs, isAbsolute_eq_false_iff.mp (isAbsolute_ofText ht)]
  calc ofText t = ⟨(ofText t).slashes, (ofText t).parts⟩ := rfl
    _ = ⟨(ofText s).slashes, (ofText s).parts⟩ := by
      rw [hslashes, parts_ofText_of_append_slashes h]
    _ = ofText s := rfl

-- ════════════════════════════════════════════════════════════════════════
-- Below another path
-- ════════════════════════════════════════════════════════════════════════

/-- Whether a path goes on below another one, by their components alone. -/
def IsBelow (p root : Path) : Prop :=
  p.slashes = root.slashes ∧ ∃ more, more ≠ [] ∧ p.parts = root.parts ++ more

/-- A path as seen from another one at or above it, by their components alone; `none` if the other
one is not at or above it. -/
def relativeTo? (p root : Path) : Option Path :=
  if p.slashes = root.slashes && root.parts.isPrefixOf p.parts then
    some ⟨0, p.parts.drop root.parts.length⟩
  else none

section

variable {rel : Path} (h : rel.isAbsolute = false) (root : Path)

include h

theorem join_of_relative : root.join rel = ⟨root.slashes, root.parts ++ rel.parts⟩ := by
  rw [join, h]
  rfl

/-- A relative path with a component goes on below every path. -/
theorem isBelow_join (hparts : rel.parts ≠ []) : (root.join rel).IsBelow root := by
  rw [join_of_relative h]
  exact ⟨rfl, rel.parts, hparts, rfl⟩

/-- A relative path below another one, as seen from there, is what it was. -/
theorem relativeTo?_join : (root.join rel).relativeTo? root = some rel := by
  have hprefix : root.parts.isPrefixOf (root.parts ++ rel.parts) = true :=
    List.isPrefixOf_iff_prefix.mpr (List.prefix_append _ _)
  rw [join_of_relative h, relativeTo?, hprefix, List.drop_left, ← isAbsolute_eq_false_iff.mp h]
  simp

end

end TwoStage.Path

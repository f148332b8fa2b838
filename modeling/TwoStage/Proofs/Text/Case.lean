import TwoStage.Proofs.Text.Occurrence
import TwoStage.Proofs.Text.Pieces
import TwoStage.Text.Case

/-!
# Small letters piece by piece

The small letters of a text are those of its characters one by one, but for the two forms of the
small sigma, which depend on what stands around. A text without a small sigma is therefore found in
the small letters of lines that are put together where it is found in those of one of the lines.

## Main definitions

- `smallLetters` — the small letters of one character, the two small sigmas taken for one
- `IsOwnSmall` — characters that are small letters of ASCII characters alone

## Main statements

- `map_mergeSigma_lowerFrom` — the small letters of a text, character by character
- `contains_lower_joinWith_iff` — what occurs in the small letters of lines
- `lowerFrom_append_of_ascii` — a text that starts with ASCII characters
- `eq_append_of_lowerFrom` — a text whose small letters start with ASCII characters
-/

namespace TwoStage

/-- The small sigma that ends words taken for the other one. -/
def mergeSigma (c : Char) : Char := if c = 'ς' then 'σ' else c

/-- The small letters of one character, the two small sigmas taken for one. -/
def smallLetters (c : Char) : List Char :=
  if c = 'Σ' then ['σ'] else if c = 'İ' then ['i', '\u0307'] else [mergeSigma (lowerChar c)]

theorem smallLetters_newline : smallLetters '\n' = ['\n'] := by decide

/-- With the two small sigmas taken for one, a character has its small letters wherever it
stands. -/
theorem map_mergeSigma_lowerFrom (before cs : List Char) :
    (lowerFrom before cs).map mergeSigma = cs.flatMap smallLetters := by
  induction cs generalizing before with
  | nil => rfl
  | cons c rest ih =>
    rw [lowerFrom, List.map_append, ih, List.flatMap_cons, List.append_left_inj, smallLetters]
    by_cases hsigma : c = 'Σ'
    · rw [if_pos hsigma, if_pos hsigma]
      split
      · rfl
      · rfl
    · rw [if_neg hsigma, if_neg hsigma]
      by_cases hdotted : c = 'İ'
      · rw [if_pos hdotted, if_pos hdotted]
        rfl
      · rw [if_neg hdotted, if_neg hdotted, List.map_singleton]

theorem map_mergeSigma_eq_self {cs : List Char} (h : 'ς' ∉ cs) : cs.map mergeSigma = cs := by
  have hsame : ∀ c ∈ cs, mergeSigma c = id c := by
    intro c hc
    have hne : c ≠ 'ς' := fun heq => h (heq ▸ hc)
    rw [mergeSigma, if_neg hne]
    rfl
  rw [List.map_congr_left hsame, List.map_id]

/-- What holds no sigma occurs where it does with the two sigmas taken for one. -/
theorem infix_map_mergeSigma_iff {part cs : List Char} (h : 'σ' ∉ part ∧ 'ς' ∉ part) :
    part <:+: cs.map mergeSigma ↔ part <:+: cs := by
  constructor
  · intro hpart
    obtain ⟨inside, hinside, rfl⟩ := List.infix_map_iff.mp hpart
    have hfinal : 'ς' ∉ inside := fun hmem => h.1 (List.mem_map_of_mem hmem)
    rwa [map_mergeSigma_eq_self hfinal]
  · intro hpart
    rw [← map_mergeSigma_eq_self h.2]
    exact hpart.map mergeSigma

/-- What holds no sigma occurs in the small letters of a text where it does in those of its
characters one by one. -/
theorem contains_lower_iff {s part : String} (h : 'σ' ∉ part.toList ∧ 'ς' ∉ part.toList) :
    contains (lower s) part = true ↔ part.toList <:+: s.toList.flatMap smallLetters := by
  rw [contains_iff, lower, String.toList_ofList, ← infix_map_mergeSigma_iff h,
    map_mergeSigma_lowerFrom]

/-- The small letters of lines that are put together are those of the lines, put together. -/
theorem flatMap_smallLetters_intercalate (pieces : List (List Char)) :
    (['\n'].intercalate pieces).flatMap smallLetters =
      ['\n'].intercalate (pieces.map (List.flatMap smallLetters)) := by
  induction pieces with
  | nil => rfl
  | cons piece rest ih =>
    cases rest with
    | nil => simp
    | cons next rest =>
      simp only [List.map_cons] at ih ⊢
      rw [List.intercalate_cons_cons, List.intercalate_cons_cons, List.flatMap_append,
        List.flatMap_append, ih, List.flatMap_singleton, smallLetters_newline]

/-- A text on one line without a sigma occurs in the small letters of lines that are put together
where it does in those of one of the lines. -/
theorem contains_lower_joinWith_iff {part : String} (hline : '\n' ∉ part.toList) (hne : part ≠ "")
    (hsigma : 'σ' ∉ part.toList ∧ 'ς' ∉ part.toList) (lines : List String) :
    contains (lower (joinWith "\n" lines)) part = true ↔
      ∃ line ∈ lines, contains (lower line) part = true := by
  have hnewline : "\n".toList = ['\n'] := rfl
  have hne' : part.toList ≠ [] := by simpa using hne
  rw [contains_lower_iff hsigma, toList_joinWith, hnewline, flatMap_smallLetters_intercalate,
    infix_intercalate_iff hline hne']
  simp only [List.mem_map, exists_exists_and_eq_and, contains_lower_iff hsigma]

-- ════════════════════════════════════════════════════════════════════════
-- Small letters behind other characters
-- ════════════════════════════════════════════════════════════════════════

theorem meetsCased_append_of_not {context : List Char} (h : meetsCased context = false)
    (cs : List Char) : meetsCased (cs ++ context) = meetsCased cs := by
  induction cs with
  | nil => exact h
  | cons c cs ih => rw [List.cons_append, meetsCased, meetsCased, ih]

/-- What stands further in front does not matter if there is no character with case to meet. -/
theorem lowerFrom_append_context {context : List Char} (h : meetsCased context = false)
    (before cs : List Char) : lowerFrom (before ++ context) cs = lowerFrom before cs := by
  induction cs generalizing before with
  | nil => rfl
  | cons c cs ih =>
    rw [lowerFrom, lowerFrom, meetsCased_append_of_not h, ← List.cons_append, ih]

theorem lowerFrom_cons_of_ascii {c : Char} (h : c.toNat < 0x80) (before rest : List Char) :
    lowerFrom before (c :: rest) = c.toLower :: lowerFrom (c :: before) rest := by
  have hsigma : c ≠ 'Σ' := by
    rintro rfl
    exact absurd h (by decide)
  have hdotted : c ≠ 'İ' := by
    rintro rfl
    exact absurd h (by decide)
  rw [lowerFrom, if_neg hsigma, if_neg hdotted, lowerChar, if_pos h]
  rfl

/-- The small letters of ASCII characters, whatever follows. -/
theorem lowerFrom_append_of_ascii {cs : List Char} (h : ∀ c ∈ cs, c.toNat < 0x80)
    (before rest : List Char) :
    lowerFrom before (cs ++ rest) =
      cs.map Char.toLower ++ lowerFrom (cs.reverse ++ before) rest := by
  induction cs generalizing before with
  | nil => rfl
  | cons c cs ih =>
    obtain ⟨hc, hcs⟩ := List.forall_mem_cons.mp h
    rw [List.cons_append, lowerFrom_cons_of_ascii hc, ih hcs, List.map_cons, List.cons_append,
      List.reverse_cons, List.append_assoc]
    rfl

theorem lowerFrom_of_ascii {cs : List Char} (h : ∀ c ∈ cs, c.toNat < 0x80) (before : List Char) :
    lowerFrom before cs = cs.map Char.toLower := by
  have hall := lowerFrom_append_of_ascii h before []
  rwa [List.append_nil, lowerFrom, List.append_nil] at hall

-- ════════════════════════════════════════════════════════════════════════
-- Characters with these small letters
-- ════════════════════════════════════════════════════════════════════════

/-- Only ASCII characters have ASCII characters for small letters, one by one. -/
theorem ascii_of_toLower {c : Char} (h : c.toLower.toNat < 0x80) : c.toNat < 0x80 := by
  by_contra hbeyond
  have hnot : ¬ ('A'.val ≤ c.val ∧ c.val ≤ 'Z'.val) := by
    rintro ⟨-, hle⟩
    have hcode : c.toNat ≤ 'Z'.toNat := hle
    exact hbeyond (Nat.lt_of_le_of_lt hcode (by decide))
  have hsame : c.toLower = c := dif_neg hnot
  exact hbeyond (hsame ▸ h)

/-- The ASCII characters that are small letters of ASCII characters alone. The dotted capital I and
the sign for kelvin have an ASCII letter in their small letters, and the zero character stands for
what is no character. -/
def IsOwnSmall (c : Char) : Prop := c.toNat < 0x80 ∧ c ∉ ['i', 'k', '\x00']

instance (c : Char) : Decidable (IsOwnSmall c) := inferInstanceAs (Decidable (_ ∧ _))

/-- Beyond ASCII, only the sign for kelvin has an ASCII letter for its small letter. -/
theorem caseRuns_beyond_ascii : ∀ run ∈ caseRuns,
    run.last < 0x80 ∨ 0x80 ≤ (run.first + run.shift).toNat ∨
      run.first = run.last ∧ Char.ofNat (run.first + run.shift).toNat = 'k' := by
  decide +kernel

/-- What is the number of no character stands for the zero character. -/
theorem toNat_ofNat_or (n : Nat) : (Char.ofNat n).toNat = n ∨ Char.ofNat n = '\x00' := by
  by_cases hvalid : n.isValidChar
  · rw [Char.ofNat, dif_pos hvalid]
    exact Or.inl rfl
  · rw [Char.ofNat, dif_neg hvalid]
    exact Or.inr rfl

theorem ascii_of_lowerChar {c : Char} (h : IsOwnSmall (lowerChar c)) : c.toNat < 0x80 := by
  by_contra hbeyond
  rw [lowerChar, if_neg hbeyond] at h
  cases hfind : caseRuns.find? (·.covers c.toNat) with
  | none =>
    rw [hfind] at h
    exact hbeyond h.1
  | some run =>
    rw [hfind] at h
    obtain ⟨hsmall, hnot⟩ : IsOwnSmall (Char.ofNat (c.toNat + run.shift).toNat) := h
    have hcovers := List.find?_some hfind
    simp only [CaseRun.covers, Bool.and_eq_true, decide_eq_true_eq] at hcovers
    obtain ⟨⟨hfirst, hlast⟩, -⟩ := hcovers
    rcases caseRuns_beyond_ascii run (List.mem_of_find?_eq_some hfind) with
      hascii | hshifted | ⟨hsingle, hkelvin⟩
    · omega
    · rcases toNat_ofNat_or (c.toNat + run.shift).toNat with hcode | hzero
      · omega
      · exact hnot (by simp [hzero])
    · have hcode : c.toNat = run.first := by omega
      rw [hcode, hkelvin] at hnot
      exact hnot (by decide)

/-- A text whose small letters start with characters that ASCII characters alone have for small
letters starts with such characters. -/
theorem eq_append_of_lowerFrom {name : List Char} (hname : ∀ c ∈ name, IsOwnSmall c)
    {before cs rest : List Char} (h : lowerFrom before cs = name ++ rest) :
    ∃ head tail, cs = head ++ tail ∧ head.map Char.toLower = name := by
  induction name generalizing before cs with
  | nil => exact ⟨[], cs, rfl, rfl⟩
  | cons small name ih =>
    obtain ⟨hsmall, hname⟩ := List.forall_mem_cons.mp hname
    cases cs with
    | nil => cases h
    | cons c cs =>
      have hc : c.toNat < 0x80 := by
        rw [lowerFrom] at h
        split_ifs at h with hsigma hfinal hdotted
        all_goals obtain ⟨rfl, -⟩ := List.cons.inj h
        · exact absurd hsmall.1 (by decide)
        · exact absurd hsmall.1 (by decide)
        · exact absurd (show 'i' ∈ ['i', 'k', '\x00'] by decide) hsmall.2
        · exact ascii_of_lowerChar hsmall
      rw [lowerFrom_cons_of_ascii hc] at h
      obtain ⟨hfirst, hrest⟩ := List.cons.inj h
      obtain ⟨head, tail, rfl, hhead⟩ := ih hname hrest
      exact ⟨c :: head, tail, rfl, by rw [List.map_cons, hfirst, hhead]⟩

end TwoStage

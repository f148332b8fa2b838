import TwoStage.Proofs.Failure
import TwoStage.Proofs.Text.Case

/-!
# Noise in the log

The log of an engine is full of lines that say nothing about why a stage failed. Whatever lines of
that sort stand before, between and behind the others, the cause that is read out of the log stays
the same. Each of the questions that the log is asked is one about its lines: whether one of them has
a mark, which is the first one with a failed command, and whether one with the start of a report
stands before one with its end. Lines of noise answer none of them.

## Main definitions

- `Strewn` — a list with elements of some sort put in between
- `feedLines` — the lines of a text between its line feeds
- `Failure.IsNoise` — the lines that say nothing about a failure

## Main statements

- `Failure.between?_intercalate` — what is found first is found in the first line that has it
- `Failure.behind_intercalate_cons` — what stands behind another text, line by line
- `Failure.causeOf_strewn`, `Failure.classify_strewn` — noise does not change the cause
-/

namespace TwoStage

/-- A list in which elements of some sort are put before, between and behind those of another. -/
inductive Strewn {α : Type} (sort : α → Prop) : List α → List α → Prop
  | nil : Strewn sort [] []
  | keep {a as bs} (h : Strewn sort as bs) : Strewn sort (a :: as) (a :: bs)
  | add {b as bs} (hb : sort b) (h : Strewn sort as bs) : Strewn sort as (b :: bs)

namespace Strewn

variable {α β : Type} {sort : α → Prop} {as bs : List α}

/-- Elements that do not have a property do not count where one with it is sought. -/
theorem exists_mem_iff (h : Strewn sort as bs) {P : α → Prop} (hP : ∀ b, sort b → ¬ P b) :
    (∃ b ∈ bs, P b) ↔ ∃ a ∈ as, P a := by
  induction h with
  | nil => rfl
  | keep h ih => simp only [List.mem_cons, exists_eq_or_imp, ih]
  | add hb h ih => simp only [List.mem_cons, exists_eq_or_imp, ih, hP _ hb, false_or]

/-- Elements that give nothing do not count where the first one that gives something is sought. -/
theorem findSome?_eq (h : Strewn sort as bs) {f : α → Option β} (hf : ∀ b, sort b → f b = none) :
    bs.findSome? f = as.findSome? f := by
  induction h with
  | nil => rfl
  | keep h ih => rw [List.findSome?_cons, List.findSome?_cons, ih]
  | add hb h ih => rw [List.findSome?_cons, hf _ hb, ih]

end Strewn

/-- The lines of a text between its line feeds. -/
def feedLines (s : String) : List String := (splitAtEach '\n' s.toList).map String.ofList

theorem joinWith_feedLines (s : String) : joinWith "\n" (feedLines s) = s := by
  have hnewline : "\n".toList = ['\n'] := rfl
  have hback : (feedLines s).map String.toList = splitAtEach '\n' s.toList := by
    simp [feedLines, Function.comp_def]
  rw [← String.toList_inj, toList_joinWith, hback, hnewline, splitAtEach_eq_splitOn,
    List.intercalate_splitOn]

namespace Failure

/-- The texts that a log is searched for as they stand. -/
def plainMarks : List String :=
  ["process \"", "The command '", "failed to compute cache key", "COPY failed:", "not found",
    "no such file", "does not exist"]

/-- A line that says nothing about a failure: it has none of the texts that a log is searched for,
and in small letters none of the marks of base images and of the network. -/
structure IsNoise (line : String) : Prop where
  oneLine : '\n' ∉ line.toList
  plain : hasMark plainMarks line = false
  base : hasMark baseMarks (lower line) = false
  network : hasMark networkMarks (lower line) = false

/-- None of the texts that a log is searched for occurs in a line of noise. -/
theorem IsNoise.not_infix {line mark : String} (h : IsNoise line) (hmark : mark ∈ plainMarks) :
    ¬ mark.toList <:+: line.toList := by
  intro hpart
  have hhas : hasMark plainMarks line = true := hasMark_iff.mpr ⟨mark, hmark, hpart⟩
  rw [h.plain] at hhas
  cases hhas

-- ════════════════════════════════════════════════════════════════════════
-- Marks
-- ════════════════════════════════════════════════════════════════════════

/-- A mark that lines in small letters are searched for: it is not empty, stands on one line and
holds no sigma. -/
def IsPlainMark (mark : String) : Prop :=
  mark ≠ "" ∧ '\n' ∉ mark.toList ∧ 'σ' ∉ mark.toList ∧ 'ς' ∉ mark.toList

instance (mark : String) : Decidable (IsPlainMark mark) :=
  inferInstanceAs (Decidable (_ ∧ _))

/-- Marks are found in the small letters of a log where they are found in those of a line. -/
theorem hasMark_lower_joinWith_iff {marks : List String} (hmarks : ∀ mark ∈ marks, IsPlainMark mark)
    (lines : List String) :
    hasMark marks (lower (joinWith "\n" lines)) = true ↔
      ∃ line ∈ lines, hasMark marks (lower line) = true := by
  simp only [hasMark_iff, ← contains_iff]
  constructor
  · rintro ⟨mark, hmark, hcontains⟩
    obtain ⟨hne, hline, hsigma⟩ := hmarks mark hmark
    obtain ⟨line, hmem, hthere⟩ := (contains_lower_joinWith_iff hline hne hsigma lines).mp hcontains
    exact ⟨line, hmem, mark, hmark, hthere⟩
  · rintro ⟨line, hmem, mark, hmark, hthere⟩
    obtain ⟨hne, hline, hsigma⟩ := hmarks mark hmark
    exact ⟨mark, hmark, (contains_lower_joinWith_iff hline hne hsigma lines).mpr ⟨line, hmem, hthere⟩⟩

-- ════════════════════════════════════════════════════════════════════════
-- The command that failed
-- ════════════════════════════════════════════════════════════════════════

section Between

variable {first : Char} {opening closing : List Char}

/-- Nothing behind a line feed is read. -/
theorem lineUpTo?_append_newline (hclosing : '\n' ∉ closing) (hne : closing ≠ [])
    (taken line rest : List Char) :
    lineUpTo? closing taken (line ++ '\n' :: rest) = lineUpTo? closing taken line := by
  induction line generalizing taken with
  | nil =>
    have hends : closing.isPrefixOf ('\n' :: rest) = false := by
      rw [Bool.eq_false_iff, ne_eq, List.isPrefixOf_iff_prefix]
      intro hstart
      rcases List.prefix_cons_iff.mp hstart with rfl | ⟨more, rfl, -⟩
      · exact hne rfl
      · exact hclosing List.mem_cons_self
    have hend : lineUpTo? closing taken [] = none := rfl
    rw [hend, List.nil_append, lineUpTo?, hends, Bool.and_false, if_neg Bool.false_ne_true,
      if_pos rfl]
  | cons c line ih =>
    have hsame : closing.isPrefixOf (c :: (line ++ '\n' :: rest)) = closing.isPrefixOf (c :: line) := by
      rw [Bool.eq_iff_iff, List.isPrefixOf_iff_prefix, List.isPrefixOf_iff_prefix,
        ← List.cons_append, prefix_append_cons_iff hclosing]
    rw [List.cons_append, lineUpTo?, lineUpTo?, hsame, ih]

theorem afterStart?_append_newline {start : List Char} (hstart : '\n' ∉ start)
    (line rest : List Char) :
    afterStart? start (line ++ '\n' :: rest) =
      (afterStart? start line).map (· ++ '\n' :: rest) := by
  induction start generalizing line with
  | nil => rfl
  | cons p start ih =>
    rw [List.mem_cons, not_or] at hstart
    cases line with
    | nil =>
      have hend : afterStart? (p :: start) [] = none := rfl
      rw [hend, List.nil_append, afterStart?, if_neg (Ne.symm hstart.1), Option.map_none]
    | cons c line =>
      rw [List.cons_append, afterStart?, afterStart?]
      split
      · exact ih hstart.2 line
      · rfl

/-- What is found first in two parts with a line feed between them is found in the first part, or
else in the second. -/
theorem between?_append_newline (hopening : '\n' ∉ first :: opening) (hclosing : '\n' ∉ closing)
    (hne : closing ≠ []) (line rest : List Char) :
    between? (first :: opening) closing (line ++ '\n' :: rest) =
      (between? (first :: opening) closing line).or (between? (first :: opening) closing rest) := by
  induction line with
  | nil =>
    have hfirst : first ≠ '\n' := fun heq => hopening (heq ▸ List.mem_cons_self)
    have hend : between? (first :: opening) closing [] = none := rfl
    rw [hend, Option.none_or, List.nil_append, between?, afterStart?, if_neg hfirst,
      Option.bind_none]
  | cons c line ih =>
    have hhere : (afterStart? (first :: opening) (c :: line ++ '\n' :: rest)).bind
        (lineUpTo? closing []) =
        (afterStart? (first :: opening) (c :: line)).bind (lineUpTo? closing []) := by
      rw [afterStart?_append_newline hopening]
      cases afterStart? (first :: opening) (c :: line) with
      | none => rfl
      | some after => exact lineUpTo?_append_newline hclosing hne [] after rest
    rw [List.cons_append] at hhere ⊢
    rw [between?, between?, hhere, ih]
    split
    · rfl
    · rfl

/-- What is found first in lines that are put together is found in the first line that has it. -/
theorem between?_intercalate (hopening : '\n' ∉ first :: opening) (hclosing : '\n' ∉ closing)
    (hne : closing ≠ []) (lines : List (List Char)) :
    between? (first :: opening) closing (['\n'].intercalate lines) =
      lines.findSome? (between? (first :: opening) closing) := by
  induction lines with
  | nil => rfl
  | cons line rest ih =>
    rw [List.findSome?_cons]
    rcases intercalate_cons_cases '\n' line rest with ⟨rfl, hjoined⟩ | hjoined
    · rw [hjoined]
      split
      · next heq => exact heq
      · next heq => exact heq
    · rw [hjoined, between?_append_newline hopening hclosing hne, ih]
      split
      · next heq => rw [heq, Option.some_or]
      · next heq => rw [heq, Option.none_or]

/-- Nothing is found where the opening does not occur. -/
theorem between?_of_not_infix {cs : List Char} (h : ¬ opening <:+: cs) :
    between? opening closing cs = none := by
  rw [Option.eq_none_iff_forall_ne_some]
  intro found hfound
  obtain ⟨before, rest, rfl, -⟩ := between?_eq_some hfound
  exact h ⟨before, _, List.append_assoc before opening _⟩

end Between

theorem between?_strewn {lines noisy : List String} (h : Strewn IsNoise lines noisy)
    {opening closing : List Char} (hmark : ∃ mark ∈ plainMarks, mark.toList = opening)
    (hopening : '\n' ∉ opening) (hclosing : '\n' ∉ closing) (hne : opening ≠ [] ∧ closing ≠ []) :
    between? opening closing (joinWith "\n" noisy).toList =
      between? opening closing (joinWith "\n" lines).toList := by
  obtain ⟨mark, hmem, rfl⟩ := hmark
  have hnewline : "\n".toList = ['\n'] := rfl
  have hsilent : ∀ line, IsNoise line → between? mark.toList closing line.toList = none :=
    fun line hline => between?_of_not_infix (hline.not_infix hmem)
  have hjoined : ∀ lines : List String, between? mark.toList closing (joinWith "\n" lines).toList =
      lines.findSome? fun line => between? mark.toList closing line.toList := by
    intro lines
    obtain ⟨first, opening, heq⟩ := List.exists_cons_of_ne_nil hne.1
    rw [heq] at hopening ⊢
    rw [toList_joinWith, hnewline, between?_intercalate hopening hclosing hne.2, List.findSome?_map]
    rfl
  rw [hjoined, hjoined, h.findSome?_eq hsilent]

/-- The command that failed is read out of the lines that are no noise. -/
theorem failedCommand?_strewn {lines noisy : List String} (h : Strewn IsNoise lines noisy) :
    failedCommand? (joinWith "\n" noisy) = failedCommand? (joinWith "\n" lines) := by
  unfold failedCommand?
  dsimp only
  rw [between?_strewn h ⟨"process \"", by decide, rfl⟩ (by decide) (by decide) (by decide),
    between?_strewn h ⟨"The command '", by decide, rfl⟩ (by decide) (by decide) (by decide)]

-- ════════════════════════════════════════════════════════════════════════
-- Files to copy
-- ════════════════════════════════════════════════════════════════════════

/-- A text stands somewhere behind another one. -/
def Behind (first other cs : List Char) : Prop :=
  ∃ before after, cs = before ++ (first ++ after) ∧ other <:+: after

section Behind

variable {first other : List Char}

/-- What holds of a text whenever it holds of its end is found behind the first occurrence, if it is
behind any. -/
theorem exists_afterFirst?_iff {P : List Char → Prop} (hP : ∀ tail cs, tail <:+ cs → P tail → P cs)
    (cs : List Char) :
    (∃ rest, afterFirst? first cs = some rest ∧ P rest) ↔
      ∃ before after, cs = before ++ (first ++ after) ∧ P after := by
  induction cs with
  | nil =>
    cases first with
    | nil => simp [afterFirst?]
    | cons c first => simp [afterFirst?]
  | cons c cs ih =>
    rw [afterFirst?]
    cases hstart : afterStart? first (c :: cs) with
    | some tail =>
      have hcs := afterStart?_eq_some_iff.mp hstart
      constructor
      · rintro ⟨rest, hrest, hP'⟩
        cases hrest
        exact ⟨[], tail, hcs, hP'⟩
      · rintro ⟨before, after, heq, hafter⟩
        have hsuffix : after <:+ tail := by
          have hwhole : after <:+ c :: cs := by
            rw [heq, ← List.append_assoc]
            exact List.suffix_append _ after
          have htail : tail <:+ c :: cs := by
            rw [hcs]
            exact List.suffix_append first tail
          have hlength := congrArg List.length (hcs.symm.trans heq)
          simp only [List.length_append] at hlength
          exact List.suffix_of_suffix_length_le hwhole htail (by omega)
        exact ⟨tail, rfl, hP after tail hsuffix hafter⟩
    | none =>
      dsimp only
      rw [ih]
      constructor
      · rintro ⟨before, after, rfl, hafter⟩
        exact ⟨c :: before, after, rfl, hafter⟩
      · rintro ⟨before, after, heq, hafter⟩
        cases before with
        | nil =>
          rw [List.nil_append] at heq
          rw [afterStart?_eq_some_iff.mpr heq] at hstart
          cases hstart
        | cons d before =>
          cases heq
          exact ⟨before, after, rfl, hafter⟩

theorem hasBehind_iff {s first : String} {others : List String} :
    hasBehind s first others = true ↔
      ∃ other ∈ others, Behind first.toList other.toList s.toList := by
  have hlonger : ∀ tail cs : List Char, tail <:+ cs →
      (∃ other ∈ others, other.toList <:+: tail) → ∃ other ∈ others, other.toList <:+: cs := by
    rintro tail cs htail ⟨other, hmem, hpart⟩
    exact ⟨other, hmem, hpart.trans htail.isInfix⟩
  have hfound : hasBehind s first others = true ↔
      ∃ rest, afterFirst? first.toList s.toList = some rest ∧
        ∃ other ∈ others, other.toList <:+: rest := by
    rw [hasBehind]
    cases afterFirst? first.toList s.toList with
    | none => simp
    | some rest => simp [containsChars_iff]
  rw [hfound, exists_afterFirst?_iff hlonger]
  constructor
  · rintro ⟨before, after, heq, other, hmem, hpart⟩
    exact ⟨other, hmem, before, after, heq, hpart⟩
  · rintro ⟨other, hmem, before, after, heq, hpart⟩
    exact ⟨before, after, heq, other, hmem, hpart⟩

/-- In two parts with a line feed between them, a text stands behind another one in one of the
parts, or the other one is in the first part and the text in the second. -/
theorem behind_append_newline (hfirst : '\n' ∉ first) (hother : '\n' ∉ other)
    (line rest : List Char) :
    Behind first other (line ++ '\n' :: rest) ↔
      Behind first other line ∨ (first <:+: line ∧ other <:+: rest) ∨ Behind first other rest := by
  constructor
  · rintro ⟨before, after, heq, hpart⟩
    rw [← List.append_assoc] at heq
    rcases List.append_eq_append_iff.mp heq with ⟨middle, hbefore, hafter⟩ | ⟨middle, rfl, rfl⟩
    · cases middle with
      | nil =>
        rw [List.nil_append] at hafter
        rw [List.append_nil] at hbefore
        rw [← hafter, ← List.nil_append ('\n' :: rest), infix_append_cons_iff hother] at hpart
        refine Or.inr (Or.inl ⟨⟨before, [], by rw [hbefore, List.append_nil]⟩, ?_⟩)
        exact hpart.elim (fun hnil => hnil.trans List.nil_infix) id
      | cons c middle =>
        cases hafter
        have hends : first <:+ line ++ '\n' :: middle := ⟨before, hbefore⟩
        obtain ⟨start, rfl⟩ := (suffix_append_cons_iff hfirst).mp hends
        exact Or.inr (Or.inr ⟨start, after, List.append_assoc start first after, hpart⟩)
    · rcases (infix_append_cons_iff hother).mp hpart with hmiddle | hrest
      · exact Or.inl ⟨before, middle, List.append_assoc before first middle, hmiddle⟩
      · exact Or.inr (Or.inl ⟨⟨before, middle, rfl⟩, hrest⟩)
  · rintro (⟨before, after, rfl, hpart⟩ | ⟨⟨before, middle, rfl⟩, hrest⟩ |
      ⟨before, after, rfl, hpart⟩)
    · exact ⟨before, after ++ '\n' :: rest, by simp only [List.append_assoc],
        (infix_append_cons_iff hother).mpr (Or.inl hpart)⟩
    · exact ⟨before, middle ++ '\n' :: rest, by simp only [List.append_assoc],
        (infix_append_cons_iff hother).mpr (Or.inr hrest)⟩
    · exact ⟨line ++ '\n' :: before, after, by simp, hpart⟩

/-- In lines that are put together, a text stands behind another one in the first line, or in the
others, or the other one is in the first line and the text in another. -/
theorem behind_intercalate_cons (hfirst : '\n' ∉ first) (hother : '\n' ∉ other)
    (hne : first ≠ [] ∧ other ≠ []) (line : List Char) (lines : List (List Char)) :
    Behind first other (['\n'].intercalate (line :: lines)) ↔
      Behind first other line ∨ (first <:+: line ∧ ∃ next ∈ lines, other <:+: next) ∨
        Behind first other (['\n'].intercalate lines) := by
  rcases intercalate_cons_cases '\n' line lines with ⟨rfl, hjoined⟩ | hjoined
  · have hnone : ¬ Behind first other [] := by
      rintro ⟨before, after, hnil, -⟩
      simp [hne.1] at hnil
    rw [hjoined]
    simp [List.intercalate, hnone]
  · rw [hjoined, behind_append_newline hfirst hother, infix_intercalate_iff hother hne.2]

end Behind

theorem behind_strewn {lines noisy : List String} (h : Strewn IsNoise lines noisy)
    {first other : String} (hmarks : first ∈ plainMarks ∧ other ∈ plainMarks)
    (hline : '\n' ∉ first.toList ∧ '\n' ∉ other.toList)
    (hne : first.toList ≠ [] ∧ other.toList ≠ []) :
    Behind first.toList other.toList (joinWith "\n" noisy).toList ↔
      Behind first.toList other.toList (joinWith "\n" lines).toList := by
  have hnewline : "\n".toList = ['\n'] := rfl
  simp only [toList_joinWith, hnewline]
  induction h with
  | nil => exact Iff.rfl
  | @keep line lines noisy h ih =>
    have hrest := h.exists_mem_iff (P := fun line => other.toList <:+: line.toList)
      fun _ hnoise => hnoise.not_infix hmarks.2
    simp only [List.map_cons, behind_intercalate_cons hline.1 hline.2 hne, List.mem_map,
      exists_exists_and_eq_and, ih, hrest]
  | @add line lines noisy hnoise h ih =>
    have hfirst := hnoise.not_infix hmarks.1
    have hhere : ¬ Behind first.toList other.toList line.toList := by
      rintro ⟨before, after, heq, -⟩
      exact hfirst ⟨before, after, by rw [heq, List.append_assoc]⟩
    simp only [List.map_cons, behind_intercalate_cons hline.1 hline.2 hne, ih, hfirst, hhere,
      false_and, false_or]

/-- Whether a file to copy is missing is said by the lines that are no noise. -/
theorem saysCopyMissing_strewn {lines noisy : List String} (h : Strewn IsNoise lines noisy) :
    saysCopyMissing (joinWith "\n" noisy) = saysCopyMissing (joinWith "\n" lines) := by
  have hall : ∀ first ∈ plainMarks, ∀ others ⊆ plainMarks,
      hasBehind (joinWith "\n" noisy) first others = hasBehind (joinWith "\n" lines) first others := by
    intro first hfirst others hothers
    have hmarks : ∀ mark ∈ plainMarks, '\n' ∉ mark.toList ∧ mark.toList ≠ [] := by decide
    rw [Bool.eq_iff_iff, hasBehind_iff, hasBehind_iff]
    refine exists_congr fun other => and_congr_right fun hother => ?_
    have hmem := hothers hother
    exact behind_strewn h ⟨hfirst, hmem⟩ ⟨(hmarks first hfirst).1, (hmarks other hmem).1⟩
      ⟨(hmarks first hfirst).2, (hmarks other hmem).2⟩
  rw [saysCopyMissing, saysCopyMissing, hall _ (by decide) _ (by decide),
    hall _ (by decide) _ (by decide)]

-- ════════════════════════════════════════════════════════════════════════
-- The cause
-- ════════════════════════════════════════════════════════════════════════

theorem hasMark_lower_strewn {lines noisy : List String} (h : Strewn IsNoise lines noisy)
    {marks : List String} (hmarks : ∀ mark ∈ marks, IsPlainMark mark)
    (hsilent : ∀ line, IsNoise line → hasMark marks (lower line) = false) :
    hasMark marks (lower (joinWith "\n" noisy)) = hasMark marks (lower (joinWith "\n" lines)) := by
  rw [Bool.eq_iff_iff, hasMark_lower_joinWith_iff hmarks, hasMark_lower_joinWith_iff hmarks]
  exact h.exists_mem_iff fun line hline => by simp [hsilent line hline]

/-- Lines of noise do not change the cause that a log tells of. -/
theorem causeOf_strewn {lines noisy : List String} (h : Strewn IsNoise lines noisy) :
    causeOf (joinWith "\n" noisy) = causeOf (joinWith "\n" lines) := by
  rw [causeOf, causeOf, hasMark_lower_strewn h (by decide) fun _ hline => hline.base,
    hasMark_lower_strewn h (by decide) fun _ hline => hline.network, failedCommand?_strewn h,
    saysCopyMissing_strewn h]

/-- Whatever lines of noise are put before, between and behind the lines of a log, the failure that
it tells of is of the same kind and has the same wording. -/
theorem classify_strewn (stage log : String) {noisy : List String}
    (h : Strewn IsNoise (feedLines log) noisy) :
    (classify stage (joinWith "\n" noisy)).kind = (classify stage log).kind ∧
      (classify stage (joinWith "\n" noisy)).message = (classify stage log).message := by
  have hcause := causeOf_strewn h
  rw [joinWith_feedLines] at hcause
  constructor
  · rw [kind, kind, classify, classify, hcause]
  · rw [message, message, classify, classify, hcause]

theorem isNoise_warning : IsNoise "warning: unused import: \x60Σ\x60" where
  oneLine := by decide
  plain := by decide
  base := by decide +kernel
  network := by decide +kernel

/-- A warning of the compiler before the report of a failed command changes nothing. -/
theorem classify_strewn_warning :
    Strewn IsNoise (feedLines (report "cargo build"))
        ["warning: unused import: \x60Σ\x60", report "cargo build"] ∧
      (classify "build" (joinWith "\n"
        ["warning: unused import: \x60Σ\x60", report "cargo build"])).message =
        (classify "build" (report "cargo build")).message := by
  have hlines : feedLines (report "cargo build") = [report "cargo build"] := by decide
  have hstrewn : Strewn IsNoise (feedLines (report "cargo build"))
      ["warning: unused import: \x60Σ\x60", report "cargo build"] := by
    rw [hlines]
    exact .add isNoise_warning (.keep .nil)
  exact ⟨hstrewn, (classify_strewn "build" (report "cargo build") hstrewn).2⟩

end Failure

end TwoStage

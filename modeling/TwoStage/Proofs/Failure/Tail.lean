import TwoStage.Failure
import TwoStage.Proofs.Text.Lines

/-!
# The end of a log

What is shown of the log of a failed stage are its last lines, whichever characters end the lines of
the log. The blanks at the ends of the log are cut off before, so that the last of these lines says
something, and the line breaks at the end of the log, which are blank, count for no lines. The lines
that are shown are joined by line feeds and are read out of the text again, also where the first of
them are empty.

## Main definitions

- `ShowsLast` — a text that shows the last lines of a log

## Main statements

- `splitLines_joinWith_of_suffix` — any number of last lines are read again where they are joined
- `splitLines_logTail` — the lines of the text that is shown
- `Failure.tail_showsLast` — the log of a failure is shown by its last lines
-/

namespace TwoStage

/-- A text that shows the last lines of a log without the blanks at its ends, `most` of them or all
if there are fewer. -/
structure ShowsLast (most : Nat) (log shown : String) : Prop where
  /-- Its lines are the last ones of the log, in order. -/
  suffix : splitLines shown <:+ splitLines (strip log)
  /-- They are as many as the log has, and `most` at most. -/
  length : (splitLines shown).length = min most (splitLines (strip log)).length
  /-- No line break occurs in it but the line feed. -/
  feeds : ∀ c ∈ shown.toList, isLineBreak c = true → c = '\n'
  /-- There is nothing to show of a blank log alone. -/
  empty : shown = "" ↔ Blank log
  /-- A log that is not blank has a last line that is not blank either, and it is shown. -/
  last : ¬ Blank log → ∃ line, (splitLines shown).getLast? = some line ∧ ¬ Blank line

-- ════════════════════════════════════════════════════════════════════════
-- Any number of last lines
-- ════════════════════════════════════════════════════════════════════════

section LastLines

variable {log line : String} {lines : List String} (hlines : lines <:+ splitLines (strip log))

include hlines

theorem unbroken_of_suffix : ∀ line ∈ lines, Unbroken line.toList :=
  fun _ hline => unbroken_of_mem_splitLines (hlines.subset hline)

/-- However many of the last lines are taken, the last of them is that of the log. -/
theorem not_blank_of_suffix (hlast : lines.getLast? = some line) : ¬ Blank line := by
  obtain ⟨before, hbefore⟩ := hlines
  apply not_blank_of_getLast?_splitLines
  rw [← hbefore, List.getLast?_append, hlast, Option.some_or]

/-- The last lines of a log are read again out of a text that they are joined to. -/
theorem splitLines_joinWith_of_suffix : splitLines (joinWith "\n" lines) = lines := by
  apply splitLines_joinWith (unbroken_of_suffix hlines)
  intro hlast
  -- an empty line would be a blank one
  exact not_blank_of_suffix hlines hlast (List.forall_mem_nil _)

end LastLines

-- ════════════════════════════════════════════════════════════════════════
-- The lines that are shown
-- ════════════════════════════════════════════════════════════════════════

section Tail

variable (log : String)

theorem logTail_eq : logTail log = joinWith "\n" ((splitLines (strip log)).rtake 20) := rfl

theorem rtake_lines_suffix : (splitLines (strip log)).rtake 20 <:+ splitLines (strip log) :=
  List.drop_suffix _ _

/-- The text that is shown is split into the last lines of the log. -/
theorem splitLines_logTail : splitLines (logTail log) = (splitLines (strip log)).rtake 20 := by
  rw [logTail_eq, splitLines_joinWith_of_suffix (rtake_lines_suffix log)]

theorem length_splitLines_logTail :
    (splitLines (logTail log)).length = min 20 (splitLines (strip log)).length := by
  rw [splitLines_logTail, List.rtake, List.length_drop]
  omega

theorem logTail_eq_empty_iff : logTail log = "" ↔ Blank log := by
  rw [← strip_eq_empty_iff, ← splitLines_eq_nil_iff, ← splitLines_eq_nil_iff,
    ← List.length_eq_zero_iff, ← List.length_eq_zero_iff, length_splitLines_logTail]
  omega

end Tail

/-- Of the log of a failure exactly the last lines are shown. -/
theorem Failure.tail_showsLast (failure : Failure) : ShowsLast 20 failure.log failure.tail := by
  have hsuffix : splitLines failure.tail <:+ splitLines (strip failure.log) := by
    rw [tail, splitLines_logTail]
    exact rtake_lines_suffix failure.log
  refine ⟨hsuffix, length_splitLines_logTail failure.log, ?feeds, logTail_eq_empty_iff failure.log,
    ?last⟩
  case feeds =>
    intro c hc hbreak
    rw [tail, logTail_eq] at hc
    exact eq_newline_of_mem_joinWith (unbroken_of_suffix (rtake_lines_suffix failure.log)) hc hbreak
  case last =>
    intro hlog
    have hne : splitLines failure.tail ≠ [] := by
      rw [Ne, splitLines_eq_nil_iff, tail, logTail_eq_empty_iff]
      exact hlog
    have hlast := List.getLast?_eq_some_getLast hne
    exact ⟨_, hlast, not_blank_of_suffix hsuffix hlast⟩

/-- Whatever ends the lines of a log, what is shown of it has line feeds. -/
example : logTail "\u0085a\r\n\u2028\x0b b\n\u2029 " = "a\n\n\n b" := by decide +kernel

end TwoStage

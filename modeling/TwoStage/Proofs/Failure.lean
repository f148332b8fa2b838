import TwoStage.Failure
import TwoStage.Proofs.Text.Occurrence
import TwoStage.Proofs.Text.Pieces

/-!
# Classifying failures

Which logs are told to be of which kind, and what is read out of the line with which the engine
reports that a command failed. The command is read up to the first text that looks like the end of
such a report, and a command without quotes that goes over several lines is not read at all.

## Main definitions

- `Failure.report` — the line that reports a failed command
- `Failure.upTo` — the characters before a text
- `Failure.reported` — what is read out of the report of a command

## Main statements

- `Failure.kind_of_base`, `Failure.kind_of_command`, `Failure.kind_of_none` — what the kind depends
  on
- `Failure.failedCommand?_report` — what is read of a command on one line
- `Failure.failedCommand?_report_eq_none` — a plain command on several lines is not read
-/

namespace TwoStage.Failure

/-- The line with which the engine reports that a command of a stage failed. -/
def report (command : String) : String :=
  "ERROR: failed to solve: process \"/bin/sh -c " ++ command ++
    "\" did not complete successfully: exit code: 1"

/-- The characters before the first `ending`, all of them if there is none. -/
def upTo (ending : List Char) : List Char → List Char
  | [] => []
  | c :: rest => if ending.isPrefixOf (c :: rest) then [] else c :: upTo ending rest

/-- What is read of a command out of the report of its failure. -/
def reported (command : String) : String :=
  String.ofList (upTo "\" did not complete successfully".toList command.toList)

theorem hasMark_iff {marks : List String} {s : String} :
    hasMark marks s = true ↔ ∃ mark ∈ marks, mark.toList <:+: s.toList := by
  rw [hasMark, List.any_eq_true]
  simp only [contains_iff]

-- ════════════════════════════════════════════════════════════════════════
-- Kinds
-- ════════════════════════════════════════════════════════════════════════

section Kinds

variable (stage : String) {log : String}

/-- A base image that cannot be found is told whatever else the log says. -/
theorem kind_of_base (hbase : hasMark baseMarks (lower log) = true) :
    (classify stage log).kind = .dependency := by
  rw [kind, classify, causeOf, if_pos hbase]
  rfl

/-- The marks of the command that is read decide, and those of the network after them. -/
theorem kind_of_command (hbase : hasMark baseMarks (lower log) = false) {command : String}
    (h : failedCommand? log = some command) :
    (classify stage log).kind =
      if hasMark packageMarks command then .dependency
      else if hasMark identityMarks command then .identity
      else if hasMark networkMarks (lower log) then .dependency
      else .compile := by
  rw [kind, classify, causeOf, if_neg (Bool.eq_false_iff.mp hbase), h]
  dsimp only
  split
  · rfl
  · split
    · rfl
    · split
      · rfl
      · rfl

/-- Where no command is read, none is told to have failed. -/
theorem kind_of_none (hbase : hasMark baseMarks (lower log) = false)
    (h : failedCommand? log = none) :
    (classify stage log).kind = .artifactMissing ∨ (classify stage log).kind = .stage := by
  rw [kind, classify, causeOf, if_neg (Bool.eq_false_iff.mp hbase), h]
  dsimp only
  split
  · exact Or.inl rfl
  · exact Or.inr rfl

end Kinds

-- ════════════════════════════════════════════════════════════════════════
-- Reading on one line
-- ════════════════════════════════════════════════════════════════════════

section OneLine

variable {mark : Char} {ending command : List Char} (hmark : mark ∉ ending)

include hmark

/-- No end of the report begins inside of a command and ends behind it. -/
theorem isPrefixOf_append_ending (c : Char) (rest : List Char) :
    (mark :: ending).isPrefixOf (c :: (command ++ mark :: rest)) =
      (mark :: ending).isPrefixOf (c :: command) := by
  rw [Bool.eq_iff_iff, List.isPrefixOf_iff_prefix, List.isPrefixOf_iff_prefix,
    List.cons_prefix_cons, List.cons_prefix_cons, prefix_append_cons_iff hmark]

/-- A line is read up to the first end of a report. -/
theorem lineUpTo?_append (hline : '\n' ∉ command) {taken : List Char} (htaken : taken ≠ [])
    (rest : List Char) :
    lineUpTo? (mark :: ending) taken (command ++ mark :: (ending ++ rest)) =
      some (taken.reverse ++ upTo (mark :: ending) command) := by
  have htaken' : ∀ taken : List Char, taken ≠ [] → (!taken.isEmpty) = true := by simp
  induction command generalizing taken with
  | nil =>
    have hends : (mark :: ending).isPrefixOf (mark :: (ending ++ rest)) = true :=
      List.isPrefixOf_iff_prefix.mpr (List.prefix_append (mark :: ending) rest)
    rw [List.nil_append, lineUpTo?, hends, htaken' taken htaken, Bool.and_true, if_pos rfl, upTo,
      List.append_nil]
  | cons c command ih =>
    rw [List.mem_cons, not_or] at hline
    rw [List.cons_append, lineUpTo?, isPrefixOf_append_ending hmark, htaken' taken htaken,
      Bool.true_and, upTo]
    by_cases hends : (mark :: ending).isPrefixOf (c :: command) = true
    · rw [if_pos hends, if_pos hends, List.append_nil]
    · rw [if_neg hends, if_neg hends, if_neg (Ne.symm hline.1),
        ih hline.2 (List.cons_ne_nil c taken), List.reverse_cons, List.append_assoc,
        List.singleton_append]

omit hmark

/-- The first character is read in any case, but for a line feed. -/
theorem lineUpTo?_start {c : Char} (hc : c ≠ '\n') (rest : List Char) :
    lineUpTo? ending [] (c :: rest) = lineUpTo? ending [c] rest := by
  rw [lineUpTo?, List.isEmpty_nil, Bool.not_true, Bool.false_and, if_neg Bool.false_ne_true,
    if_neg hc]

/-- No end of a report stands in a text without its first character. -/
theorem upTo_of_not_mem (h : mark ∉ command) : upTo (mark :: ending) command = command := by
  induction command with
  | nil => rfl
  | cons c command ih =>
    rw [List.mem_cons, not_or] at h
    have hends : ¬ (mark :: ending).isPrefixOf (c :: command) = true := by
      rw [List.isPrefixOf_iff_prefix, List.cons_prefix_cons]
      exact fun hstart => h.1 hstart.1
    rw [upTo, if_neg hends, ih h.2]

theorem upTo_append {before : List Char} (h : mark ∉ before) :
    upTo (mark :: ending) (before ++ command) = before ++ upTo (mark :: ending) command := by
  induction before with
  | nil => rfl
  | cons c before ih =>
    rw [List.mem_cons, not_or] at h
    have hends : ¬ (mark :: ending).isPrefixOf (c :: (before ++ command)) = true := by
      rw [List.isPrefixOf_iff_prefix, List.cons_prefix_cons]
      exact fun hstart => h.1 hstart.1
    rw [List.cons_append, upTo, if_neg hends, ih h.2, List.cons_append]

end OneLine

-- ════════════════════════════════════════════════════════════════════════
-- Searching the log
-- ════════════════════════════════════════════════════════════════════════

section Between

variable {first : Char} {opening closing cs found : List Char}

/-- The search goes over what the first character does not occur in. -/
theorem between?_append {before : List Char} (h : first ∉ before) (after : List Char) :
    between? (first :: opening) closing (before ++ after) =
      between? (first :: opening) closing after := by
  induction before with
  | nil => rfl
  | cons c before ih =>
    rw [List.mem_cons, not_or] at h
    rw [List.cons_append, between?, afterStart?, if_neg h.1, Option.bind_none]
    exact ih h.2

/-- What stands behind the opening is read. -/
theorem between?_opening (h : lineUpTo? closing [] cs = some found) :
    between? (first :: opening) closing (first :: (opening ++ cs)) = some found := by
  have hstart : afterStart? (first :: opening) (first :: (opening ++ cs)) = some cs :=
    afterStart?_eq_some_iff.mpr rfl
  rw [between?, hstart, Option.bind_some, h]

/-- What is read of a line stands on it before the ending. -/
theorem lineUpTo?_eq_some {taken : List Char} (h : lineUpTo? closing taken cs = some found) :
    ∃ inside rest, cs = inside ++ (closing ++ rest) ∧ found = taken.reverse ++ inside ∧
      '\n' ∉ inside := by
  induction cs generalizing taken with
  | nil => cases h
  | cons c cs ih =>
    rw [lineUpTo?] at h
    split at h
    · next hends =>
      rw [Bool.and_eq_true, List.isPrefixOf_iff_prefix] at hends
      obtain ⟨rest, hrest⟩ := hends.2
      exact ⟨[], rest, hrest.symm, by rw [List.append_nil]; exact (Option.some.inj h).symm,
        List.not_mem_nil⟩
    · split at h
      · cases h
      · next hc =>
        obtain ⟨inside, rest, rfl, rfl, hline⟩ := ih h
        refine ⟨c :: inside, rest, rfl, ?_, ?_⟩
        · rw [List.reverse_cons, List.append_assoc, List.singleton_append]
        · rw [List.mem_cons, not_or]
          exact ⟨Ne.symm hc, hline⟩

/-- What is found stands on one line between the opening and the closing. -/
theorem between?_eq_some (h : between? opening closing cs = some found) :
    ∃ before rest, cs = before ++ (opening ++ (found ++ (closing ++ rest))) ∧ '\n' ∉ found := by
  induction cs with
  | nil => cases h
  | cons c cs ih =>
    rw [between?] at h
    split at h
    · next found' hfound =>
      cases h
      obtain ⟨after, hafter, hline⟩ := Option.bind_eq_some_iff.mp hfound
      obtain ⟨inside, rest, rfl, rfl, hlines⟩ := lineUpTo?_eq_some hline
      have hcs := afterStart?_eq_some_iff.mp hafter
      exact ⟨[], rest, hcs, hlines⟩
    · obtain ⟨before, rest, rfl, hlines⟩ := ih h
      exact ⟨c :: before, rest, rfl, hlines⟩

end Between

-- ════════════════════════════════════════════════════════════════════════
-- Reports
-- ════════════════════════════════════════════════════════════════════════

section Report

variable {command : String}

/-- What stands between the only two marks of a text. -/
theorem eq_between_marks {mark : Char} {start middle rest start' middle' rest' : List Char}
    (hstart : mark ∉ start) (hmiddle : mark ∉ middle) (hrest : mark ∉ rest)
    (h : start ++ mark :: (middle ++ mark :: rest) = start' ++ mark :: (middle' ++ mark :: rest')) :
    middle = middle' := by
  have hcount := congrArg (List.count mark) h
  simp only [List.count_append, List.count_cons_self, List.count_eq_zero_of_not_mem hstart,
    List.count_eq_zero_of_not_mem hmiddle, List.count_eq_zero_of_not_mem hrest] at hcount
  have hstart' : mark ∉ start' := List.count_eq_zero.mp (by omega)
  have hmiddle' : mark ∉ middle' := List.count_eq_zero.mp (by omega)
  have hpieces := congrArg (splitAtEach mark) h
  rw [splitAtEach_append_cons hstart, splitAtEach_append_cons hmiddle,
    splitAtEach_append_cons hstart', splitAtEach_append_cons hmiddle'] at hpieces
  exact (List.cons.inj (List.cons.inj hpieces).2).1

theorem toList_report (command : String) :
    (report command).toList = "ERROR: failed to solve: process ".toList ++ '\x22' ::
      ("/bin/sh -c ".toList ++ command.toList ++
        '\x22' :: " did not complete successfully: exit code: 1".toList) := by
  have hstart : ("ERROR: failed to solve: process \"/bin/sh -c " : String).toList =
      "ERROR: failed to solve: process ".toList ++ '\x22' :: "/bin/sh -c ".toList := by
    simp
  have hend : ("\" did not complete successfully: exit code: 1" : String).toList =
      '\x22' :: " did not complete successfully: exit code: 1".toList := by simp
  unfold report
  rw [String.toList_append, String.toList_append, hstart, hend, List.append_assoc,
    List.append_assoc, List.cons_append, List.append_assoc]

theorem toList_closing : "\" did not complete successfully".toList =
    '\x22' :: " did not complete successfully".toList := by simp

/-- A command on one line is read up to the first text that ends reports. -/
theorem failedCommand?_report (h : '\n' ∉ command.toList) :
    failedCommand? (report command) = some ("/bin/sh -c " ++ reported command) := by
  have hopening : "process \"".toList = 'p' :: "rocess \"".toList := by simp
  have hshell : "/bin/sh -c ".toList = '/' :: "bin/sh -c ".toList := by simp
  have hstart : "ERROR: failed to solve: process ".toList ++ ['\x22'] =
      "ERROR: failed to solve: ".toList ++ 'p' :: "rocess \"".toList := by simp
  have hend : " did not complete successfully: exit code: 1".toList =
      " did not complete successfully".toList ++ ": exit code: 1".toList := by simp
  have hline : '\n' ∉ "bin/sh -c ".toList ++ command.toList := by
    rw [List.mem_append, not_or]
    exact ⟨by simp, h⟩
  have hread := lineUpTo?_append
    (by simp : '\x22' ∉ " did not complete successfully".toList) hline
    (List.cons_ne_nil '/' []) ": exit code: 1".toList
  rw [upTo_append (by simp)] at hread
  have hbetween : between? "process \"".toList "\" did not complete successfully".toList
      (report command).toList = some ("/bin/sh -c ".toList ++
        upTo "\" did not complete successfully".toList command.toList) := by
    rw [toList_report, List.append_cons, hstart, hopening, toList_closing, hend, hshell,
      List.append_assoc, List.cons_append, between?_append (by simp)]
    apply between?_opening
    rw [List.cons_append, List.cons_append, lineUpTo?_start (by decide), hread]
    rfl
  unfold failedCommand?
  dsimp only
  rw [hbetween]
  dsimp only
  rw [Option.map_some, String.ofList_append, String.ofList_toList]
  rfl

/-- What is read of a command without double quotes is the command. -/
theorem reported_of_not_mem (h : '\x22' ∉ command.toList) : reported command = command := by
  unfold reported
  rw [toList_closing, upTo_of_not_mem h, String.ofList_toList]

/-- A command that goes over several lines and holds no quotes is not read. -/
theorem failedCommand?_report_eq_none (hlines : '\n' ∈ command.toList)
    (hdouble : '\x22' ∉ command.toList) (hsingle : '\x27' ∉ command.toList) :
    failedCommand? (report command) = none := by
  have hopening : "process \"".toList = "process ".toList ++ ['\x22'] := by simp
  have hfirst : between? "process \"".toList "\" did not complete successfully".toList
      (report command).toList = none := by
    rw [Option.eq_none_iff_forall_ne_some]
    intro found hfound
    obtain ⟨before, rest, hcs, hline⟩ := between?_eq_some hfound
    have hquote : '\x22' ∉ "/bin/sh -c ".toList ++ command.toList := by
      rw [List.mem_append, not_or]
      exact ⟨by simp, hdouble⟩
    rw [toList_report, hopening, toList_closing, List.append_assoc "process ".toList,
      List.singleton_append, List.cons_append, ← List.append_assoc before] at hcs
    have hfound := eq_between_marks (by simp) hquote (by simp) hcs
    rw [← hfound] at hline
    exact hline (List.mem_append_right _ hlines)
  have hsecond : between? "The command '".toList "' returned a non-zero code".toList
      (report command).toList = none := by
    rw [Option.eq_none_iff_forall_ne_some]
    intro found hfound
    obtain ⟨before, rest, hcs, -⟩ := between?_eq_some hfound
    have hmem : '\x27' ∈ (report command).toList := by
      rw [hcs, List.mem_append, List.mem_append]
      exact Or.inr (Or.inl (by simp))
    rw [toList_report, List.mem_append, List.mem_cons, List.mem_append, List.mem_append,
      List.mem_cons] at hmem
    rcases hmem with hstart | hstart | (hshell | hcommand) | hend | hend
    · exact absurd hstart (by simp)
    · exact absurd hstart (by simp)
    · exact absurd hshell (by simp)
    · exact hsingle hcommand
    · exact absurd hend (by simp)
    · exact absurd hend (by simp)
  unfold failedCommand?
  dsimp only
  rw [hfirst, hsecond]
  rfl

end Report

end TwoStage.Failure

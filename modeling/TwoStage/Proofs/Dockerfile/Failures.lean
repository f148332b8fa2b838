import TwoStage.Proofs.Dockerfile.Login
import TwoStage.Proofs.Failure

/-!
# Failures of the commands of a file

Each command of a file has its own kind of failure: a package that cannot be installed, a user that
cannot be created, a program that does not compile. The kind is told by marks that are searched in
the whole text of the command, so that a name, a path or an argument of the specification is taken
for a program that it is not.

## Main definitions

- `Instruction.failureKind?` — the kind of failure of the command of an instruction
- `Instruction.ToldApart` — the report of its failure is told to be of this kind
- `Instruction.Unmistakable` — no text of an instruction has the marks of another kind

## Main statements

- `hasMark_packageMarks_addUser_iff` — which users are taken for packages
- `Dockerfile.toldApart_iff` — the commands of an accepted specification that are told apart
-/

namespace TwoStage

open Failure

-- ════════════════════════════════════════════════════════════════════════
-- Kinds of commands
-- ════════════════════════════════════════════════════════════════════════

/-- The shell and the name of a user stand on one line, and in the command that creates the user
there is no mark of a command that installs packages. -/
structure Identity.Unmistakable (identity : Identity) : Prop where
  line : '\n' ∉ identity.shell.toList ∧ '\n' ∉ identity.name.toList
  apkAdd : ¬ ("apk".toList <:+ identity.shell.toList ∧ "add".toList <+: identity.name.toList)
  aptGet : contains identity.shell "apt-get" = false ∧ contains identity.name "apt-get" = false
  apt : ¬ "apt".toList <:+ identity.shell.toList

namespace Instruction

/-- The kind of the failure of the command that an instruction runs. -/
def failureKind? : Instruction → Option Kind
  | install .. => some .dependency
  | addUser .. => some .identity
  | run _ => some .compile
  | _ => none

/-- In whichever stage the command of an instruction fails, its report is told to be of the kind of
the instruction; that of a build command, if the report has no marks of base images or networks. -/
def ToldApart (instruction : Instruction) : Prop :=
  ∀ command, instruction.line = "RUN " ++ command →
    ∃ kind, instruction.failureKind? = some kind ∧
      ((kind = .compile →
          hasMark (baseMarks ++ networkMarks) (lower (report command)) = false) →
        ∀ stage, (classify stage (report command)).kind = kind)

/-- The report of the failure of an instruction cannot be taken for that of another kind. -/
def Unmistakable : Instruction → Prop
  | install manager packages =>
    (∀ name ∈ packages, '\n' ∉ name.toList) ∨
      hasMark baseMarks (lower (report (install manager packages).operand)) = true
  | addUser manager identity =>
    hasMark baseMarks (lower (report (addUser manager identity).operand)) = false ∧
      identity.Unmistakable
  | run argv =>
    hasMark (baseMarks ++ networkMarks) (lower (report (run argv).operand)) = true ∨
      ((∀ word ∈ argv, '\n' ∉ word.toList) ∧
        hasMark (packageMarks ++ identityMarks) (reported (run argv).operand) = false) ∨
      (∃ word ∈ argv, '\n' ∈ word.toList) ∧
        ∃ command, failedCommand? (report (run argv).operand) = some command ∧
          hasMark (packageMarks ++ identityMarks) command = false
  | _ => True

/-- The texts of packages and users in the commands are plain. -/
def Plain : Instruction → Prop
  | install _ packages => ∀ name ∈ packages, PlainText name
  | addUser _ identity => PlainText identity.shell ∧ PlainText identity.name
  | _ => True

end Instruction

-- ════════════════════════════════════════════════════════════════════════
-- Marks
-- ════════════════════════════════════════════════════════════════════════

theorem Failure.hasMark_append (marks marks' : List String) (s : String) :
    hasMark (marks ++ marks') s = (hasMark marks s || hasMark marks' s) := List.any_append

/-- The marks of a report in small letters, by its characters. -/
theorem Failure.hasMark_lower_report (marks : List String) (command : String) :
    hasMark marks (lower (report command)) = marks.any fun mark => containsChars mark.toList
      (lowerFrom [] ("ERROR: failed to solve: process ".toList ++ '\x22' ::
        ("/bin/sh -c ".toList ++ command.toList ++
          '\x22' :: " did not complete successfully: exit code: 1".toList))) := by
  show (marks.any fun mark => containsChars mark.toList (lower (report command)).toList) = _
  rw [lower, String.toList_ofList, toList_report]

/-- The shell that runs a command adds no marks to it. -/
theorem Failure.hasMark_shell {marks : List String}
    (hmarks : ∀ mark ∈ marks, mark ∈ packageMarks ++ identityMarks) (command : String) :
    hasMark marks ("/bin/sh -c " ++ command) = hasMark marks command := by
  have hall : ∀ mark ∈ packageMarks ++ identityMarks, ∃ first rest,
      mark.toList = first :: rest ∧ first ∉ "/bin/sh -c ".toList := by
    simp [packageMarks, identityMarks]
  rw [Bool.eq_iff_iff, hasMark_iff, hasMark_iff]
  refine exists_congr fun mark => and_congr_right fun hmem => ?_
  obtain ⟨first, rest, hmark, hnot⟩ := hall mark (hmarks mark hmem)
  rw [String.toList_append, hmark, infix_append_iff_of_not_mem hnot]

/-- A text with a space occurs in three words only where it fits the last two. -/
theorem infix_words_iff {left right start shell name : List Char} (hleft : ' ' ∉ left)
    (hright : ' ' ∉ right) (hstart : ¬ left ++ ' ' :: right <:+: start) (hend : ¬ left <:+ start)
    (hshell : ' ' ∉ shell) (hname : ' ' ∉ name) :
    left ++ ' ' :: right <:+: start ++ ' ' :: shell ++ ' ' :: name ↔
      left <:+ shell ∧ right <+: name := by
  have hfirst : ¬ left ++ ' ' :: right <:+: start ++ ' ' :: shell := by
    rw [infix_across_iff hleft hright]
    rintro (hstart' | hshell' | ⟨hend', -⟩)
    · exact hstart hstart'
    · exact not_infix_of_not_mem hshell left right hshell'
    · exact hend hend'
  rw [infix_across_iff hleft hright, or_iff_right hfirst,
    or_iff_right (not_infix_of_not_mem hname left right), suffix_append_cons_iff hleft]

-- ════════════════════════════════════════════════════════════════════════
-- Commands
-- ════════════════════════════════════════════════════════════════════════

namespace Instruction

/-- The command of an instruction goes over several lines where one of its texts does. -/
theorem newline_mem_operand_iff {instruction : Instruction} (h : instruction.keyword = "RUN") :
    '\n' ∈ instruction.operand.toList ↔ ∃ text ∈ instruction.texts, '\n' ∈ text.toList := by
  have hblank : instruction ≠ blank := by
    rintro rfl
    exact absurd h (by decide)
  have hrun : '\n' ∉ ("RUN" ++ " ").toList := by decide
  rw [← mem_line_iff (Or.inl rfl), line_eq hblank, h, mem_toList_append, or_iff_right hrun]

/-- The words before the shell in the command that creates a user. -/
def addUserOptions : PackageManager → String
  | .apk => "adduser -D -s"
  | .apt => "useradd --create-home --shell"

theorem toList_operand_addUser (manager : PackageManager) (identity : Identity) :
    (addUser manager identity).operand.toList = (addUserOptions manager).toList ++
      ' ' :: identity.shell.toList ++ ' ' :: identity.name.toList := by
  have hline : (addUser manager identity).line =
      "RUN" ++ " " ++ (addUser manager identity).operand := line_eq (by simp)
  have hstart : Dockerfile.addUserStart manager = "RUN" ++ " " ++ addUserOptions manager := by
    cases manager <;> simp [Dockerfile.addUserStart, addUserOptions]
  have hspace : (" " : String).toList = [' '] := by decide
  rw [line_addUser, Dockerfile.addUserLine_eq, hstart] at hline
  have hlist := congrArg String.toList hline
  simp only [String.toList_append, List.append_assoc, List.append_cancel_left_eq] at hlist
  rw [← hlist, hspace, List.append_assoc, List.cons_append]
  rfl

/-- There are no quotes in the commands that install packages and create users. -/
theorem not_mem_operand_of_plain {instruction : Instruction} (h : instruction.Plain)
    (hrun : instruction.keyword = "RUN") (hnot : ∀ argv, instruction ≠ run argv) {c : Char}
    (hc : c = '\x22' ∨ c = '\x27') : c ∉ instruction.operand.toList := by
  have hplain : isPlainChar c = false ∧ c ≠ '\n' := by
    rcases hc with rfl | rfl <;> decide
  have hspace : c ∉ (" " : String).toList := by
    rcases hc with rfl | rfl <;> decide
  cases instruction with
  | install manager packages =>
    have hpackages : c ∉ (joinWith " " packages).toList := by
      intro hmem
      rcases mem_joinWith hmem with hmem | ⟨name, hname, hmem⟩
      · exact hspace hmem
      · exact (h name hname).not_mem hplain.1 hplain.2 hmem
    cases manager with
    | apk =>
      have hstart : c ∉ ("apk add --no-cache " : String).toList := by
        rcases hc with rfl | rfl <;> simp
      show c ∉ ("apk add --no-cache " ++ joinWith " " packages).toList
      rw [mem_toList_append, not_or]
      exact ⟨hstart, hpackages⟩
    | apt =>
      have hstart : c ∉ ("apt-get update && apt-get install -y --no-install-recommends " :
          String).toList := by
        rcases hc with rfl | rfl <;> simp
      have hclean : c ∉ (" && rm -rf /var/lib/apt/lists/*" : String).toList := by
        rcases hc with rfl | rfl <;> simp
      show c ∉ ("apt-get update && apt-get install -y --no-install-recommends " ++
        joinWith " " packages ++ " && rm -rf /var/lib/apt/lists/*").toList
      rw [mem_toList_append, mem_toList_append, not_or, not_or]
      exact ⟨⟨hstart, hpackages⟩, hclean⟩
  | addUser manager identity =>
    have hstart : c ∉ (addUserOptions manager).toList := by
      cases manager <;> rcases hc with rfl | rfl <;> simp [addUserOptions]
    have hblank : c ≠ ' ' := by
      rcases hc with rfl | rfl <;> decide
    rw [toList_operand_addUser, List.mem_append, List.mem_append, List.mem_cons, List.mem_cons]
    rintro ((hmem | hmem | hmem) | hmem | hmem)
    · exact hstart hmem
    · exact hblank hmem
    · exact h.1.not_mem hplain.1 hplain.2 hmem
    · exact hblank hmem
    · exact h.2.not_mem hplain.1 hplain.2 hmem
  | run argv => exact absurd rfl (hnot argv)
  | _ => exact absurd hrun (by simp [keyword])

/-- A command that installs packages has the mark of one. -/
theorem hasMark_install (manager : PackageManager) (packages : List String) :
    hasMark packageMarks (install manager packages).operand = true := by
  rw [hasMark_iff]
  cases manager with
  | apk =>
    have hstart : ("apk add --no-cache " : String).toList = "apk add".toList ++
        " --no-cache ".toList := by simp
    refine ⟨"apk add", by decide, ?_⟩
    show "apk add".toList <:+: ("apk add --no-cache " ++ joinWith " " packages).toList
    rw [String.toList_append, hstart, List.append_assoc]
    exact (List.prefix_append _ _).isInfix
  | apt =>
    have hstart : ("apt-get update && apt-get install -y --no-install-recommends " :
        String).toList = "apt-get".toList ++
          " update && apt-get install -y --no-install-recommends ".toList := by simp
    refine ⟨"apt-get", by decide, ?_⟩
    show "apt-get".toList <:+: ("apt-get update && apt-get install -y --no-install-recommends " ++
      joinWith " " packages ++ " && rm -rf /var/lib/apt/lists/*").toList
    rw [String.toList_append, String.toList_append, hstart, List.append_assoc, List.append_assoc]
    exact (List.prefix_append _ _).isInfix

/-- A command that creates a user has the mark of one. -/
theorem hasMark_addUser (manager : PackageManager) (identity : Identity) :
    hasMark identityMarks (addUser manager identity).operand = true := by
  have hstart : hasMark identityMarks (addUserOptions manager) = true := by
    cases manager <;> decide +kernel
  rw [hasMark_iff] at hstart ⊢
  obtain ⟨mark, hmem, hinfix⟩ := hstart
  refine ⟨mark, hmem, ?_⟩
  rw [toList_operand_addUser, List.append_assoc]
  exact hinfix.trans (List.prefix_append _ _).isInfix

/-- The words before the shell have no mark of a command that installs packages, and no beginning of
one at their end. -/
theorem not_infix_addUserOptions (manager : PackageManager) :
    ¬ "apt-get".toList <:+: (addUserOptions manager).toList ∧
      (¬ "apk".toList ++ ' ' :: "add".toList <:+: (addUserOptions manager).toList ∧
        ¬ "apk".toList <:+ (addUserOptions manager).toList) ∧
      ¬ "apt".toList ++ ' ' :: [] <:+: (addUserOptions manager).toList ∧
        ¬ "apt".toList <:+ (addUserOptions manager).toList := by
  cases manager <;> decide +kernel

/-- A user is taken for packages where the shell or the name looks like a command that installs
some. -/
theorem hasMark_packageMarks_addUser_iff (manager : PackageManager) {identity : Identity}
    (hshell : ' ' ∉ identity.shell.toList) (hname : ' ' ∉ identity.name.toList) :
    hasMark packageMarks (addUser manager identity).operand = true ↔
      "apk".toList <:+ identity.shell.toList ∧ "add".toList <+: identity.name.toList ∨
        (contains identity.shell "apt-get" = true ∨ contains identity.name "apt-get" = true) ∨
        "apt".toList <:+ identity.shell.toList := by
  obtain ⟨haptGet, ⟨hapkAdd, hapk⟩, haptSpace, hapt⟩ := not_infix_addUserOptions manager
  have hapkAddIff : contains (addUser manager identity).operand "apk add" = true ↔
      "apk".toList <:+ identity.shell.toList ∧ "add".toList <+: identity.name.toList := by
    have hsplit : "apk add".toList = "apk".toList ++ ' ' :: "add".toList := by simp
    rw [contains_iff, toList_operand_addUser, hsplit]
    exact infix_words_iff (by simp) (by simp) hapkAdd hapk hshell hname
  have haptGetIff : contains (addUser manager identity).operand "apt-get" = true ↔
      contains identity.shell "apt-get" = true ∨ contains identity.name "apt-get" = true := by
    have hspace : ' ' ∉ "apt-get".toList := by simp
    rw [contains_iff, toList_operand_addUser, infix_append_cons_iff hspace,
      infix_append_cons_iff hspace, or_iff_right haptGet, contains_iff, contains_iff]
  have haptIff : contains (addUser manager identity).operand "apt " = true ↔
      "apt".toList <:+ identity.shell.toList := by
    have hsplit : "apt ".toList = "apt".toList ++ ' ' :: [] := by simp
    rw [contains_iff, toList_operand_addUser, hsplit, infix_words_iff (by simp)
      List.not_mem_nil haptSpace hapt hshell hname, and_iff_left List.nil_prefix]
  have hmarks : hasMark packageMarks (addUser manager identity).operand = true ↔
      contains (addUser manager identity).operand "apk add" = true ∨
        contains (addUser manager identity).operand "apt-get" = true ∨
          contains (addUser manager identity).operand "apt " = true := by
    simp only [hasMark, packageMarks, List.any_cons, List.any_nil, Bool.or_false, Bool.or_eq_true]
  rw [hmarks, hapkAddIff, haptGetIff, haptIff]

-- ════════════════════════════════════════════════════════════════════════
-- Roles
-- ════════════════════════════════════════════════════════════════════════

/-- A command that installs packages and goes over one line is told to be one, and any is where the
report has the mark of a base image. -/
theorem kind_install_iff (stage : String) (manager : PackageManager) {packages : List String}
    (hplain : (install manager packages).Plain) :
    (classify stage (report (install manager packages).operand)).kind = .dependency ↔
      (install manager packages).Unmistakable := by
  have hquotes {c : Char} (hc : c = '\x22' ∨ c = '\x27') :
      c ∉ (install manager packages).operand.toList :=
    not_mem_operand_of_plain hplain rfl (by simp) hc
  have hline : '\n' ∈ (install manager packages).operand.toList ↔
      ∃ name ∈ packages, '\n' ∈ name.toList := newline_mem_operand_iff rfl
  rw [Unmistakable]
  by_cases hbase : hasMark baseMarks (lower (report (install manager packages).operand)) = true
  · rw [kind_of_base stage hbase]
    exact iff_of_true rfl (Or.inr hbase)
  · rw [or_iff_left hbase]
    have hnone := Bool.eq_false_iff.mpr hbase
    by_cases hlines : '\n' ∈ (install manager packages).operand.toList
    · have hread := failedCommand?_report_eq_none hlines (hquotes (Or.inl rfl))
        (hquotes (Or.inr rfl))
      obtain ⟨name, hname, hmem⟩ := hline.mp hlines
      refine iff_of_false ?_ fun hall => hall name hname hmem
      rcases kind_of_none stage hnone hread with hkind | hkind <;> simp [hkind]
    · have hread := failedCommand?_report hlines
      rw [reported_of_not_mem (hquotes (Or.inl rfl))] at hread
      rw [kind_of_command stage hnone hread, hasMark_shell (fun _ => List.mem_append_left _),
        hasMark_install, if_pos rfl]
      refine iff_of_true rfl fun name hname hmem => hlines (hline.mpr ⟨name, hname, hmem⟩)

/-- A command that creates a user is told to be one where it cannot be taken for another. -/
theorem kind_addUser_iff (stage : String) (manager : PackageManager) {identity : Identity}
    (hplain : (addUser manager identity).Plain) :
    (classify stage (report (addUser manager identity).operand)).kind = .identity ↔
      (addUser manager identity).Unmistakable := by
  have hquotes {c : Char} (hc : c = '\x22' ∨ c = '\x27') :
      c ∉ (addUser manager identity).operand.toList :=
    not_mem_operand_of_plain hplain rfl (by simp) hc
  have hline : '\n' ∈ (addUser manager identity).operand.toList ↔
      '\n' ∈ identity.shell.toList ∨ '\n' ∈ identity.name.toList := by
    rw [newline_mem_operand_iff rfl]
    simp [texts]
  have hspace {s : String} (hs : PlainText s) : ' ' ∉ s.toList := hs.not_mem (by decide) (by decide)
  rw [Unmistakable]
  by_cases hbase : hasMark baseMarks (lower (report (addUser manager identity).operand)) = true
  · rw [kind_of_base stage hbase]
    exact iff_of_false (by decide) fun h => Bool.eq_false_iff.mp h.1 hbase
  · have hnone := Bool.eq_false_iff.mpr hbase
    rw [and_iff_right hnone]
    by_cases hlines : '\n' ∈ (addUser manager identity).operand.toList
    · have hread := failedCommand?_report_eq_none hlines (hquotes (Or.inl rfl))
        (hquotes (Or.inr rfl))
      refine iff_of_false ?_ fun h => not_or.mpr h.line (hline.mp hlines)
      rcases kind_of_none stage hnone hread with hkind | hkind <;> simp [hkind]
    · have hread := failedCommand?_report hlines
      rw [reported_of_not_mem (hquotes (Or.inl rfl))] at hread
      rw [kind_of_command stage hnone hread, hasMark_shell (fun _ => List.mem_append_left _),
        hasMark_shell (fun _ => List.mem_append_right _), hasMark_addUser, if_pos rfl]
      have hmarks := hasMark_packageMarks_addUser_iff manager (hspace hplain.1) (hspace hplain.2)
      by_cases hpackage : hasMark packageMarks (addUser manager identity).operand = true
      · rw [if_pos hpackage]
        refine iff_of_false (by decide) fun h => ?_
        rcases hmarks.mp hpackage with hapkAdd | (haptGet | haptGet) | hapt
        · exact h.apkAdd hapkAdd
        · exact Bool.eq_false_iff.mp h.aptGet.1 haptGet
        · exact Bool.eq_false_iff.mp h.aptGet.2 haptGet
        · exact h.apt hapt
      · rw [if_neg hpackage]
        rw [hmarks, not_or, not_or, not_or] at hpackage
        obtain ⟨hapkAdd, haptGet, hapt⟩ := hpackage
        exact iff_of_true rfl ⟨not_or.mp fun h => hlines (hline.mpr h), hapkAdd,
          haptGet.imp Bool.eq_false_iff.mpr Bool.eq_false_iff.mpr, hapt⟩

end Instruction

/-- A log without marks of base images and networks tells of a command that failed to compile where
a command without marks is read of it. -/
theorem Failure.kind_eq_compile_iff (stage : String) {log : String}
    (h : hasMark (baseMarks ++ networkMarks) (lower log) = false) :
    (classify stage log).kind = .compile ↔ ∃ command, failedCommand? log = some command ∧
      hasMark (packageMarks ++ identityMarks) command = false := by
  rw [hasMark_append, Bool.or_eq_false_iff] at h
  cases hread : failedCommand? log with
  | none =>
    refine iff_of_false ?_ (by simp)
    rcases kind_of_none stage h.1 hread with hkind | hkind <;> simp [hkind]
  | some command =>
    rw [kind_of_command stage h.1 hread, h.2, if_neg Bool.false_ne_true]
    simp only [Option.some.injEq, exists_eq_left', hasMark_append, Bool.or_eq_false_iff]
    by_cases hpackage : hasMark packageMarks command = true
    · simp [hpackage]
    · by_cases hidentity : hasMark identityMarks command = true
      · simp [hpackage, hidentity]
      · simp [hpackage, hidentity]

namespace Instruction

/-- A build command is told to have failed to compile where there are no marks in what is read of
it. -/
theorem kind_run_iff (stage : String) {argv : List String}
    (h : hasMark (baseMarks ++ networkMarks) (lower (report (run argv).operand)) = false) :
    (classify stage (report (run argv).operand)).kind = .compile ↔ (run argv).Unmistakable := by
  have hline : '\n' ∈ (run argv).operand.toList ↔ ∃ word ∈ argv, '\n' ∈ word.toList :=
    newline_mem_operand_iff rfl
  rw [kind_eq_compile_iff stage h, Unmistakable, or_iff_right (Bool.eq_false_iff.mp h), ← hline]
  by_cases hlines : '\n' ∈ (run argv).operand.toList
  · have hnot : ¬ ∀ word ∈ argv, '\n' ∉ word.toList := by
      intro hall
      obtain ⟨word, hword, hmem⟩ := hline.mp hlines
      exact hall word hword hmem
    rw [and_iff_right hlines, or_iff_right fun hone => hnot hone.1]
  · have hone : ∀ word ∈ argv, '\n' ∉ word.toList :=
      fun word hword hmem => hlines (hline.mpr ⟨word, hword, hmem⟩)
    rw [and_iff_right hone, or_iff_left fun hmany => hlines hmany.1, failedCommand?_report hlines]
    simp only [Option.some.injEq, exists_eq_left', hasMark_shell (fun _ => id)]

/-- Only the instructions that run commands look like it, and the operand is the command. -/
theorem run_of_line_eq {instruction : Instruction} {command : String}
    (h : instruction.line = "RUN " ++ command) :
    instruction.keyword = "RUN" ∧ instruction.operand = command := by
  have hrun : "RUN " ++ command = "RUN" ++ " " ++ command := by
    have hstart : ("RUN " : String) = "RUN" ++ " " := by decide
    rw [hstart]
  have hcounts : lineCounts ("RUN" ++ " " ++ command).toList = true := by
    rw [String.toList_append]
    rfl
  have hread := ofLine_line instruction
  rw [h, hrun, if_pos hcounts, Statement.ofLine_append_space (by decide)] at hread
  rcases instruction.statement?_cases with ⟨hnone, -, -⟩ | ⟨hsome, -, -⟩
  · rw [hnone] at hread
    cases hread
  · rw [hsome, Option.some.injEq, Statement.mk.injEq] at hread
    exact ⟨hread.1.symm, hread.2.symm⟩

/-- What it means that the command of an instruction is told apart. -/
theorem toldApart_iff_kind {instruction : Instruction} {kind : Kind}
    (hrun : instruction.keyword = "RUN") (hkind : instruction.failureKind? = some kind) :
    instruction.ToldApart ↔
      ((kind = .compile → hasMark (baseMarks ++ networkMarks)
          (lower (report instruction.operand)) = false) →
        ∀ stage, (classify stage (report instruction.operand)).kind = kind) := by
  have hblank : instruction ≠ blank := by
    rintro rfl
    exact absurd hrun (by decide)
  constructor
  · intro h
    have hline : instruction.line = "RUN " ++ instruction.operand := by
      have hstart : ("RUN " : String) = "RUN" ++ " " := by decide
      rw [line_eq hblank, hrun, hstart]
    obtain ⟨own, hown, htold⟩ := h _ hline
    obtain rfl : kind = own := Option.some.inj (hkind.symm.trans hown)
    exact htold
  · intro h command hline
    obtain ⟨-, rfl⟩ := run_of_line_eq hline
    exact ⟨kind, hkind, h⟩

/-- An instruction with plain texts is told apart exactly where it is unmistakable. -/
theorem toldApart_iff_unmistakable {instruction : Instruction} (hplain : instruction.Plain) :
    instruction.ToldApart ↔ instruction.Unmistakable := by
  cases instruction with
  | install manager packages =>
    rw [toldApart_iff_kind rfl rfl, forall_prop_of_true (by simp)]
    exact (forall_congr' fun stage => kind_install_iff stage manager hplain).trans
      (forall_const String)
  | addUser manager identity =>
    rw [toldApart_iff_kind rfl rfl, forall_prop_of_true (by simp)]
    exact (forall_congr' fun stage => kind_addUser_iff stage manager hplain).trans
      (forall_const String)
  | run argv =>
    rw [toldApart_iff_kind rfl rfl, forall_prop_of_true rfl]
    by_cases hmarks : hasMark (baseMarks ++ networkMarks) (lower (report (run argv).operand)) = true
    · refine iff_of_true (fun hnone => ?_) (Or.inl hmarks)
      exact absurd hmarks (Bool.eq_false_iff.mp hnone)
    · have hnone := Bool.eq_false_iff.mpr hmarks
      rw [forall_prop_of_true hnone]
      exact (forall_congr' fun stage => kind_run_iff stage hnone).trans (forall_const String)
  | _ =>
    refine iff_of_true (fun command hline => ?_) trivial
    exact absurd (run_of_line_eq hline).1 (by simp [keyword])

end Instruction

-- ════════════════════════════════════════════════════════════════════════
-- Files
-- ════════════════════════════════════════════════════════════════════════

theorem BaseImage.plain_install {base : BaseImage} {packages : List String}
    (h : ∀ name ∈ packages, isPackageName name = true) :
    ∀ instruction ∈ paragraph (base.install? packages), instruction.Plain := by
  rw [install?]
  split
  · simp [paragraph]
  · rw [paragraph, List.forall_mem_cons, List.forall_mem_singleton]
    exact ⟨fun name hname => .of_isPackageName (h name hname), trivial⟩

theorem BuildStage.plain {stage : BuildStage} (h : stage.WellFormed) :
    ∀ instruction ∈ stage.instructions, instruction.Plain := by
  simp only [instructions, BaseImage.start, List.forall_mem_append, List.forall_mem_cons,
    List.not_mem_nil, false_imp_iff, implies_true, and_true, List.forall_mem_map]
  refine ⟨⟨⟨⟨⟨⟨⟨trivial, trivial⟩, ?_⟩, trivial, trivial⟩, ?_⟩, trivial⟩, ?_⟩, trivial⟩
  · exact BaseImage.plain_install h.toolchain
  · exact fun _ _ => trivial
  · exact fun _ _ => trivial

theorem Spec.plain_finalInstructions {spec : Spec} (h : spec.WellFormed) :
    ∀ instruction ∈ spec.finalInstructions, instruction.Plain := by
  have hgap : ∀ instruction ∈ (if spec.labels.isEmpty then [] else [Instruction.blank]),
      instruction.Plain := by
    split
    · simp
    · rw [List.forall_mem_singleton]
      trivial
  simp only [finalInstructions, FinalStage.instructions, BaseImage.start, List.forall_mem_append,
    List.forall_mem_cons, List.not_mem_nil, false_imp_iff, implies_true, and_true,
    List.forall_mem_map]
  refine ⟨⟨⟨⟨⟨⟨trivial, trivial⟩, ?_⟩, ?_, trivial, trivial⟩, ?_⟩, hgap⟩, trivial, trivial, trivial⟩
  · exact BaseImage.plain_install h.final.runtime
  · exact ⟨.of_isPlainPath h.final.identity.isPlainPath, .of_isUserName h.final.identity.name⟩
  · exact fun _ _ => trivial

namespace Dockerfile

/-- The texts in the commands of both files of a well-formed specification are plain. -/
theorem plain_of_mem {spec : Spec} (h : spec.WellFormed) {instruction : Instruction}
    (hmem : instruction ∈ twoStage spec ∨ ∃ builder, instruction ∈ finalOnly spec builder) :
    instruction.Plain := by
  have hheader : ∀ instruction ∈ header, instruction.Plain := by
    simp [header, Instruction.Plain]
  have hfinal := Spec.plain_finalInstructions h
  have htwo : ∀ instruction ∈ twoStage spec, instruction.Plain := by
    simp only [twoStage, List.forall_mem_append, List.forall_mem_cons,
      List.not_mem_nil, false_imp_iff, implies_true, and_true]
    exact ⟨⟨⟨hheader, trivial, BuildStage.plain h.build⟩, trivial⟩, trivial, hfinal⟩
  have honly : ∀ builder, ∀ instruction ∈ finalOnly spec builder, instruction.Plain := by
    intro builder
    simp only [finalOnly, List.forall_mem_append, List.forall_mem_cons,
      List.not_mem_nil, false_imp_iff, implies_true, and_true]
    exact ⟨⟨hheader, trivial, trivial, trivial, trivial⟩, hfinal⟩
  rcases hmem with hmem | ⟨builder, hmem⟩
  · exact htwo instruction hmem
  · exact honly builder instruction hmem

/-- The failure of a command of an accepted specification is told to be what it is exactly where no
text of the specification makes the command look like another. -/
theorem toldApart_iff {spec : Spec} (hspec : spec.Accepted) {instruction : Instruction}
    (hmem : instruction ∈ twoStage spec ∨ ∃ builder, instruction ∈ finalOnly spec builder) :
    instruction.ToldApart ↔ instruction.Unmistakable :=
  Instruction.toldApart_iff_unmistakable (plain_of_mem hspec.wellFormed hmem)

/-- The failure to create the stock user is told to be this. -/
theorem toldApart_standard :
    Spec.standard.Accepted ∧ .addUser .apk .standard ∈ twoStage Spec.standard ∧
      (Instruction.addUser .apk .standard).ToldApart := by
  have hmem : .addUser .apk .standard ∈ twoStage Spec.standard := by decide +kernel
  have hbase : hasMark baseMarks
      (lower (report (Instruction.addUser .apk .standard).operand)) = false := by
    rw [hasMark_lower_report]
    decide +kernel
  refine ⟨Spec.accepted_standard, hmem, ?_⟩
  refine (toldApart_iff Spec.accepted_standard (Or.inl hmem)).mpr ⟨hbase, ?_⟩
  exact ⟨by decide, by decide, by decide, by decide⟩

/-- A user with the name of a program that installs packages. -/
def packageUser : Identity := ⟨"apt-get", "/sbin/nologin"⟩

/-- The failure to create this user is not told to be this, since the name is taken for the
program. -/
theorem not_toldApart_of_name :
    (Spec.standard.withIdentity packageUser).Accepted ∧
      .addUser .apk packageUser ∈ twoStage (Spec.standard.withIdentity packageUser) ∧
      ¬ (Instruction.addUser .apk packageUser).ToldApart := by
  have haccepted : (Spec.standard.withIdentity packageUser).Accepted :=
    Spec.accepted_of_parse
      (.obj [("final", .obj [("identity", .obj [("name", .str "apt-get")])])]) (by decide +kernel)
  have hmem : .addUser .apk packageUser ∈ twoStage (Spec.standard.withIdentity packageUser) := by
    decide +kernel
  refine ⟨haccepted, hmem, ?_⟩
  rw [Instruction.toldApart_iff_unmistakable (plain_of_mem haccepted.wellFormed (Or.inl hmem))]
  intro h
  exact absurd h.2.aptGet.2 (by decide)

end Dockerfile

end TwoStage

import TwoStage.Proofs.Dockerfile.Texts
import TwoStage.Proofs.Text.Blank

/-!
# One line for each instruction

The text of a file is read in lines: a carriage return ends a line like a line feed does, and a line
that ends in a backslash goes on in the next one. A text of a specification could therefore put more
lines into the file than there are instructions, or make one of two. For accepted specifications
this happens exactly where a text that is not escaped holds a line end, or where the name of a stage
or the working directory ends in a backslash. The rules of the fields do not exclude it: they refuse
line ends in the values of environment variables alone, and the patterns of names and paths let a
line feed stand at the end.

## Main definitions

- `Whole` — lines that stand for themselves in a file
- `Dockerfile.fileLines` — the lines of a file, as they are read
- `Dockerfile.LineByLine` — files in which each instruction is a line of its own
- `Spec.Confined` — specifications that cannot break out of a line

## Main statements

- `Dockerfile.fileLines_text_iff` — which files come apart into their instructions
- `Dockerfile.lineByLine_iff_confined` — for which specifications the file does
-/

namespace TwoStage

-- ════════════════════════════════════════════════════════════════════════
-- Lines of a file
-- ════════════════════════════════════════════════════════════════════════

/-- Whether a line goes on in the next one. -/
def RunsOn (line : String) : Prop := line.toList.getLast? = some '\\'

instance (line : String) : Decidable (RunsOn line) :=
  inferInstanceAs (Decidable (line.toList.getLast? = some '\\'))

/-- A line that stands for itself in a file. -/
structure Whole (line : String) : Prop where
  oneLine : ∀ c, IsLineEnd c → c ∉ line.toList
  stops : ¬ RunsOn line

/-- Lines with those that run on glued to the next. -/
def gluedLines : List (List Char) → List (List Char)
  | [] => []
  | line :: rest =>
    if line.getLast? = some '\\' then
      match gluedLines rest with
      | next :: more => (line.dropLast ++ next) :: more
      | [] => [line]
    else line :: gluedLines rest

namespace Dockerfile

/-- The lines of a file, as they are read; the last one is what follows the last line end. -/
def fileLines (s : String) : List String :=
  (gluedLines (splitAtEach '\n' (unifyNewlines s).toList)).map String.ofList

/-- Each instruction is a line of its own, and the file has no other lines. -/
structure LineByLine (instructions : List Instruction) : Prop where
  whole : ∀ instruction ∈ instructions, Whole instruction.line
  lines : fileLines (text instructions) = instructions.map Instruction.line ++ [""]

end Dockerfile

theorem return_not_mem_unifyNewlineChars (cs : List Char) : '\r' ∉ unifyNewlineChars cs := by
  fun_induction unifyNewlineChars cs with
  | case1 => exact List.not_mem_nil
  | case2 rest ih =>
    rw [List.mem_cons, not_or]
    exact ⟨by decide, ih⟩
  | case3 c rest _ ih =>
    rw [List.mem_cons, not_or]
    refine ⟨?_, ih⟩
    split
    · decide
    · next hc => exact Ne.symm hc

theorem mem_gluedLines {lines : List (List Char)} {line : List Char} {c : Char}
    (hline : line ∈ gluedLines lines) (hc : c ∈ line) : ∃ piece ∈ lines, c ∈ piece := by
  induction lines generalizing line with
  | nil => cases hline
  | cons first rest ih =>
    have hrest : ∀ {line}, line ∈ gluedLines rest → c ∈ line →
        ∃ piece ∈ first :: rest, c ∈ piece := by
      intro line hline hc
      obtain ⟨piece, hpiece, hmem⟩ := ih hline hc
      exact ⟨piece, List.mem_cons_of_mem _ hpiece, hmem⟩
    rw [gluedLines] at hline
    split at hline
    · split at hline
      · next next more hglued =>
        rw [hglued] at hrest
        rcases List.mem_cons.mp hline with rfl | hmore
        · rcases List.mem_append.mp hc with hfirst | hnext
          · exact ⟨first, List.mem_cons_self, List.dropLast_subset _ hfirst⟩
          · exact hrest List.mem_cons_self hnext
        · exact hrest (List.mem_cons_of_mem _ hmore) hc
      · rw [List.mem_singleton] at hline
        exact ⟨first, List.mem_cons_self, hline ▸ hc⟩
    · rcases List.mem_cons.mp hline with rfl | hglued
      · exact ⟨line, List.mem_cons_self, hc⟩
      · exact hrest hglued hc

theorem gluedLines_length_le (lines : List (List Char)) :
    (gluedLines lines).length ≤ lines.length := by
  induction lines with
  | nil => exact Nat.le_refl _
  | cons line rest ih =>
    rw [gluedLines]
    split
    · split
      · next next more hglued =>
        rw [hglued] at ih
        simp only [List.length_cons] at ih ⊢
        omega
      · simp
    · simpa using ih

/-- Lines stay as they are if none but the last runs on. -/
theorem gluedLines_eq_self_iff (lines : List (List Char)) :
    gluedLines (lines ++ [[]]) = lines ++ [[]] ↔ ∀ line ∈ lines, line.getLast? ≠ some '\\' := by
  induction lines with
  | nil => simp [gluedLines]
  | cons line rest ih =>
    rw [List.forall_mem_cons, List.cons_append, gluedLines]
    split
    · next hruns =>
      -- two lines became one, so there are fewer
      have hlength := gluedLines_length_le (rest ++ [[]])
      constructor
      · intro heq
        have hsame := congrArg List.length heq
        split at hsame
        · next next more hglued =>
          rw [hglued] at hlength
          simp only [List.length_cons, List.length_append, List.length_nil] at hsame hlength
          omega
        · simp at hsame
      · rintro ⟨hstops, -⟩
        exact absurd hruns hstops
    · next hstops =>
      rw [List.cons.injEq, ih]
      simp [hstops]

namespace Dockerfile

/-- A text of lines without line ends comes apart into these lines. -/
theorem splitAtEach_text {instructions : List Instruction}
    (h : ∀ instruction ∈ instructions, ∀ c, IsLineEnd c → c ∉ instruction.line.toList) :
    splitAtEach '\n' (unifyNewlines (text instructions)).toList =
      (instructions.map fun instruction => instruction.line.toList) ++ [[]] := by
  have hreturn : '\r' ∉ (text instructions).toList := by
    rw [toList_text, List.mem_flatMap]
    rintro ⟨line, hline, hmem⟩
    obtain ⟨instruction, hinstruction, rfl⟩ := List.mem_map.mp hline
    rw [List.mem_append, List.mem_singleton] at hmem
    rcases hmem with hmem | heq
    · exact h instruction hinstruction '\r' (Or.inr rfl) hmem
    · cases heq
  rw [unifyNewlines, String.toList_ofList, unifyNewlineChars_of_not_mem hreturn]
  exact splitAtEach_toList_text fun instruction hmem => h instruction hmem '\n' (Or.inl rfl)

/-- No line of a file holds a line end. -/
theorem not_mem_of_mem_fileLines {s line : String} (hline : line ∈ fileLines s) {c : Char}
    (hc : IsLineEnd c) : c ∉ line.toList := by
  obtain ⟨glued, hglued, rfl⟩ := List.mem_map.mp hline
  rw [String.toList_ofList]
  intro hmem
  obtain ⟨piece, hpiece, hcpiece⟩ := mem_gluedLines hglued hmem
  rcases hc with rfl | rfl
  · exact not_mem_of_mem_splitAtEach hpiece hcpiece
  · have hall := (mem_splitAtEach_iff (by decide)).mp ⟨piece, hpiece, hcpiece⟩
    rw [unifyNewlines, String.toList_ofList] at hall
    exact return_not_mem_unifyNewlineChars _ hall

/-- A file comes apart into its instructions exactly where the line of each stands for itself. -/
theorem fileLines_text_iff (instructions : List Instruction) :
    fileLines (text instructions) = instructions.map Instruction.line ++ [""] ↔
      ∀ instruction ∈ instructions, Whole instruction.line := by
  have hlines : instructions.map Instruction.line ++ [""] =
      ((instructions.map fun instruction : Instruction => instruction.line.toList) ++ [[]]).map
        String.ofList := by
    simp
  have hruns : (∀ line ∈ instructions.map fun instruction => instruction.line.toList,
      line.getLast? ≠ some '\\') ↔ ∀ instruction ∈ instructions, ¬ RunsOn instruction.line := by
    rw [List.forall_mem_map]
    rfl
  constructor
  · intro h
    have hends : ∀ instruction ∈ instructions, ∀ c, IsLineEnd c →
        c ∉ instruction.line.toList := by
      intro instruction hmem c hc
      refine not_mem_of_mem_fileLines (s := text instructions) ?_ hc
      rw [h]
      exact List.mem_append_left _ (List.mem_map_of_mem hmem)
    rw [fileLines, splitAtEach_text hends, hlines] at h
    have hglued := (List.map_inj_right fun _ _ => String.ofList_injective).mp h
    have hstops := hruns.mp ((gluedLines_eq_self_iff _).mp hglued)
    exact fun instruction hmem => ⟨hends instruction hmem, hstops instruction hmem⟩
  · intro h
    have hends := fun instruction hmem => (h instruction hmem).oneLine
    have hstops := hruns.mpr fun instruction hmem => (h instruction hmem).stops
    rw [fileLines, splitAtEach_text hends, (gluedLines_eq_self_iff _).mpr hstops, hlines]

end Dockerfile

-- ════════════════════════════════════════════════════════════════════════
-- Lines that run on
-- ════════════════════════════════════════════════════════════════════════

section RunsOn

variable {s t : String}

theorem not_runsOn_of_not_mem (h : '\\' ∉ s.toList) : ¬ RunsOn s := by
  intro hruns
  exact h (List.mem_of_getLast? hruns)

theorem runsOn_append_of_ne (s : String) (ht : t ≠ "") : RunsOn (s ++ t) ↔ RunsOn t := by
  have hcs : t.toList ≠ [] := by simpa using ht
  rw [RunsOn, RunsOn, String.toList_append, List.getLast?_append_of_ne_nil _ hcs]

/-- Behind a text that does not run on, only the rest decides. -/
theorem runsOn_append (hs : ¬ RunsOn s) : RunsOn (s ++ t) ↔ RunsOn t := by
  by_cases ht : t = ""
  · have hempty : ¬ RunsOn "" := by decide
    rw [ht, String.append_empty]
    exact iff_of_false hs hempty
  · exact runsOn_append_of_ne s ht

theorem not_runsOn_append_of_ne (s : String) (ht : t ≠ "") (hstops : ¬ RunsOn t) :
    ¬ RunsOn (s ++ t) := by
  rwa [runsOn_append_of_ne s ht]

theorem RunsOn.of_joinWith {texts : List String} (h : RunsOn (joinWith " " texts)) :
    ∃ text ∈ texts, RunsOn text := by
  induction texts with
  | nil => exact absurd h (by decide)
  | cons first rest ih =>
    cases rest with
    | nil =>
      have hsingle : joinWith " " [first] = first := by
        rw [← String.toList_inj]
        simp [toList_joinWith]
      exact ⟨first, List.mem_cons_self, hsingle ▸ h⟩
    | cons next rest =>
      have hspace : ¬ RunsOn (first ++ " ") :=
        not_runsOn_append_of_ne first (by decide) (by decide)
      rw [joinWith_cons_cons, runsOn_append hspace] at h
      obtain ⟨text, hmem, hruns⟩ := ih h
      exact ⟨text, List.mem_cons_of_mem _ hmem, hruns⟩

theorem PlainText.not_runsOn (h : PlainText s) : ¬ RunsOn s :=
  not_runsOn_of_not_mem (h.not_mem (by decide) (by decide))

namespace Dockerfile

theorem not_runsOn_quote (s : String) : ¬ RunsOn (quote s) := by
  rw [RunsOn, quote, String.toList_ofList, quoteChars, List.getLast?_concat]
  decide

theorem not_runsOn_assignment (name value : String) : ¬ RunsOn (assignment name value) := by
  rw [assignment, envValue]
  split
  · next hbare =>
    rw [Bool.and_eq_true, List.all_eq_true] at hbare
    refine not_runsOn_append_of_ne _ (by simpa using hbare.1) ?_
    refine not_runsOn_of_not_mem fun hmem => ?_
    exact absurd (hbare.2 _ hmem) (by decide)
  · refine not_runsOn_append_of_ne _ ?_ (not_runsOn_quote value)
    simp [quote, quoteChars]

theorem not_runsOn_shellWord (s : String) : ¬ RunsOn (shellWord s) := by
  rw [shellWord]
  split
  · next hsafe =>
    rw [Bool.and_eq_true, List.all_eq_true] at hsafe
    refine not_runsOn_of_not_mem fun hmem => ?_
    exact absurd (hsafe.2 _ hmem) (by decide)
  · rw [RunsOn, String.toList_ofList, List.getLast?_concat]
    decide

theorem not_runsOn_shellWords (argv : List String) : ¬ RunsOn (shellWords argv) := by
  intro h
  obtain ⟨text, hmem, hruns⟩ := h.of_joinWith
  obtain ⟨word, -, rfl⟩ := List.mem_map.mp hmem
  exact not_runsOn_shellWord word hruns

theorem not_runsOn_execForm (argv : List String) : ¬ RunsOn (execForm argv) := by
  rw [execForm, Json.ofStrings, Json.compact]
  exact not_runsOn_append_of_ne _ (by decide) (by decide)

end Dockerfile

namespace Instruction

theorem runsOn_comment (text : String) : RunsOn (comment text).line ↔ RunsOn text :=
  runsOn_append (by decide)

theorem runsOn_start (reference stageName : String) :
    RunsOn (start reference stageName).line ↔ RunsOn stageName :=
  runsOn_append (not_runsOn_append_of_ne _ (by decide) (by decide))

theorem runsOn_workdir (path : String) : RunsOn (workdir path).line ↔ RunsOn path :=
  runsOn_append (by decide)

theorem not_runsOn_install {packages : List String}
    (h : ∀ name ∈ packages, isPackageName name = true) (manager : PackageManager) :
    ¬ RunsOn (install manager packages).line := by
  have hpackages : ¬ RunsOn (joinWith " " packages) := by
    intro hruns
    obtain ⟨name, hmem, hname⟩ := hruns.of_joinWith
    exact (PlainText.of_isPackageName (h name hmem)).not_runsOn hname
  rw [line_install]
  unfold installLine
  cases manager with
  | apk => rwa [runsOn_append (by decide +kernel)]
  | apt => exact not_runsOn_append_of_ne _ (by decide) (by decide +kernel)

theorem not_runsOn_copySource (path : String) : ¬ RunsOn (copySource path).line := by
  rw [line_copySource, runsOn_append (by decide)]
  exact Dockerfile.not_runsOn_execForm _

theorem not_runsOn_env (name value : String) : ¬ RunsOn (env name value).line := by
  rw [line_env, runsOn_append (by decide)]
  exact Dockerfile.not_runsOn_assignment name value

theorem not_runsOn_run (argv : List String) : ¬ RunsOn (run argv).line := by
  rw [line_run, runsOn_append (by decide)]
  exact Dockerfile.not_runsOn_shellWords argv

theorem not_runsOn_addUser {identity : Identity} (h : isUserName identity.name = true)
    (manager : PackageManager) : ¬ RunsOn (addUser manager identity).line := by
  have hplain := PlainText.of_isUserName h
  rw [line_addUser]
  unfold addUserLine
  cases manager with
  | apk => exact not_runsOn_append_of_ne _ hplain.ne_empty hplain.not_runsOn
  | apt => exact not_runsOn_append_of_ne _ hplain.ne_empty hplain.not_runsOn

theorem not_runsOn_user {name : String} (h : isUserName name = true) :
    ¬ RunsOn (user name).line := by
  have hplain := PlainText.of_isUserName h
  exact not_runsOn_append_of_ne _ hplain.ne_empty hplain.not_runsOn

theorem not_runsOn_label (name value : String) : ¬ RunsOn (label name value).line := by
  refine not_runsOn_append_of_ne _ ?_ (Dockerfile.not_runsOn_quote value)
  simp [Dockerfile.quote, Dockerfile.quoteChars]

theorem not_runsOn_copyArtifact {target : String} (h : isPlainPath target = true)
    (artifact : Artifact) : ¬ RunsOn (copyArtifact artifact target).line := by
  have hplain := PlainText.of_isPlainPath h
  exact not_runsOn_append_of_ne _ hplain.ne_empty hplain.not_runsOn

theorem not_runsOn_entrypoint (argv : List String) : ¬ RunsOn (entrypoint argv).line := by
  rw [line_entrypoint, runsOn_append (by decide)]
  exact Dockerfile.not_runsOn_execForm argv

end Instruction

end RunsOn

-- ════════════════════════════════════════════════════════════════════════
-- Files that break out of their lines
-- ════════════════════════════════════════════════════════════════════════

theorem not_runsOn_paragraph (base : BaseImage) {packages : List String}
    (h : ∀ name ∈ packages, isPackageName name = true) :
    ∀ instruction ∈ paragraph (base.install? packages), ¬ RunsOn instruction.line := by
  rw [BaseImage.install?]
  split
  · simp [paragraph]
  · rw [paragraph, List.forall_mem_cons, List.forall_mem_singleton]
    exact ⟨Instruction.not_runsOn_install h base.manager, by decide⟩

/-- Of a build stage, only the first line and that of the working directory can run on. -/
theorem BuildStage.WellFormed.stops_iff {stage : BuildStage} (h : stage.WellFormed) :
    (∀ instruction ∈ stage.instructions, ¬ RunsOn instruction.line) ↔
      ¬ RunsOn stage.name ∧ ¬ RunsOn stage.sources.workdir := by
  have hblank : ¬ RunsOn Instruction.blank.line := by decide
  simp only [instructions, BaseImage.start, List.append_assoc, List.cons_append, List.nil_append,
    List.forall_mem_append, List.forall_mem_cons, List.forall_mem_map, Instruction.runsOn_start,
    Instruction.runsOn_workdir]
  constructor
  · rintro ⟨hname, -, -, hworkdir, -⟩
    exact ⟨hname, hworkdir⟩
  · rintro ⟨hname, hworkdir⟩
    refine ⟨hname, hblank, ?_, hworkdir, hblank, ?_, hblank, ?_, ?_, by simp⟩
    · exact not_runsOn_paragraph stage.base h.toolchain
    · exact fun path _ => Instruction.not_runsOn_copySource _
    · exact fun binding _ => Instruction.not_runsOn_env _ _
    · exact Instruction.not_runsOn_run stage.command

/-- Of a final stage, only the first line can run on. -/
theorem FinalStage.WellFormed.stops_iff {stage : FinalStage} (h : stage.WellFormed)
    (artifact : Artifact) (labels : Bindings String) :
    (∀ instruction ∈ stage.instructions artifact labels, ¬ RunsOn instruction.line) ↔
      ¬ RunsOn stage.name := by
  have hblank : ¬ RunsOn Instruction.blank.line := by decide
  simp only [instructions, BaseImage.start, List.append_assoc, List.cons_append, List.nil_append,
    List.forall_mem_append, List.forall_mem_cons, List.forall_mem_map, Instruction.runsOn_start]
  constructor
  · rintro ⟨hname, -⟩
    exact hname
  · intro hname
    refine ⟨hname, hblank, ?_, ?_, ?_, hblank, ?_, ?_, ?_, hblank, ?_, by simp⟩
    · exact not_runsOn_paragraph stage.base h.runtime
    · exact Instruction.not_runsOn_addUser h.identity.name stage.base.manager
    · exact Instruction.not_runsOn_user h.identity.name
    · exact fun binding _ => Instruction.not_runsOn_label _ _
    · split
      · simp
      · rwa [List.forall_mem_singleton]
    · exact Instruction.not_runsOn_copyArtifact h.entrypoint artifact
    · exact Instruction.not_runsOn_entrypoint _

/-- A specification that cannot break out of a line: none of its unescaped texts holds a line end,
and those that end a line do not end in a backslash. -/
structure Spec.Confined (spec : Spec) : Prop where
  lacks : ∀ c, IsLineEnd c → spec.Lacks c
  buildName : ¬ RunsOn spec.build.name
  workdir : ¬ RunsOn spec.build.sources.workdir
  finalName : ¬ RunsOn spec.final.name

theorem Spec.WellFormed.stops_iff {spec : Spec} (h : spec.WellFormed) :
    (∀ instruction ∈ Dockerfile.twoStage spec, ¬ RunsOn instruction.line) ↔
      ¬ RunsOn spec.build.name ∧ ¬ RunsOn spec.build.sources.workdir ∧
        ¬ RunsOn spec.final.name := by
  have hheader : ∀ instruction ∈ Dockerfile.header, ¬ RunsOn instruction.line := by decide +kernel
  have hblank : ¬ RunsOn Instruction.blank.line := by decide
  have hfirst : RunsOn ("Stage 1: " ++ spec.build.name) ↔ RunsOn spec.build.name :=
    runsOn_append (by decide)
  have hsecond : RunsOn ("Stage 2: " ++ spec.final.name) ↔ RunsOn spec.final.name :=
    runsOn_append (by decide)
  have hfinal := h.final.stops_iff spec.artifact spec.labels
  simp only [Dockerfile.twoStage, Spec.finalInstructions, List.append_assoc, List.cons_append,
    List.nil_append, List.forall_mem_append, List.forall_mem_cons, Instruction.runsOn_comment,
    hfirst, hsecond, hfinal, h.build.stops_iff]
  constructor
  · rintro ⟨-, hname, ⟨-, hworkdir⟩, -, hfinal, -⟩
    exact ⟨hname, hworkdir, hfinal⟩
  · rintro ⟨hname, hworkdir, hfinal⟩
    exact ⟨hheader, hname, ⟨hname, hworkdir⟩, hblank, hfinal, hfinal⟩

namespace Dockerfile

/-- The file of an accepted specification has one line for each of its instructions exactly where
the specification cannot break out of a line. -/
theorem lineByLine_iff_confined {spec : Spec} (hspec : spec.Accepted) :
    LineByLine (twoStage spec) ↔ spec.Confined := by
  have hlacks : ∀ c, IsLineEnd c →
      ((∀ instruction ∈ twoStage spec, c ∉ instruction.line.toList) ↔ spec.Lacks c) :=
    fun c hc => Spec.lacks_iff hc hspec
  have hstops := hspec.wellFormed.stops_iff
  constructor
  · rintro ⟨hwhole, -⟩
    obtain ⟨hbuild, hworkdir, hfinal⟩ :=
      hstops.mp fun instruction hmem => (hwhole instruction hmem).stops
    refine ⟨fun c hc => (hlacks c hc).mp fun instruction hmem => ?_, hbuild, hworkdir, hfinal⟩
    exact (hwhole instruction hmem).oneLine c hc
  · intro h
    have hwhole : ∀ instruction ∈ twoStage spec, Whole instruction.line := by
      intro instruction hmem
      refine ⟨fun c hc => (hlacks c hc).mpr (h.lacks c hc) instruction hmem, ?_⟩
      exact hstops.mpr ⟨h.buildName, h.workdir, h.finalName⟩ instruction hmem
    exact ⟨hwhole, (fileLines_text_iff _).mpr hwhole⟩

theorem lineByLine_standard :
    Spec.standard.Accepted ∧ LineByLine (twoStage Spec.standard) := by
  refine ⟨Spec.accepted_standard, (lineByLine_iff_confined Spec.accepted_standard).mpr ?_⟩
  exact ⟨fun c hc => Spec.lacks_standard hc, by decide, by decide, by decide⟩

/-- A build stage that is to get a package with a line feed at the end of its name. -/
def openPackageSpec : Spec :=
  { Spec.standard with
    build := { BuildStage.standard with toolchain := ⟨["git\n"]⟩ } }

/-- The pattern of package names lets the line feed through, and the instruction that installs the
package ends one line of the file and starts another. -/
theorem not_lineByLine_of_package :
    openPackageSpec.Accepted ∧
      .install .apk ["git\n"] ∈ openPackageSpec.build.instructions ∧
      ¬ Whole (Instruction.install .apk ["git\n"]).line ∧
      ¬ LineByLine (twoStage openPackageSpec) := by
  have haccepted : openPackageSpec.Accepted :=
    Spec.accepted_of_parse
      (.obj [("build", .obj [("toolchain", .obj [("packages", .arr [.str "git\n"])])])])
      (by decide +kernel)
  have hmem : .install .apk ["git\n"] ∈ openPackageSpec.build.instructions := by decide +kernel
  have hbroken : ¬ Whole (Instruction.install .apk ["git\n"]).line := by
    intro h
    have hline := h.oneLine '\n' (Or.inl rfl)
    rw [Instruction.mem_line_iff (Or.inl rfl)] at hline
    exact hline ⟨"git\n", by decide, by decide⟩
  refine ⟨haccepted, hmem, hbroken, fun h => hbroken (h.whole _ ?_)⟩
  rw [twoStage]
  have hstage := List.mem_cons_of_mem (.comment ("Stage 1: " ++ openPackageSpec.build.name)) hmem
  exact List.mem_append_left _ (List.mem_append_left _ (List.mem_append_right _ hstage))

end Dockerfile

end TwoStage

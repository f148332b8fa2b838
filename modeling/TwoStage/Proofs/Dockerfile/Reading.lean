import TwoStage.Proofs.Dockerfile.Texts
import TwoStage.Proofs.Text.Words

/-!
# Reading a Dockerfile

A Dockerfile is read line by line. Empty lines and comments do not count, any other line is a
keyword and, behind a space, its operand. The statements from one `FROM` to the next are a stage.
Where no text of the specification breaks a line, what is read is what was rendered.

## Main definitions

- `Statement`, `Dockerfile.read` — the statements of a file
- `Instruction.keyword`, `Instruction.operand` — the two parts of the line of an instruction
- `StageText`, `stagesOf` — the stages that statements make up

## Main statements

- `Dockerfile.read_text` — the statements of a file are those of its instructions
- `Dockerfile.stagesOf_twoStage`, `Dockerfile.stagesOf_finalOnly` — the stages of the two files
-/

namespace TwoStage

/-- A line of a Dockerfile that counts. -/
structure Statement where
  keyword : String
  operand : String
  deriving Repr, DecidableEq

namespace Statement

/-- Cuts a line at its first space. -/
def ofLine (line : List Char) : Statement :=
  let (keyword, operand) := cutAt ' ' line
  ⟨String.ofList keyword, String.ofList (operand.getD [])⟩

theorem ofLine_append_space {keyword : String} (h : ' ' ∉ keyword.toList) (operand : String) :
    ofLine (keyword ++ " " ++ operand).toList = ⟨keyword, operand⟩ := by
  have hline : (keyword ++ " " ++ operand).toList = keyword.toList ++ ' ' :: operand.toList := by
    simp [String.toList_append]
  rw [ofLine, hline, cutAt_append_cons h]
  simp

end Statement

/-- Whether a line counts: it is neither empty nor a comment. -/
def lineCounts (line : List Char) : Bool := !line.isEmpty && line.head? != some '#'

/-- The statements of a text. -/
def Dockerfile.read (s : String) : List Statement :=
  ((splitAtEach '\n' s.toList).filter lineCounts).map Statement.ofLine

-- ════════════════════════════════════════════════════════════════════════
-- Lines of instructions
-- ════════════════════════════════════════════════════════════════════════

namespace Instruction

/-- The first word of the line. -/
def keyword : Instruction → String
  | blank => ""
  | comment _ => "#"
  | start .. => "FROM"
  | install .. | run .. | addUser .. => "RUN"
  | workdir _ => "WORKDIR"
  | copySource _ | copyArtifact .. => "COPY"
  | env .. => "ENV"
  | user _ => "USER"
  | label .. => "LABEL"
  | entrypoint _ => "ENTRYPOINT"

/-- What follows the first word of the line and a space. -/
def operand : Instruction → String
  | blank => ""
  | comment text => text
  | start reference stageName => reference ++ " AS " ++ stageName
  | install .apk packages => "apk add --no-cache " ++ joinWith " " packages
  | install .apt packages =>
    "apt-get update && apt-get install -y --no-install-recommends " ++ joinWith " " packages ++
      " && rm -rf /var/lib/apt/lists/*"
  | workdir path => path
  | copySource path => Dockerfile.execForm [path, path]
  | env name value => Dockerfile.assignment name value
  | run argv => Dockerfile.shellWords argv
  | addUser .apk identity => "adduser -D -s " ++ identity.shell ++ " " ++ identity.name
  | addUser .apt identity =>
    "useradd --create-home --shell " ++ identity.shell ++ " " ++ identity.name
  | user name => name
  | label name value => Dockerfile.quote name ++ "=" ++ Dockerfile.quote value
  | copyArtifact artifact target =>
    "--from=" ++ artifact.stage ++ " " ++ artifact.path ++ " " ++ target
  | entrypoint argv => Dockerfile.execForm argv

theorem line_eq {instruction : Instruction} (h : instruction ≠ blank) :
    instruction.line = instruction.keyword ++ " " ++ instruction.operand := by
  cases instruction with
  | blank => exact absurd rfl h
  | comment text => rfl
  | start reference stageName =>
    show "FROM " ++ reference ++ " AS " ++ stageName =
      "FROM " ++ (reference ++ " AS " ++ stageName)
    simp only [String.append_assoc]
  | install manager packages =>
    cases manager with
    | apk =>
      have hstart : ("RUN apk add --no-cache " : String) = "RUN " ++ "apk add --no-cache " := by
        decide
      show "RUN apk add --no-cache " ++ joinWith " " packages =
        "RUN " ++ ("apk add --no-cache " ++ joinWith " " packages)
      rw [hstart, String.append_assoc]
    | apt =>
      have hstart : ("RUN apt-get update && apt-get install -y --no-install-recommends " : String) =
          "RUN " ++ "apt-get update && apt-get install -y --no-install-recommends " := by
        decide
      show "RUN apt-get update && apt-get install -y --no-install-recommends " ++
          joinWith " " packages ++ " && rm -rf /var/lib/apt/lists/*" =
        "RUN " ++ ("apt-get update && apt-get install -y --no-install-recommends " ++
          joinWith " " packages ++ " && rm -rf /var/lib/apt/lists/*")
      rw [hstart]
      simp only [String.append_assoc]
  | workdir path => rfl
  | copySource path => rfl
  | env name value => rfl
  | run argv => rfl
  | addUser manager identity =>
    cases manager with
    | apk =>
      have hstart : ("RUN adduser -D -s " : String) = "RUN " ++ "adduser -D -s " := by decide
      show "RUN adduser -D -s " ++ identity.shell ++ " " ++ identity.name =
        "RUN " ++ ("adduser -D -s " ++ identity.shell ++ " " ++ identity.name)
      rw [hstart]
      simp only [String.append_assoc]
    | apt =>
      have hstart : ("RUN useradd --create-home --shell " : String) =
          "RUN " ++ "useradd --create-home --shell " := by decide
      show "RUN useradd --create-home --shell " ++ identity.shell ++ " " ++ identity.name =
        "RUN " ++ ("useradd --create-home --shell " ++ identity.shell ++ " " ++ identity.name)
      rw [hstart]
      simp only [String.append_assoc]
  | user name => rfl
  | label name value =>
    show "LABEL " ++ Dockerfile.quote name ++ "=" ++ Dockerfile.quote value =
      "LABEL " ++ (Dockerfile.quote name ++ "=" ++ Dockerfile.quote value)
    simp only [String.append_assoc]
  | copyArtifact artifact target =>
    have hstart : ("COPY --from=" : String) = "COPY " ++ "--from=" := by decide
    show "COPY --from=" ++ artifact.stage ++ " " ++ artifact.path ++ " " ++ target =
      "COPY " ++ ("--from=" ++ artifact.stage ++ " " ++ artifact.path ++ " " ++ target)
    rw [hstart]
    simp only [String.append_assoc]
  | entrypoint argv => rfl

/-- The statement of an instruction; empty lines and comments make none. -/
def statement? : Instruction → Option Statement
  | blank => none
  | comment _ => none
  | instruction => some ⟨instruction.keyword, instruction.operand⟩

/-- The keywords of the instructions that count. -/
def keywords : List String :=
  ["FROM", "RUN", "WORKDIR", "COPY", "ENV", "USER", "LABEL", "ENTRYPOINT"]

/-- An instruction makes no statement, or one with its own keyword and operand. -/
theorem statement?_cases (instruction : Instruction) :
    (instruction.statement? = none ∧ instruction.keyword ∉ keywords ∧
        lineCounts instruction.line.toList = false) ∨
      (instruction.statement? = some ⟨instruction.keyword, instruction.operand⟩ ∧
        instruction.keyword ∈ keywords ∧
        instruction.line = instruction.keyword ++ " " ++ instruction.operand) := by
  cases instruction with
  | blank => exact Or.inl ⟨rfl, by decide, rfl⟩
  | comment text =>
    left
    refine ⟨rfl, (by decide : "#" ∉ keywords), ?_⟩
    rw [line_comment, String.toList_append]
    rfl
  | _ =>
    right
    refine ⟨rfl, ?_, line_eq (by simp)⟩
    simp [keyword, keywords]

/-- The keyword is the first word of the line. -/
theorem words_line {instruction : Instruction} (h : instruction.keyword ∈ keywords) :
    words instruction.line = instruction.keyword :: words instruction.operand := by
  have hall : ∀ keyword ∈ keywords, Unspaced keyword ∧ keyword ≠ "" := by decide
  obtain ⟨hspaced, hne⟩ := hall _ h
  have hblank : instruction ≠ blank := by
    rintro rfl
    exact absurd h (by decide)
  rw [line_eq hblank, String.append_assoc, words_keyword hspaced hne]

/-- A line counts exactly where its instruction makes a statement, and reads as this statement. -/
theorem ofLine_line (instruction : Instruction) :
    (if lineCounts instruction.line.toList then some (Statement.ofLine instruction.line.toList)
      else none) = instruction.statement? := by
  rcases instruction.statement?_cases with ⟨hnone, -, hcounts⟩ | ⟨hsome, hkeyword, hline⟩
  · rw [hnone, hcounts]
    rfl
  · -- the keywords hold no space and start with a letter
    have hall : ∀ keyword ∈ keywords, ' ' ∉ keyword.toList ∧ keyword.toList ≠ [] ∧
        keyword.toList.head? ≠ some '#' := by decide
    obtain ⟨hspace, hne, hfirst⟩ := hall _ hkeyword
    obtain ⟨first, rest, hcs⟩ := List.exists_cons_of_ne_nil hne
    have hcounts : lineCounts instruction.line.toList = true := by
      rw [hcs, List.head?_cons] at hfirst
      rw [hline, String.toList_append, String.toList_append, hcs]
      simpa [lineCounts] using hfirst
    rw [if_pos hcounts, hsome, hline, Statement.ofLine_append_space hspace]

end Instruction

namespace Dockerfile

/-- The statements of a file are those of its instructions. -/
theorem read_text {instructions : List Instruction}
    (h : ∀ instruction ∈ instructions, '\n' ∉ instruction.line.toList) :
    read (text instructions) = instructions.filterMap Instruction.statement? := by
  have hempty : ([[]] : List (List Char)).filter lineCounts = [] := rfl
  rw [read, splitAtEach_toList_text h, List.filter_append, hempty, List.append_nil]
  clear h
  induction instructions with
  | nil => rfl
  | cons instruction rest ih =>
    rw [List.filterMap_cons, ← Instruction.ofLine_line, List.map_cons, List.filter_cons]
    split
    · rw [List.map_cons, ih]
    · exact ih

end Dockerfile

-- ════════════════════════════════════════════════════════════════════════
-- Stages
-- ════════════════════════════════════════════════════════════════════════

/-- A stage of a file: its name, what it starts from, and its statements behind the `FROM`. -/
structure StageText where
  name : String
  base : String
  body : List Statement
  deriving Repr, DecidableEq

/-- What a `FROM` starts from and the name behind its `AS`. -/
def Statement.start? (statement : Statement) : Option (String × String) :=
  if statement.keyword = "FROM" then
    let (base, rest) := cutAt ' ' statement.operand.toList
    let (as, name) := cutAt ' ' (rest.getD [])
    some (String.ofList base, if as = "AS".toList then String.ofList (name.getD []) else "")
  else none

/-- The statements before the first `FROM`, and the stages. -/
def splitStages : List Statement → List Statement × List StageText
  | [] => ([], [])
  | statement :: rest =>
    let (body, stages) := splitStages rest
    match statement.start? with
    | some (base, name) => ([], ⟨name, base, body⟩ :: stages)
    | none => (statement :: body, stages)

/-- The stages that statements make up. -/
def stagesOf (statements : List Statement) : List StageText := (splitStages statements).2

theorem Statement.start?_of_ne {statement : Statement} (h : statement.keyword ≠ "FROM") :
    statement.start? = none := if_neg h

theorem Statement.start?_from {reference : String} (h : ' ' ∉ reference.toList)
    (stageName : String) :
    (Statement.mk "FROM" (reference ++ " AS " ++ stageName)).start? =
      some (reference, stageName) := by
  have hoperand : (reference ++ " AS " ++ stageName).toList =
      reference.toList ++ ' ' :: ("AS".toList ++ ' ' :: stageName.toList) := by
    simp [String.toList_append]
  rw [start?, if_pos rfl, hoperand, cutAt_append_cons h]
  simp only [Option.getD_some]
  rw [cutAt_append_cons (by decide)]
  simp

/-- Statements that start no stage belong to the one before. -/
theorem splitStages_append {body : List Statement}
    (h : ∀ statement ∈ body, statement.keyword ≠ "FROM") (rest : List Statement) :
    splitStages (body ++ rest) = (body ++ (splitStages rest).1, (splitStages rest).2) := by
  induction body with
  | nil => rfl
  | cons statement body ih =>
    have hstatement := Statement.start?_of_ne (h statement List.mem_cons_self)
    have hbody := ih fun other hmem => h other (List.mem_cons_of_mem _ hmem)
    rw [List.cons_append, splitStages, hbody, hstatement]
    rfl

/-- The statements of instructions. -/
def statementsOf (instructions : List Instruction) : List Statement :=
  instructions.filterMap Instruction.statement?

theorem statementsOf_append (before after : List Instruction) :
    statementsOf (before ++ after) = statementsOf before ++ statementsOf after :=
  List.filterMap_append

theorem statementsOf_comment (text : String) (rest : List Instruction) :
    statementsOf (.comment text :: rest) = statementsOf rest := rfl

theorem statementsOf_blank : statementsOf [.blank] = [] := rfl

theorem statementsOf_header : statementsOf Dockerfile.header = [] := rfl

theorem keyword_ne_of_mem_statementsOf {instructions : List Instruction} {keyword : String}
    (h : ∀ instruction ∈ instructions, instruction.keyword ≠ keyword) {statement : Statement}
    (hmem : statement ∈ statementsOf instructions) : statement.keyword ≠ keyword := by
  obtain ⟨instruction, hinstruction, hsome⟩ := List.mem_filterMap.mp hmem
  rcases instruction.statement?_cases with ⟨hnone, -⟩ | ⟨hown, -, -⟩
  · rw [hnone] at hsome
    cases hsome
  · rw [hown, Option.some.injEq] at hsome
    rw [← hsome]
    exact h instruction hinstruction

/-- A stage that begins with a `FROM` and has no other. -/
theorem splitStages_stage {reference : String} (href : ' ' ∉ reference.toList)
    {instructions : List Instruction}
    (h : ∀ instruction ∈ instructions, instruction.keyword ≠ "FROM") (stageName : String)
    (rest : List Statement) :
    splitStages (statementsOf (.start reference stageName :: instructions) ++ rest) =
      ([], ⟨stageName, reference, statementsOf instructions ++ (splitStages rest).1⟩ ::
        (splitStages rest).2) := by
  have hstart : statementsOf (.start reference stageName :: instructions) =
      ⟨"FROM", reference ++ " AS " ++ stageName⟩ :: statementsOf instructions := rfl
  have hbody := splitStages_append (fun _ hmem => keyword_ne_of_mem_statementsOf h hmem) rest
  rw [hstart, List.cons_append, splitStages, hbody, Statement.start?_from href]

/-- The instructions of the build stage behind the first. -/
def BuildStage.body (stage : BuildStage) : List Instruction := stage.instructions.tail

/-- The instructions of the final stage behind the first. -/
def Spec.finalBody (spec : Spec) : List Instruction := spec.finalInstructions.tail

theorem paragraph_keyword_ne {instruction : Option Instruction}
    (h : ∀ i ∈ instruction, i.keyword ≠ "FROM") :
    ∀ i ∈ paragraph instruction, i.keyword ≠ "FROM" := by
  cases instruction with
  | none => simp [paragraph]
  | some i =>
    rw [paragraph, List.forall_mem_cons, List.forall_mem_singleton]
    exact ⟨h i rfl, by decide⟩

theorem install?_keyword_ne (base : BaseImage) (packages : List String) :
    ∀ i ∈ base.install? packages, i.keyword ≠ "FROM" := by
  rw [BaseImage.install?]
  split
  · simp
  · rintro i ⟨⟩
    show ("RUN" : String) ≠ "FROM"
    decide

theorem BuildStage.keyword_ne_of_mem_body (stage : BuildStage) :
    ∀ instruction ∈ stage.body, instruction.keyword ≠ "FROM" := by
  have hinstall := paragraph_keyword_ne (install?_keyword_ne stage.base stage.toolchain.packages)
  simp only [body, instructions, BaseImage.start, List.append_assoc, List.cons_append,
    List.nil_append, List.tail_cons, List.forall_mem_append, List.forall_mem_cons,
    List.forall_mem_map]
  refine ⟨by decide, hinstall, ?_, by decide, ?_, by decide, ?_, ?_, by simp⟩
  · simp [Instruction.keyword]
  · simp [Instruction.keyword]
  · simp [Instruction.keyword]
  · simp [Instruction.keyword]

theorem Spec.keyword_ne_of_mem_finalBody (spec : Spec) :
    ∀ instruction ∈ spec.finalBody, instruction.keyword ≠ "FROM" := by
  have hinstall :=
    paragraph_keyword_ne (install?_keyword_ne spec.final.base spec.final.runtime.packages)
  have hblank : ∀ instruction ∈ (if spec.labels.isEmpty then [] else [Instruction.blank]),
      instruction.keyword ≠ "FROM" := by
    split <;> simp [Instruction.keyword]
  simp only [finalBody, finalInstructions, FinalStage.instructions, BaseImage.start,
    List.append_assoc, List.cons_append, List.nil_append, List.tail_cons, List.forall_mem_append,
    List.forall_mem_cons, List.forall_mem_map]
  refine ⟨by decide, hinstall, ?_, ?_, by decide, ?_, hblank, ?_, by decide, ?_, by simp⟩
  · simp [Instruction.keyword]
  · simp [Instruction.keyword]
  · simp [Instruction.keyword]
  · simp [Instruction.keyword]
  · simp [Instruction.keyword]

/-- The final stage of a specification, as it is read from either file. -/
def Spec.finalStageText (spec : Spec) : StageText :=
  ⟨spec.final.name, spec.final.base.reference, statementsOf spec.finalBody⟩

/-- The build stage of a specification, as it is read from the file with both stages. -/
def Spec.buildStageText (spec : Spec) : StageText :=
  ⟨spec.build.name, spec.build.base.reference, statementsOf spec.build.body⟩

theorem splitStages_finalInstructions {spec : Spec}
    (hfinal : ' ' ∉ spec.final.base.reference.toList) :
    splitStages (statementsOf spec.finalInstructions) = ([], [spec.finalStageText]) := by
  have hstage := splitStages_stage hfinal spec.keyword_ne_of_mem_finalBody spec.final.name []
  rw [List.append_nil] at hstage
  have hinstructions : spec.finalInstructions =
      .start spec.final.base.reference spec.final.name :: spec.finalBody := rfl
  rw [hinstructions, hstage]
  simp [splitStages, Spec.finalStageText]

namespace Dockerfile

/-- The stages of the file with both stages. -/
theorem stagesOf_twoStage {spec : Spec} (hlacks : spec.Lacks '\n')
    (hbuild : ' ' ∉ spec.build.base.reference.toList)
    (hfinal : ' ' ∉ spec.final.base.reference.toList) :
    stagesOf (read (text (twoStage spec))) = [spec.buildStageText, spec.finalStageText] := by
  have hstatements : statementsOf (twoStage spec) =
      statementsOf (.start spec.build.base.reference spec.build.name :: spec.build.body) ++
        statementsOf spec.finalInstructions := by
    have hinstructions : spec.build.instructions =
        .start spec.build.base.reference spec.build.name :: spec.build.body := rfl
    rw [twoStage, hinstructions]
    simp only [statementsOf_append, statementsOf_comment, statementsOf_header, statementsOf_blank,
      List.nil_append, List.append_nil]
  have hstage := splitStages_stage hbuild spec.build.keyword_ne_of_mem_body spec.build.name
    (statementsOf spec.finalInstructions)
  rw [stagesOf, read_text (hlacks.not_mem_line (Or.inl rfl))]
  show (splitStages (statementsOf (twoStage spec))).2 = _
  rw [hstatements, hstage, splitStages_finalInstructions hfinal]
  simp [Spec.buildStageText]

/-- The stages of the file with the final stage alone: the first has no statements. -/
theorem stagesOf_finalOnly {spec : Spec} {builder : String} (hlacks : spec.Lacks '\n')
    (hline : '\n' ∉ builder.toList) (hbuilder : ' ' ∉ builder.toList)
    (hfinal : ' ' ∉ spec.final.base.reference.toList) :
    stagesOf (read (text (finalOnly spec builder))) =
      [⟨spec.build.name, builder, []⟩, spec.finalStageText] := by
  have hstatements : statementsOf (finalOnly spec builder) =
      statementsOf [.start builder spec.build.name] ++ statementsOf spec.finalInstructions := by
    rw [finalOnly, statementsOf_append, statementsOf_append, statementsOf_header,
      statementsOf_comment, List.nil_append]
    rfl
  have hempty : ∀ instruction ∈ ([] : List Instruction), instruction.keyword ≠ "FROM" := by simp
  have hstage := splitStages_stage hbuilder hempty spec.build.name
    (statementsOf spec.finalInstructions)
  rw [stagesOf, read_text (hlacks.not_mem_line_finalOnly (Or.inl rfl) hline)]
  show (splitStages (statementsOf (finalOnly spec builder))).2 = _
  rw [hstatements, hstage, splitStages_finalInstructions hfinal]
  simp [statementsOf]

end Dockerfile

end TwoStage

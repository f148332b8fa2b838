import TwoStage.Proofs.Dockerfile.Reading

/-!
# Operands

What the operands of statements say, read as the engine reads them: a variable with its value, bare
or in double quotes, and the path that is copied out of another stage. The operands of one keyword
are those of the instructions with this keyword, in order.

## Main definitions

- `Dockerfile.operands` — the operands of the statements with a keyword
- `Dockerfile.unquoteFrom`, `Dockerfile.assignment?` — a text in double quotes, and a variable
- `Dockerfile.copied?` — the stage and the path that are copied from
- `Dockerfile.stage?` — the stage of a name
- `Dockerfile.TellsFinal` — what a file says of the final stage

## Main statements

- `Dockerfile.operands_text` — the operands in a file that was rendered
- `Dockerfile.assignments_twoStage` — the variables that are read back
- `Dockerfile.tellsFinal_twoStage`, `Dockerfile.tellsFinal_finalOnly` — both files say the same of
  the final stage
- `Dockerfile.stage?_twoStage`, `Dockerfile.stage?_finalOnly` — the stages that are found
-/

namespace TwoStage

/-- The names of the variables of a well-formed environment hold no equals sign. -/
theorem BuildEnvironment.WellFormed.equals_not_mem {env : BuildEnvironment} (h : env.WellFormed)
    {binding : String × String} (hmem : binding ∈ env.assignments) : '=' ∉ binding.1.toList := by
  rcases Bindings.mem_overlay hmem with hbuiltin | hextra
  · have hall : ∀ name ∈ env.builtin.map Prod.fst, '=' ∉ name.toList := by
      simp only [BuildEnvironment.builtin, List.map_cons, List.map_nil]
      decide
    exact hall binding.1 (List.mem_map_of_mem hbuiltin)
  · exact equals_not_mem_of_isVariableName (h binding hextra).1

namespace Dockerfile

/-- The operands of the statements with a keyword, in order. -/
def operands (keyword s : String) : List String :=
  ((read s).filter fun statement => statement.keyword = keyword).map Statement.operand

/-- Reads a text in double quotes behind the opening one: the text, and what follows the closing
quote. A backslash takes the next character as it is. An unescaped `$` is refused, since a variable
would be expanded there. -/
def unquoteFrom (done : List Char) : List Char → Option (List Char × List Char)
  | [] => none
  | '\x22' :: rest => some (done.reverse, rest)
  | '\\' :: c :: rest => unquoteFrom (c :: done) rest
  | c :: rest => if c = '\\' || c = '$' then none else unquoteFrom (c :: done) rest

/-- Whether a character outside of quotes does not stand for itself. -/
def isSpecial (c : Char) : Bool := isBlank c || c ∈ ['\x22', '\x27', '\\', '$']

/-- Reads a value that is in double quotes or bare. -/
def value? : List Char → Option (List Char)
  | '\x22' :: rest =>
    match unquoteFrom [] rest with
    | some (value, []) => some value
    | _ => none
  | cs => if cs.any isSpecial then none else some cs

/-- Reads a variable with its value. -/
def assignment? (operand : String) : Option (String × String) :=
  let (name, value) := cutAt '=' operand.toList
  (value.bind value?).map fun value => (String.ofList name, String.ofList value)

/-- Reads from which stage a path is copied, and the path. -/
def copied? (operand : String) : Option (String × String) :=
  (afterStart? "--from=".toList operand.toList).map fun rest =>
    let (stage, paths) := cutAt ' ' rest
    (String.ofList stage, String.ofList (cutAt ' ' (paths.getD [])).1)

-- ════════════════════════════════════════════════════════════════════════
-- Variables
-- ════════════════════════════════════════════════════════════════════════

theorem unquoteFrom_quoteChar (c : Char) (done rest : List Char) :
    unquoteFrom done (quoteChar c ++ rest) = unquoteFrom (c :: done) rest := by
  rw [quoteChar]
  split
  · rw [List.cons_append, List.singleton_append, unquoteFrom]
  · next hplain =>
    simp only [Bool.or_eq_true, decide_eq_true_eq, not_or] at hplain
    obtain ⟨⟨hbackslash, hquote⟩, hdollar⟩ := hplain
    rw [List.singleton_append, unquoteFrom]
    · simp [hbackslash, hdollar]
    · exact hquote
    · exact fun _ _ heq => absurd heq hbackslash

/-- A text in double quotes is read back, whatever follows. -/
theorem unquoteFrom_flatMap (cs done rest : List Char) :
    unquoteFrom done (cs.flatMap quoteChar ++ '\x22' :: rest) =
      some (done.reverse ++ cs, rest) := by
  induction cs generalizing done with
  | nil =>
    rw [List.flatMap_nil, List.nil_append, unquoteFrom, List.append_nil]
  | cons c cs ih =>
    rw [List.flatMap_cons, List.append_assoc, unquoteFrom_quoteChar, ih]
    simp

/-- What needs no quotes stands for itself. -/
theorem isSpecial_of_isBareChar {c : Char} (h : isBareChar c = true) : isSpecial c = false :=
  forall_ascii (P := fun c => isBareChar c = true → isSpecial c = false) (by decide)
    (toNat_lt_of_isAlphanum_or (by simp) h) h

theorem value?_envValue (value : String) : value? (envValue value).toList = some value.toList := by
  rw [envValue]
  split
  · next hbare =>
    rw [Bool.and_eq_true, List.all_eq_true] at hbare
    have hplain : ∀ c ∈ value.toList, isSpecial c = false :=
      fun c hc => isSpecial_of_isBareChar (hbare.2 c hc)
    have hnone : value.toList.any isSpecial = false := by
      rw [List.any_eq_false]
      exact fun c hc => by rw [hplain c hc]; exact Bool.false_ne_true
    rw [value?, hnone]
    · rfl
    · intro rest heq
      have hquote := hplain '\x22' (by rw [heq]; exact List.mem_cons_self)
      exact absurd hquote (by decide)
  · have hquoted : (quote value).toList =
        '\x22' :: (value.toList.flatMap quoteChar ++ ['\x22']) := by
      rw [quote, String.toList_ofList, quoteChars, List.cons_append]
    rw [hquoted, value?, unquoteFrom_flatMap]
    simp

/-- A variable is read back. -/
theorem assignment?_assignment {name : String} (h : '=' ∉ name.toList) (value : String) :
    assignment? (assignment name value) = some (name, value) := by
  have htext : (assignment name value).toList = name.toList ++ '=' :: (envValue value).toList := by
    simp [assignment]
  rw [assignment?, htext, cutAt_append_cons h]
  simp [value?_envValue]

/-- A path that is copied out of another stage is read back. -/
theorem copied?_copyArtifact (artifact : Artifact) (target : String)
    (hstage : ' ' ∉ artifact.stage.toList) (hpath : ' ' ∉ artifact.path.toList) :
    copied? (Instruction.copyArtifact artifact target).operand =
      some (artifact.stage, artifact.path) := by
  have htext : (Instruction.copyArtifact artifact target).operand.toList =
      "--from=".toList ++ (artifact.stage.toList ++ ' ' ::
        (artifact.path.toList ++ ' ' :: target.toList)) := by
    show ("--from=" ++ artifact.stage ++ " " ++ artifact.path ++ " " ++ target).toList = _
    simp
  rw [copied?, afterStart?_eq_some_iff.mpr htext, Option.map_some, cutAt_append_cons hstage]
  dsimp only
  rw [Option.getD_some, cutAt_append_cons hpath]
  simp

/-- Nothing is copied out of another stage by the words of an array. -/
theorem copied?_execForm (argv : List String) : copied? (execForm argv) = none := by
  have htext : ∃ rest, (execForm argv).toList = '[' :: rest := by
    refine ⟨(joinWith ", " (Json.compactItems (argv.map .str))).toList ++ "]".toList, ?_⟩
    rw [execForm, Json.ofStrings, Json.compact, String.toList_append, String.toList_append]
    rfl
  obtain ⟨rest, htext⟩ := htext
  rw [copied?, htext]
  rfl

-- ════════════════════════════════════════════════════════════════════════
-- Instructions by keyword
-- ════════════════════════════════════════════════════════════════════════

/-- The instructions with a keyword, in order. -/
def withKeyword (keyword : String) (instructions : List Instruction) : List Instruction :=
  instructions.filter fun instruction => instruction.keyword = keyword

/-- The operands of a keyword are those of the instructions with it. -/
theorem operands_text {instructions : List Instruction} {keyword : String}
    (hkeyword : keyword ∈ Instruction.keywords)
    (h : ∀ instruction ∈ instructions, '\n' ∉ instruction.line.toList) :
    operands keyword (text instructions) =
      (withKeyword keyword instructions).map Instruction.operand := by
  rw [operands, read_text h, withKeyword]
  clear h
  induction instructions with
  | nil => rfl
  | cons instruction rest ih =>
    rw [List.filterMap_cons, List.filter_cons]
    rcases instruction.statement?_cases with ⟨hnone, hnot, -⟩ | ⟨hsome, -, -⟩
    · have hne : instruction.keyword ≠ keyword := by
        rintro rfl
        exact hnot hkeyword
      simp [hnone, hne, ih]
    · rw [hsome]
      by_cases heq : instruction.keyword = keyword
      · simp [heq, ih]
      · simp [heq, ih]

theorem withKeyword_append (keyword : String) (before after : List Instruction) :
    withKeyword keyword (before ++ after) =
      withKeyword keyword before ++ withKeyword keyword after := List.filter_append before after

theorem withKeyword_cons (keyword : String) (instruction : Instruction)
    (rest : List Instruction) :
    withKeyword keyword (instruction :: rest) =
      if instruction.keyword = keyword then instruction :: withKeyword keyword rest
      else withKeyword keyword rest := by
  simp [withKeyword, List.filter_cons]

theorem withKeyword_map {α : Type} {make : α → Instruction} {own : String}
    (h : ∀ x, (make x).keyword = own) (keyword : String) (xs : List α) :
    withKeyword keyword (xs.map make) = if own = keyword then xs.map make else [] := by
  rw [withKeyword]
  split
  · next heq => simp [h, heq]
  · next hne => simp [h, hne]

/-- Keywords of which there are no other instructions than those of the stages' own texts. -/
def ownKeywords : List String := ["COPY", "ENV", "USER", "ENTRYPOINT"]

theorem not_other_keyword {keyword : String} (h : keyword ∈ ownKeywords) :
    keyword ∈ Instruction.keywords ∧ "" ≠ keyword ∧ "#" ≠ keyword ∧ "FROM" ≠ keyword ∧
      "RUN" ≠ keyword ∧ "WORKDIR" ≠ keyword ∧ "LABEL" ≠ keyword := by
  have hall : ∀ keyword ∈ ownKeywords, keyword ∈ Instruction.keywords ∧ "" ≠ keyword ∧
      "#" ≠ keyword ∧ "FROM" ≠ keyword ∧ "RUN" ≠ keyword ∧ "WORKDIR" ≠ keyword ∧
        "LABEL" ≠ keyword := by decide
  exact hall keyword h

section Keyword

variable {keyword : String} (hkeyword : keyword ∈ ownKeywords)

include hkeyword

theorem withKeyword_paragraph (base : BaseImage) (packages : List String) :
    withKeyword keyword (paragraph (base.install? packages)) = [] := by
  obtain ⟨-, hblank, -, -, hrun, -⟩ := not_other_keyword hkeyword
  rw [BaseImage.install?]
  split
  · rfl
  · simp [paragraph, withKeyword, Instruction.keyword, hrun, hblank]

/-- The sources and the variables of the build stage. -/
theorem withKeyword_buildStage (stage : BuildStage) :
    withKeyword keyword stage.instructions =
      (if "COPY" = keyword then
        stage.sources.paths.map fun path => .copySource (withoutFinalSlashes path) else []) ++
      if "ENV" = keyword then
        stage.env.assignments.map fun (name, value) => .env name value else [] := by
  obtain ⟨-, hblank, -, hfrom, hrun, hworkdir, -⟩ := not_other_keyword hkeyword
  have hcopy : ∀ path, (Instruction.copySource (withoutFinalSlashes path)).keyword = "COPY" :=
    fun _ => rfl
  have henv : ∀ binding : String × String,
      (match binding with | (name, value) => Instruction.env name value).keyword = "ENV" :=
    fun _ => rfl
  simp only [BuildStage.instructions, withKeyword_append, withKeyword_cons,
    withKeyword_paragraph hkeyword, withKeyword_map hcopy, withKeyword_map henv, BaseImage.start,
    Instruction.keyword, hblank, hfrom, hrun, hworkdir, if_false]
  simp [withKeyword]

/-- The user, the executable and the entrypoint of the final stage. -/
theorem withKeyword_finalInstructions (spec : Spec) :
    withKeyword keyword spec.finalInstructions =
      (if "USER" = keyword then [.user spec.final.identity.name] else []) ++
      (if "COPY" = keyword then [.copyArtifact spec.artifact spec.final.entrypoint.path] else []) ++
      if "ENTRYPOINT" = keyword then [.entrypoint spec.final.entrypoint.words] else [] := by
  obtain ⟨-, hblank, -, hfrom, hrun, -, hlabel⟩ := not_other_keyword hkeyword
  have hlabels : ∀ binding : String × String,
      (match binding with | (name, value) => Instruction.label name value).keyword = "LABEL" :=
    fun _ => rfl
  have hgap : withKeyword keyword (if spec.labels.isEmpty then [] else [.blank]) = [] := by
    split
    · rfl
    · simp [withKeyword, Instruction.keyword, hblank]
  simp only [Spec.finalInstructions, FinalStage.instructions, withKeyword_append, withKeyword_cons,
    withKeyword_paragraph hkeyword, withKeyword_map hlabels, hgap, BaseImage.start,
    Instruction.keyword, hblank, hfrom, hrun, hlabel, if_false]
  rw [ownKeywords, List.mem_cons, List.mem_cons, List.mem_cons, List.mem_singleton] at hkeyword
  rcases hkeyword with rfl | rfl | rfl | rfl <;> simp [withKeyword]

theorem withKeyword_twoStage (spec : Spec) :
    withKeyword keyword (twoStage spec) =
      withKeyword keyword spec.build.instructions ++
        withKeyword keyword spec.finalInstructions := by
  obtain ⟨-, hblank, hcomment, -⟩ := not_other_keyword hkeyword
  have hheader : withKeyword keyword header = [] := by
    simp [header, withKeyword, Instruction.keyword, hblank, hcomment]
  simp only [twoStage, withKeyword_append, withKeyword_cons, hheader, Instruction.keyword, hblank,
    hcomment, if_false, List.nil_append]
  simp [withKeyword]

theorem withKeyword_finalOnly (spec : Spec) (builder : String) :
    withKeyword keyword (finalOnly spec builder) = withKeyword keyword spec.finalInstructions := by
  obtain ⟨-, hblank, hcomment, hfrom, -⟩ := not_other_keyword hkeyword
  have hheader : withKeyword keyword header = [] := by
    simp [header, withKeyword, Instruction.keyword, hblank, hcomment]
  simp only [finalOnly, withKeyword_append, withKeyword_cons, hheader, Instruction.keyword, hblank,
    hcomment, hfrom, if_false, List.nil_append]
  simp [withKeyword]

end Keyword

-- ════════════════════════════════════════════════════════════════════════
-- Files of a specification
-- ════════════════════════════════════════════════════════════════════════

/-- The variables that are read from the file with both stages are those of the build stage. -/
theorem assignments_twoStage {spec : Spec} (hspec : spec.Accepted) (hlacks : spec.Lacks '\n') :
    (operands "ENV" (text (twoStage spec))).map assignment? =
      spec.build.env.assignments.map some := by
  rw [operands_text (by decide) (hlacks.not_mem_line (Or.inl rfl)),
    withKeyword_twoStage (by decide), withKeyword_buildStage (by decide),
    withKeyword_finalInstructions (by decide)]
  simp only [String.reduceEq, if_false, if_true, List.nil_append, List.append_nil, List.map_map]
  exact List.map_congr_left fun binding hmem =>
    assignment?_assignment (hspec.wellFormed.build.env.equals_not_mem hmem) binding.2

/-- A file tells the final stage of a specification: who the user is, what is started, and which
path is copied out of which stage. -/
structure TellsFinal (spec : Spec) (s : String) : Prop where
  user : operands "USER" s = [spec.final.identity.name]
  entrypoint : operands "ENTRYPOINT" s = [execForm spec.final.entrypoint.words]
  copied : (operands "COPY" s).filterMap copied? = [(spec.build.name, spec.artifact.path)]

section TellsFinal

variable {spec : Spec} (hspec : spec.Accepted) (hlacks : spec.Lacks '\n')
  (hstage : ' ' ∉ spec.build.name.toList)

include hspec hstage

theorem copied?_artifact :
    copied? (Instruction.copyArtifact spec.artifact spec.final.entrypoint.path).operand =
      some (spec.build.name, spec.artifact.path) :=
  copied?_copyArtifact spec.artifact _ hstage
    (hspec.wellFormed.build.not_mem_artifactPath rfl (by decide))

include hlacks

theorem tellsFinal_twoStage : TellsFinal spec (text (twoStage spec)) := by
  have hoperands : ∀ keyword ∈ ownKeywords, operands keyword (text (twoStage spec)) =
      (withKeyword keyword spec.build.instructions ++
        withKeyword keyword spec.finalInstructions).map Instruction.operand := by
    intro keyword hkeyword
    rw [operands_text (not_other_keyword hkeyword).1 (hlacks.not_mem_line (Or.inl rfl)),
      withKeyword_twoStage hkeyword]
  refine ⟨?_, ?_, ?_⟩
  · rw [hoperands _ (by decide), withKeyword_buildStage (by decide),
      withKeyword_finalInstructions (by decide)]
    rfl
  · rw [hoperands _ (by decide), withKeyword_buildStage (by decide),
      withKeyword_finalInstructions (by decide)]
    rfl
  · have hsources : ∀ path, copied? (Instruction.copySource path).operand = none :=
      fun path => copied?_execForm [path, path]
    rw [hoperands _ (by decide), withKeyword_buildStage (by decide),
      withKeyword_finalInstructions (by decide)]
    simp [List.filterMap_append, List.filterMap_map, Function.comp_def, hsources,
      copied?_artifact hspec hstage]

theorem tellsFinal_finalOnly {builder : String} (hbuilder : '\n' ∉ builder.toList) :
    TellsFinal spec (text (finalOnly spec builder)) := by
  have hoperands : ∀ keyword ∈ ownKeywords, operands keyword (text (finalOnly spec builder)) =
      (withKeyword keyword spec.finalInstructions).map Instruction.operand := by
    intro keyword hkeyword
    rw [operands_text (not_other_keyword hkeyword).1
      (hlacks.not_mem_line_finalOnly (Or.inl rfl) hbuilder), withKeyword_finalOnly hkeyword]
  refine ⟨?_, ?_, ?_⟩
  · rw [hoperands _ (by decide), withKeyword_finalInstructions (by decide)]
    rfl
  · rw [hoperands _ (by decide), withKeyword_finalInstructions (by decide)]
    rfl
  · rw [hoperands _ (by decide), withKeyword_finalInstructions (by decide)]
    simp [copied?_artifact hspec hstage]

end TellsFinal

-- ════════════════════════════════════════════════════════════════════════
-- Stages by name
-- ════════════════════════════════════════════════════════════════════════

/-- The stage of that name; the last one, if there are several. -/
def stage? (s name : String) : Option StageText :=
  (stagesOf (read s)).reverse.find? fun stage => stage.name = name

theorem stage?_twoStage {spec : Spec} (hlacks : spec.Lacks '\n')
    (hbuild : ' ' ∉ spec.build.base.reference.toList)
    (hfinal : ' ' ∉ spec.final.base.reference.toList)
    (hnames : spec.build.name ≠ spec.final.name) :
    stage? (text (twoStage spec)) spec.build.name = some spec.buildStageText := by
  rw [stage?, stagesOf_twoStage hlacks hbuild hfinal]
  simp [Spec.buildStageText, Spec.finalStageText, Ne.symm hnames]

/-- The final stage is found whatever the image that stands for the build stage is called. -/
theorem stage?_finalOnly {spec : Spec} {builder : String} (hlacks : spec.Lacks '\n')
    (hline : '\n' ∉ builder.toList) (hfinal : ' ' ∉ spec.final.base.reference.toList) :
    stage? (text (finalOnly spec builder)) spec.final.name = some spec.finalStageText := by
  have hstatements : statementsOf (finalOnly spec builder) =
      ⟨"FROM", builder ++ " AS " ++ spec.build.name⟩ :: statementsOf spec.finalInstructions := by
    rw [finalOnly, statementsOf_append, statementsOf_append, statementsOf_header,
      statementsOf_comment, List.nil_append]
    rfl
  have hstages : ∃ first,
      stagesOf (read (text (finalOnly spec builder))) = [first, spec.finalStageText] := by
    rw [stagesOf, read_text (hlacks.not_mem_line_finalOnly (Or.inl rfl) hline)]
    show ∃ first, (splitStages (statementsOf (finalOnly spec builder))).2 = _
    rw [hstatements, splitStages, splitStages_finalInstructions hfinal, Statement.start?,
      if_pos rfl]
    exact ⟨_, rfl⟩
  obtain ⟨first, hstages⟩ := hstages
  rw [stage?, hstages]
  simp [Spec.finalStageText]

end Dockerfile

end TwoStage

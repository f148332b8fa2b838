import Mathlib.Data.List.DropRight
import TwoStage.Proofs.Dockerfile.Operands
import TwoStage.Proofs.Dockerfile.Shell
import TwoStage.Proofs.Bindings
import TwoStage.Proofs.Json.Roundtrip

/-!
# What a file says

Each statement of a file is read by its keyword: the operand of a `RUN` as a line for a shell, that
of an `ENV` or a `LABEL` as a name with a value, bare or in quotes, the paths of a `COPY` and the
words of an `ENTRYPOINT` as an array in JSON, and the others word by word. The readers do not know
how an operand was written, and refuse what they cannot read.

The file with both stages says what the specification says: the directives of the build stage and
then those of the final stage, each with the values of its fields, in order, and nothing else. The
extra variables take the places of those of the knobs that they name, the labels are sorted, and
the source paths lose the slashes at their ends.

## Main definitions

- `Directive` — what a statement says
- `Statement.decode?` — reads a statement
- `Instruction.directive?`, `Instruction.Readable` — what an instruction says, and when it is read
- `Spec.directives` — what the file of a specification has to say
- `Spec.UnspacedHeads` — stages whose `FROM` is three words

## Main statements

- `Instruction.decode?_statement?` — an instruction is read back
- `Dockerfile.decode_twoStage` — the whole file is read back
-/

namespace TwoStage

/-- What a statement of a file says. -/
inductive Directive where
  /-- Starts a stage from an image. -/
  | start (reference stageName : String)
  /-- Runs commands in a shell. -/
  | run (tokens : List ShellToken)
  | workdir (path : String)
  /-- Copies a path of the context. -/
  | copy (source target : String)
  /-- Copies a path of another stage. -/
  | copyFrom (stage source target : String)
  | env (name value : String)
  | user (name : String)
  | label (name value : String)
  | entrypoint (argv : List String)
  deriving Repr, DecidableEq

namespace Dockerfile

-- ════════════════════════════════════════════════════════════════════════
-- Readers
-- ════════════════════════════════════════════════════════════════════════

/-- The texts between the spaces. -/
def pieces (s : String) : List String := (splitAtEach ' ' s.toList).map String.ofList

/-- Reads an image, and the name of the stage that starts from it. -/
def start? (operand : String) : Option Directive :=
  match pieces operand with
  | [reference, marker, stageName] =>
    if marker = "AS" then some (.start reference stageName) else none
  | _ => none

/-- The text that a value is. -/
def text? : Json → Option String
  | .str s => some s
  | _ => none

/-- Reads an array of texts. -/
def texts? (operand : String) : Option (List String) :=
  match Json.read operand with
  | .ok (.arr items) => items.mapM text?
  | _ => none

/-- Reads what is copied where. -/
def copy? (operand : String) : Option Directive :=
  match afterStart? "--from=".toList operand.toList with
  | some rest =>
    match pieces (String.ofList rest) with
    | [stage, source, target] => some (.copyFrom stage source target)
    | _ => none
  | none =>
    match texts? operand with
    | some [source, target] => some (.copy source target)
    | _ => none

/-- Reads a label: its name and its value, both in double quotes. -/
def label? (operand : String) : Option Directive :=
  match operand.toList with
  | '\x22' :: rest =>
    match unquoteFrom [] rest with
    | some (name, '=' :: '\x22' :: rest) =>
      match unquoteFrom [] rest with
      | some (value, []) => some (.label (String.ofList name) (String.ofList value))
      | _ => none
    | _ => none
  | _ => none

end Dockerfile

/-- Reads a statement. -/
def Statement.decode? (statement : Statement) : Option Directive :=
  match statement.keyword with
  | "FROM" => Dockerfile.start? statement.operand
  | "RUN" => (shellTokens statement.operand).map .run
  | "WORKDIR" => some (.workdir statement.operand)
  | "COPY" => Dockerfile.copy? statement.operand
  | "ENV" => (Dockerfile.assignment? statement.operand).map fun (name, value) => .env name value
  | "USER" => some (.user statement.operand)
  | "LABEL" => Dockerfile.label? statement.operand
  | "ENTRYPOINT" => (Dockerfile.texts? statement.operand).map .entrypoint
  | _ => none

-- ════════════════════════════════════════════════════════════════════════
-- What is to be read
-- ════════════════════════════════════════════════════════════════════════

/-- The command that installs packages. -/
def installTokens : PackageManager → List String → List ShellToken
  | .apk, packages => [.word "apk", .word "add", .word "--no-cache"] ++ packages.map .word
  | .apt, packages =>
    [.word "apt-get", .word "update", .andThen, .word "apt-get", .word "install", .word "-y",
      .word "--no-install-recommends"] ++ packages.map .word ++
    [.andThen, .word "rm", .word "-rf", .pattern "/var/lib/apt/lists/*"]

/-- The command that creates a user. -/
def addUserTokens : PackageManager → Identity → List ShellToken
  | .apk, identity =>
    [.word "adduser", .word "-D", .word "-s", .word identity.shell, .word identity.name]
  | .apt, identity =>
    [.word "useradd", .word "--create-home", .word "--shell", .word identity.shell,
      .word identity.name]

/-- What an instruction says; empty lines and comments say nothing. -/
def Instruction.directive? : Instruction → Option Directive
  | blank | comment _ => none
  | start reference stageName => some (.start reference stageName)
  | install manager packages => some (.run (installTokens manager packages))
  | workdir path => some (.workdir path)
  | copySource path => some (.copy path path)
  | env name value => some (.env name value)
  | run argv => some (.run (argv.map .word))
  | addUser manager identity => some (.run (addUserTokens manager identity))
  | user name => some (.user name)
  | label name value => some (.label name value)
  | copyArtifact artifact target => some (.copyFrom artifact.stage artifact.path target)
  | entrypoint argv => some (.entrypoint argv)

@[simp]
theorem Instruction.directive?_blank : blank.directive? = none := rfl

@[simp]
theorem Instruction.directive?_comment (text : String) : (comment text).directive? = none := rfl

/-- The command that installs packages, if there are any. -/
def BaseImage.installDirectives (base : BaseImage) (packages : List String) : List Directive :=
  if packages.isEmpty then [] else [.run (installTokens base.manager packages)]

/-- What the build stage has to say. -/
def BuildStage.directives (stage : BuildStage) : List Directive :=
  [.start stage.base.reference stage.name] ++
    stage.base.installDirectives stage.toolchain.packages ++
    [.workdir stage.sources.workdir] ++
    stage.sources.paths.map
      (fun path => .copy (withoutFinalSlashes path) (withoutFinalSlashes path)) ++
    stage.env.assignments.map (fun (name, value) => .env name value) ++
    [.run (stage.command.map .word)]

/-- What the final stage has to say. -/
def Spec.finalDirectives (spec : Spec) : List Directive :=
  [.start spec.final.base.reference spec.final.name] ++
    spec.final.base.installDirectives spec.final.runtime.packages ++
    [.run (addUserTokens spec.final.base.manager spec.final.identity),
      .user spec.final.identity.name] ++
    (sortedLabels spec.labels).map (fun (name, value) => .label name value) ++
    [.copyFrom spec.build.name spec.build.artifactPath spec.final.entrypoint.path,
      .entrypoint [spec.final.entrypoint.path]]

/-- What the file with both stages has to say. -/
def Spec.directives (spec : Spec) : List Directive :=
  spec.build.directives ++ spec.finalDirectives

/-- The names of the stages and of the images that they start from hold no blank. -/
structure Spec.UnspacedHeads (spec : Spec) : Prop where
  buildName : Unspaced spec.build.name
  buildBase : Unspaced spec.build.base.reference
  finalName : Unspaced spec.final.name
  finalBase : Unspaced spec.final.base.reference

namespace Instruction

/-- When the line of an instruction is read back: where its texts stand as they are, they must not
hold what ends them. -/
def Readable : Instruction → Prop
  | start reference stageName => ' ' ∉ reference.toList ∧ ' ' ∉ stageName.toList
  | install _ packages => ∀ name ∈ packages, Shell.BareWord name
  | env name _ => '=' ∉ name.toList
  | addUser _ identity => Shell.BareWord identity.shell ∧ Shell.BareWord identity.name
  | copyArtifact artifact target =>
    ' ' ∉ artifact.stage.toList ∧ ' ' ∉ artifact.path.toList ∧ ' ' ∉ target.toList
  | _ => True

end Instruction

namespace Dockerfile

-- ════════════════════════════════════════════════════════════════════════
-- Operands
-- ════════════════════════════════════════════════════════════════════════

theorem pieces_three {first second third : String} (h1 : ' ' ∉ first.toList)
    (h2 : ' ' ∉ second.toList) (h3 : ' ' ∉ third.toList) :
    pieces (first ++ " " ++ second ++ " " ++ third) = [first, second, third] := by
  have hcs : (first ++ " " ++ second ++ " " ++ third).toList =
      first.toList ++ ' ' :: (second.toList ++ ' ' :: third.toList) := by simp
  rw [pieces, hcs, splitAtEach_append_cons h1, splitAtEach_append_cons h2,
    splitAtEach_of_not_mem h3]
  simp

theorem start?_operand {reference stageName : String} (href : ' ' ∉ reference.toList)
    (hname : ' ' ∉ stageName.toList) :
    start? (reference ++ " AS " ++ stageName) = some (.start reference stageName) := by
  have has : (" AS " : String) = " " ++ "AS" ++ " " := by decide
  have hpieces := pieces_three href (show ' ' ∉ ("AS" : String).toList by decide) hname
  rw [start?, has, ← String.append_assoc, ← String.append_assoc, hpieces]
  exact if_pos rfl

theorem texts?_execForm (argv : List String) : texts? (execForm argv) = some argv := by
  have hitems : (argv.map Json.str).mapM text? = some argv := by
    induction argv with
    | nil => rfl
    | cons word rest ih => simp [List.mapM_cons, text?, ih]
  rw [texts?, execForm, (Json.exact_ofStrings argv).read_compact]
  exact hitems

/-- An array does not say that another stage is copied from. -/
theorem afterStart?_execForm (argv : List String) :
    afterStart? "--from=".toList (execForm argv).toList = none := by
  have hnone := copied?_execForm argv
  rw [copied?, Option.map_eq_none_iff] at hnone
  exact hnone

theorem copy?_execForm (path : String) :
    copy? (execForm [path, path]) = some (.copy path path) := by
  rw [copy?, afterStart?_execForm]
  simp only [texts?_execForm]

theorem copy?_copyArtifact {stage source target : String} (hstage : ' ' ∉ stage.toList)
    (hsource : ' ' ∉ source.toList) (htarget : ' ' ∉ target.toList) :
    copy? ("--from=" ++ stage ++ " " ++ source ++ " " ++ target) =
      some (.copyFrom stage source target) := by
  have hcs : ("--from=" ++ stage ++ " " ++ source ++ " " ++ target).toList =
      "--from=".toList ++ (stage ++ " " ++ source ++ " " ++ target).toList := by simp
  rw [copy?, hcs, afterStart?_eq_some_iff.mpr rfl]
  simp only [String.ofList_toList, pieces_three hstage hsource htarget]

theorem label?_operand (name value : String) :
    label? (quote name ++ "=" ++ quote value) = some (.label name value) := by
  have hcs : (quote name ++ "=" ++ quote value).toList =
      '\x22' :: (name.toList.flatMap quoteChar ++ '\x22' :: '=' :: '\x22' ::
        (value.toList.flatMap quoteChar ++ ['\x22'])) := by
    simp [quote, quoteChars]
  rw [label?, hcs]
  simp only [unquoteFrom_flatMap, List.reverse_nil, List.nil_append, String.ofList_toList]

-- ════════════════════════════════════════════════════════════════════════
-- Commands
-- ════════════════════════════════════════════════════════════════════════

open Shell

theorem shellTokens_install (manager : PackageManager) {packages : List String}
    (h : ∀ name ∈ packages, BareWord name) :
    shellTokens (Instruction.install manager packages).operand =
      some (installTokens manager packages) := by
  have hpackages := reads_bareWords packages h
  cases manager with
  | apk =>
    have hstart : ("apk add --no-cache " : String) = "apk add --no-cache" ++ " " := by decide
    have hadd : Reads "apk add --no-cache" _ :=
      reads_bareWords ["apk", "add", "--no-cache"] (by decide)
    show shellTokens ("apk add --no-cache " ++ joinWith " " packages) = _
    rw [hstart]
    exact (hadd.space hpackages).shellTokens_eq
  | apt =>
    -- the operand has to be cut at its spaces before it can be read piece by piece
    have hstart : ("apt-get update && apt-get install -y --no-install-recommends " : String) =
        "apt-get update" ++ " " ++ "&&" ++ " " ++
          "apt-get install -y --no-install-recommends" ++ " " := by decide
    have hend : (" && rm -rf /var/lib/apt/lists/*" : String) =
        " " ++ "&&" ++ " " ++ "rm -rf" ++ " " ++ "/var/lib/apt/lists/*" := by decide
    have hupdate : Reads "apt-get update" _ := reads_bareWords ["apt-get", "update"] (by decide)
    have hinstall : Reads "apt-get install -y --no-install-recommends" _ :=
      reads_bareWords ["apt-get", "install", "-y", "--no-install-recommends"] (by decide)
    have hremove : Reads "rm -rf" _ := reads_bareWords ["rm", "-rf"] (by decide)
    have hlists : Reads "/var/lib/apt/lists/*" [.pattern "/var/lib/apt/lists/*"] :=
      BareWord.reads_star (s := "/var/lib/apt/lists/") (by decide)
    have hreads := (((((hupdate.space reads_andThen).space hinstall).space hpackages).space
      reads_andThen).space hremove).space hlists
    show shellTokens ("apt-get update && apt-get install -y --no-install-recommends " ++
      joinWith " " packages ++ " && rm -rf /var/lib/apt/lists/*") = _
    rw [hstart, hend]
    simp only [← String.append_assoc]
    rw [hreads.shellTokens_eq]
    simp [installTokens]

theorem shellTokens_addUser (manager : PackageManager) {identity : Identity}
    (hshell : BareWord identity.shell) (hname : BareWord identity.name) :
    shellTokens (Instruction.addUser manager identity).operand =
      some (addUserTokens manager identity) := by
  cases manager with
  | apk =>
    have hstart : ("adduser -D -s " : String) = "adduser -D -s" ++ " " := by decide
    have hadd : Reads "adduser -D -s" _ := reads_bareWords ["adduser", "-D", "-s"] (by decide)
    show shellTokens ("adduser -D -s " ++ identity.shell ++ " " ++ identity.name) = _
    rw [hstart]
    exact ((hadd.space hshell.reads).space hname.reads).shellTokens_eq
  | apt =>
    have hstart : ("useradd --create-home --shell " : String) =
        "useradd --create-home --shell" ++ " " := by decide
    have hadd : Reads "useradd --create-home --shell" _ :=
      reads_bareWords ["useradd", "--create-home", "--shell"] (by decide)
    show shellTokens ("useradd --create-home --shell " ++ identity.shell ++ " " ++
      identity.name) = _
    rw [hstart]
    exact ((hadd.space hshell.reads).space hname.reads).shellTokens_eq

end Dockerfile

/-- What an instruction says is what its statement is read as. -/
theorem Instruction.decode?_statement? {instruction : Instruction} (h : instruction.Readable) :
    instruction.statement?.map Statement.decode? = instruction.directive?.map some := by
  cases instruction with
  | blank => rfl
  | comment text => rfl
  | start reference stageName =>
    show some (Dockerfile.start? (reference ++ " AS " ++ stageName)) = _
    rw [Dockerfile.start?_operand h.1 h.2]
    rfl
  | install manager packages =>
    show some ((shellTokens (install manager packages).operand).map Directive.run) = _
    rw [Dockerfile.shellTokens_install manager h]
    rfl
  | workdir path => rfl
  | copySource path =>
    show some (Dockerfile.copy? (Dockerfile.execForm [path, path])) = _
    rw [Dockerfile.copy?_execForm]
    rfl
  | env name value =>
    show some ((Dockerfile.assignment? (Dockerfile.assignment name value)).map _) = _
    rw [Dockerfile.assignment?_assignment h]
    rfl
  | run argv =>
    show some ((shellTokens (Dockerfile.shellWords argv)).map Directive.run) = _
    rw [Shell.shellTokens_shellWords]
    rfl
  | addUser manager identity =>
    show some ((shellTokens (addUser manager identity).operand).map Directive.run) = _
    rw [Dockerfile.shellTokens_addUser manager h.1 h.2]
    rfl
  | user name => rfl
  | label name value =>
    show some (Dockerfile.label? (Dockerfile.quote name ++ "=" ++ Dockerfile.quote value)) = _
    rw [Dockerfile.label?_operand]
    rfl
  | copyArtifact artifact target =>
    show some (Dockerfile.copy? ("--from=" ++ artifact.stage ++ " " ++ artifact.path ++ " " ++
      target)) = _
    rw [Dockerfile.copy?_copyArtifact h.1 h.2.1 h.2.2]
    rfl
  | entrypoint argv =>
    show some ((Dockerfile.texts? (Dockerfile.execForm argv)).map Directive.entrypoint) = _
    rw [Dockerfile.texts?_execForm]
    rfl

namespace Dockerfile

/-- A file of readable lines is read back. -/
theorem decode_text {instructions : List Instruction}
    (hlines : ∀ instruction ∈ instructions, '\n' ∉ instruction.line.toList)
    (h : ∀ instruction ∈ instructions, instruction.Readable) :
    (read (text instructions)).map Statement.decode? =
      (instructions.filterMap Instruction.directive?).map some := by
  rw [read_text hlines, List.map_filterMap, List.map_filterMap]
  exact List.filterMap_congr fun instruction hmem => Instruction.decode?_statement? (h _ hmem)

theorem directives_paragraph (base : BaseImage) (packages : List String) :
    (paragraph (base.install? packages)).filterMap Instruction.directive? =
      base.installDirectives packages := by
  rw [BaseImage.install?, BaseImage.installDirectives]
  split <;> rfl

theorem directives_map {α : Type} {make : α → Instruction} {told : α → Directive}
    (h : ∀ x, (make x).directive? = some (told x)) (xs : List α) :
    (xs.map make).filterMap Instruction.directive? = xs.map told := by
  rw [List.filterMap_map, ← List.filterMap_eq_map]
  exact List.filterMap_congr fun x _ => h x

theorem directives_buildStage (stage : BuildStage) :
    stage.instructions.filterMap Instruction.directive? = stage.directives := by
  have hsources : (stage.sources.paths.map fun path =>
      Instruction.copySource (withoutFinalSlashes path)).filterMap Instruction.directive? =
        stage.sources.paths.map fun path =>
          .copy (withoutFinalSlashes path) (withoutFinalSlashes path) :=
    directives_map (fun _ => rfl) _
  have hvariables : (stage.env.assignments.map fun (name, value) =>
      Instruction.env name value).filterMap Instruction.directive? =
        stage.env.assignments.map fun (name, value) => .env name value :=
    directives_map (fun _ => rfl) _
  simp only [BuildStage.instructions, BuildStage.directives, List.filterMap_append,
    directives_paragraph, hsources, hvariables]
  simp [Instruction.directive?, BaseImage.start, List.filterMap_cons]

theorem directives_finalInstructions (spec : Spec) :
    spec.finalInstructions.filterMap Instruction.directive? = spec.finalDirectives := by
  have hlabels : ((sortedLabels spec.labels).map fun (name, value) =>
      Instruction.label name value).filterMap Instruction.directive? =
        (sortedLabels spec.labels).map fun (name, value) => .label name value :=
    directives_map (fun _ => rfl) _
  have hgap : (if spec.labels.isEmpty then [] else [Instruction.blank]).filterMap
      Instruction.directive? = [] := by split <;> rfl
  simp only [Spec.finalInstructions, FinalStage.instructions, Spec.finalDirectives,
    List.filterMap_append, directives_paragraph, hlabels, hgap]
  simp [Instruction.directive?, BaseImage.start, Spec.artifact, BuildStage.artifact,
    Entrypoint.words, List.filterMap_cons]

theorem directives_twoStage (spec : Spec) :
    (twoStage spec).filterMap Instruction.directive? = spec.directives := by
  rw [twoStage, Spec.directives, ← directives_buildStage, ← directives_finalInstructions]
  simp [header, List.filterMap_cons]

end Dockerfile

-- ════════════════════════════════════════════════════════════════════════
-- Files of a specification
-- ════════════════════════════════════════════════════════════════════════

theorem BaseImage.readable_install {base : BaseImage} {packages : List String}
    (h : ∀ name ∈ packages, isPackageName name = true)
    (hlines : ∀ name ∈ packages, '\n' ∉ name.toList) :
    ∀ instruction ∈ paragraph (base.install? packages), instruction.Readable := by
  rw [install?]
  split
  · simp [paragraph]
  · rw [paragraph, List.forall_mem_cons, List.forall_mem_singleton]
    refine ⟨fun name hname => ?_, trivial⟩
    exact Shell.bareWord_of_isPackageName (h name hname) (hlines name hname)

theorem BuildStage.readable {stage : BuildStage} (h : stage.WellFormed)
    (hlacks : stage.Lacks '\n') (hbase : Unspaced stage.base.reference)
    (hname : Unspaced stage.name) : ∀ instruction ∈ stage.instructions, instruction.Readable := by
  simp only [instructions, BaseImage.start, List.forall_mem_append, List.forall_mem_cons,
    List.not_mem_nil, false_imp_iff, implies_true, and_true, List.forall_mem_map]
  refine ⟨⟨⟨⟨⟨⟨⟨?_, trivial⟩, ?_⟩, trivial, trivial⟩, ?_⟩, trivial⟩, ?_⟩, trivial⟩
  · exact ⟨hbase.space_not_mem, hname.space_not_mem⟩
  · exact BaseImage.readable_install h.toolchain hlacks.toolchain
  · exact fun _ _ => trivial
  · exact fun binding hmem => BuildEnvironment.WellFormed.equals_not_mem h.env hmem

theorem Spec.readable_finalInstructions {spec : Spec} (h : spec.WellFormed)
    (hlacks : spec.final.Lacks '\n') (hheads : spec.UnspacedHeads) :
    ∀ instruction ∈ spec.finalInstructions, instruction.Readable := by
  have hgap : ∀ instruction ∈ (if spec.labels.isEmpty then [] else [Instruction.blank]),
      instruction.Readable := by
    split
    · simp
    · rw [List.forall_mem_singleton]
      trivial
  have htarget : ' ' ∉ spec.final.entrypoint.path.toList :=
    (PlainText.of_isPlainPath h.final.entrypoint).not_mem (by decide) (by decide)
  simp only [finalInstructions, FinalStage.instructions, BaseImage.start, List.forall_mem_append,
    List.forall_mem_cons, List.not_mem_nil, false_imp_iff, implies_true, and_true,
    List.forall_mem_map]
  refine ⟨⟨⟨⟨⟨⟨?_, trivial⟩, ?_⟩, ?_, trivial, trivial⟩, ?_⟩, hgap⟩, ?_, trivial, trivial⟩
  · exact ⟨hheads.finalBase.space_not_mem, hheads.finalName.space_not_mem⟩
  · exact BaseImage.readable_install h.final.runtime hlacks.runtime
  · exact ⟨Shell.bareWord_of_isPlainPath h.final.identity.isPlainPath hlacks.shell,
      Shell.bareWord_of_isUserName h.final.identity.name hlacks.user⟩
  · exact fun _ _ => trivial
  · exact ⟨hheads.buildName.space_not_mem, h.build.not_mem_artifactPath rfl (by decide), htarget⟩

theorem Spec.readable_twoStage {spec : Spec} (h : spec.WellFormed) (hlacks : spec.Lacks '\n')
    (hheads : spec.UnspacedHeads) :
    ∀ instruction ∈ Dockerfile.twoStage spec, instruction.Readable := by
  have hheader : ∀ instruction ∈ Dockerfile.header, instruction.Readable := by
    simp [Dockerfile.header, Instruction.Readable]
  simp only [Dockerfile.twoStage, List.forall_mem_append, List.forall_mem_cons,
    List.not_mem_nil, false_imp_iff, implies_true, and_true]
  refine ⟨⟨⟨hheader, trivial, ?_⟩, trivial⟩, trivial, ?_⟩
  · exact BuildStage.readable h.build hlacks.build hheads.buildBase hheads.buildName
  · exact readable_finalInstructions h hlacks.final hheads

-- ════════════════════════════════════════════════════════════════════════
-- Variables, labels and paths
-- ════════════════════════════════════════════════════════════════════════

/-- The extra variables take the places of those of the knobs that they name, with the last value
that each is given, and the others follow in order. No name comes twice. -/
structure BuildEnvironment.ExtraInPlace (env : BuildEnvironment) : Prop where
  nodup : (env.assignments.map Prod.fst).Nodup
  updated : env.assignments = env.builtin.updated env.extra ++
    Bindings.overlay [] (env.extra.filter fun binding => binding.1 ∉ env.builtin.map Prod.fst)
  ordered : (env.extra.map Prod.fst).Nodup →
    env.assignments = env.builtin.updated env.extra ++
      env.extra.filter fun binding => binding.1 ∉ env.builtin.map Prod.fst

theorem BuildEnvironment.extraInPlace (env : BuildEnvironment) : env.ExtraInPlace := by
  have hupdated := Bindings.overlay_append env.nodup_builtin [] env.extra
  rw [List.append_nil] at hupdated
  refine ⟨Bindings.nodup_overlay env.nodup_builtin _, hupdated, fun hextra => ?_⟩
  have hnew : ((env.extra.filter fun binding =>
      binding.1 ∉ env.builtin.map Prod.fst).map Prod.fst).Nodup :=
    hextra.sublist (List.filter_sublist.map Prod.fst)
  rw [assignments, hupdated, Bindings.overlay_eq_append hnew, List.nil_append]

/-- A path loses the slashes at its end, and nothing else. -/
theorem withoutFinalSlashes_spec (path : String) :
    (∃ count, path.toList = (withoutFinalSlashes path).toList ++ List.replicate count '/') ∧
      (withoutFinalSlashes path).toList.getLast? ≠ some '/' := by
  have hcs : (withoutFinalSlashes path).toList = path.toList.rdropWhile (· == '/') :=
    String.toList_ofList
  rw [hcs]
  constructor
  · have hslashes : ∀ c ∈ path.toList.rtakeWhile (· == '/'), c = '/' :=
      fun c hc => by simpa using List.mem_rtakeWhile_imp hc
    refine ⟨(path.toList.rtakeWhile (· == '/')).length, ?_⟩
    rw [← List.eq_replicate_of_mem hslashes, List.rdropWhile_append_rtakeWhile]
  · intro hlast
    obtain ⟨hne, hend⟩ := List.mem_getLast?_eq_getLast hlast
    have hnot := List.rdropWhile_last_not (· == '/') path.toList hne
    rw [← hend] at hnot
    exact hnot rfl

namespace Dockerfile

/-- The file with both stages is read back as what the specification says. -/
theorem decode_twoStage {spec : Spec} (hspec : spec.Accepted) (hlacks : spec.Lacks '\n')
    (hheads : spec.UnspacedHeads) :
    (read (text (twoStage spec))).map Statement.decode? = spec.directives.map some ∧
      spec.build.env.ExtraInPlace ∧
      (sortedLabels spec.labels).Perm spec.labels ∧
      (sortedLabels spec.labels).Pairwise (fun a b => a.1 ≤ b.1) ∧
      ∀ path ∈ spec.build.sources.paths,
        (∃ count, path.toList = (withoutFinalSlashes path).toList ++ List.replicate count '/') ∧
          (withoutFinalSlashes path).toList.getLast? ≠ some '/' := by
  refine ⟨?_, spec.build.env.extraInPlace, Bindings.sorted_perm _, Bindings.pairwise_sorted _,
    fun path _ => withoutFinalSlashes_spec path⟩
  rw [decode_text (hlacks.not_mem_line (Or.inl rfl))
    (Spec.readable_twoStage hspec.wellFormed hlacks hheads), directives_twoStage]

/-- A specification with labels and with extra variables, one of which goes over that of a knob. -/
def labelled : Spec :=
  { Spec.standard with
    labels := [("org.version", "2"), ("org.title", "lsp")]
    build := { BuildStage.standard with
      env := { BuildEnvironment.standard with
        extra := [("RUST_LOG", "info"), ("CARGO_NET_RETRY", "3")] } } }

/-- Reads back that specification: the labels in order, the extra value in place of that of the
knob. -/
theorem decode_twoStage_labelled :
    labelled.Accepted ∧ labelled.Lacks '\n' ∧ labelled.UnspacedHeads ∧
    (read (text (twoStage labelled))).map Statement.decode? = labelled.directives.map some ∧
    labelled.build.env.ExtraInPlace ∧
    labelled.build.env.assignments =
      [("CARGO_INCREMENTAL", "0"), ("CARGO_NET_RETRY", "3"),
       ("RUSTFLAGS", "-C link-arg=-fuse-ld=lld -C target-feature=-crt-static"),
       ("RUST_LOG", "info")] ∧
    sortedLabels labelled.labels = [("org.title", "lsp"), ("org.version", "2")] := by
  have hspec : labelled.Accepted := Spec.accepted_of_parse labelled.toJson (by decide +kernel)
  have hlacks : labelled.Lacks '\n' :=
    Spec.lacks_of_isSingleLine (Or.inl rfl) hspec (by decide +kernel)
  have hheads : labelled.UnspacedHeads := ⟨by decide, by decide, by decide, by decide⟩
  obtain ⟨hdecode, hextra, -⟩ := decode_twoStage hspec hlacks hheads
  exact ⟨hspec, hlacks, hheads, hdecode, hextra, by decide +kernel, by decide +kernel⟩

end Dockerfile

end TwoStage

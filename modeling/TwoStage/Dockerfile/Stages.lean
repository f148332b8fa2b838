import TwoStage.Dockerfile.Instruction
import TwoStage.Spec.Spec

/-!
# The instructions of the stages

## Main definitions

- `BuildStage.instructions` — the stage that compiles
- `FinalStage.instructions` — the stage that holds the finished program
-/

namespace TwoStage

/-- The instruction that starts a stage from its base image. -/
def BaseImage.start (base : BaseImage) (stageName : String) : Instruction :=
  .start base.reference stageName

/-- The instruction that installs packages, if there are any. -/
def BaseImage.install? (base : BaseImage) (packages : List String) : Option Instruction :=
  if packages.isEmpty then none else some (.install base.manager packages)

/-- The instructions with an empty line behind them, if there is one at all. -/
def paragraph (instruction : Option Instruction) : List Instruction :=
  match instruction with
  | some instruction => [instruction, .blank]
  | none => []

/-- A path without the slashes at its end. -/
def withoutFinalSlashes (path : String) : String :=
  String.ofList (path.toList.reverse.dropWhile (· == '/')).reverse

/-- The instructions of the build stage: toolchain, sources, environment and command. -/
def BuildStage.instructions (stage : BuildStage) : List Instruction :=
  [stage.base.start stage.name, .blank] ++
    paragraph (stage.base.install? stage.toolchain.packages) ++
    [.workdir stage.sources.workdir, .blank] ++
    stage.sources.paths.map (fun path => .copySource (withoutFinalSlashes path)) ++
    [.blank] ++
    stage.env.assignments.map (fun (name, value) => .env name value) ++
    [.run stage.command]

/-- The labels in order of their names. -/
def sortedLabels (labels : Bindings String) : Bindings String :=
  labels.sorted

/-- The instructions of the final stage: libraries, user, labels, executable and entrypoint. -/
def FinalStage.instructions (stage : FinalStage) (artifact : Artifact)
    (labels : Bindings String) : List Instruction :=
  [stage.base.start stage.name, .blank] ++
    paragraph (stage.base.install? stage.runtime.packages) ++
    [.addUser stage.base.manager stage.identity, .user stage.identity.name, .blank] ++
    (sortedLabels labels).map (fun (name, value) => .label name value) ++
    (if labels.isEmpty then [] else [.blank]) ++
    [.copyArtifact artifact stage.entrypoint.path, .blank, .entrypoint stage.entrypoint.words]

end TwoStage

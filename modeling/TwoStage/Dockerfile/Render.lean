import TwoStage.Config
import TwoStage.Dockerfile.Stages

/-!
# Rendering Dockerfiles

The file with both stages, and the file with the final stage alone, which takes the executable out
of an image of the build stage that exists already.

## Main definitions

- `Dockerfile.twoStage` — both stages
- `Dockerfile.finalOnly` — the final stage on top of a finished build stage
- `Dockerfile.render` — the text of the file with both stages
-/

namespace TwoStage

/-- The executable that the final stage of a pipeline copies. -/
def Spec.artifact (spec : Spec) : Artifact := spec.build.artifact

/-- The instructions of the final stage of a pipeline. -/
def Spec.finalInstructions (spec : Spec) : List Instruction :=
  spec.final.instructions spec.artifact spec.labels

namespace Dockerfile

/-- The comment on top of each file. -/
def header : List Instruction :=
  [.comment "Runs the LSP server as an independent network service in its own container.",
   .comment "Stage 1 compiles the server with the full toolchain; stage 2 holds only the",
   .comment "binary, its runtime libraries and an unprivileged user.",
   .comment "Generated by lsp-image-builder; edit pipeline.json instead.",
   .blank]

/-- The file with both stages. -/
def twoStage (spec : Spec) : List Instruction :=
  header ++
    .comment ("Stage 1: " ++ spec.build.name) :: spec.build.instructions ++ [.blank] ++
    .comment ("Stage 2: " ++ spec.final.name) :: spec.finalInstructions

/-- The file with the final stage on top of the image `builder` of the finished build stage. -/
def finalOnly (spec : Spec) (builder : String) : List Instruction :=
  header ++
    [.comment ("Stage 1: " ++ spec.build.name ++ " (prebuilt)"),
     .start builder spec.build.name, .blank,
     .comment ("Stage 2: " ++ spec.final.name)] ++
    spec.finalInstructions

/-- The text of a file, each line with its end. -/
def text (instructions : List Instruction) : String :=
  joinWith "" (instructions.map fun instruction => instruction.line ++ "\n")

/-- The text of the file with both stages, if its environment variables can be written. -/
def render (spec : Spec) : Except ConfigError String :=
  if spec.build.env.isWritable then .ok (text (twoStage spec)) else .error .longInteger

theorem render_eq_ok_iff {spec : Spec} {file : String} :
    render spec = .ok file ↔ spec.build.env.isWritable = true ∧ file = text (twoStage spec) := by
  rw [render]
  split
  · next hwritable => exact ⟨fun h => ⟨hwritable, (Except.ok.inj h).symm⟩, fun h => by rw [h.2]⟩
  · next hlong => exact ⟨nofun, fun h => absurd h.1 hlong⟩

/-- The name of the file with both stages. -/
def fileName : String := "Dockerfile"

/-- The name of the file with the final stage alone. -/
def finalFileName : String := "Dockerfile.final"

end Dockerfile

end TwoStage

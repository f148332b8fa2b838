import TwoStage.Spec.BuildStage
import TwoStage.Spec.FinalStage

/-!
# Pipeline specifications

All that a pipeline is told: the name of the image to build, its labels and its two stages.

## Main definitions

- `Spec` — a specification
- `Spec.standard` — the stock one
- `Spec.ofJson`, `Spec.toJson` — from and to JSON; all that is left out is as in the stock one
-/

namespace TwoStage

/-- All that a pipeline is told. -/
structure Spec where
  image : String
  labels : Bindings String
  build : BuildStage
  final : FinalStage
  deriving Repr, DecidableEq

namespace Spec

/-- The stock specification. -/
def standard : Spec := ⟨"refact-lsp:local", [], .standard, .standard⟩

/-- Reads a specification. -/
def ofJson (value : Json) : Verdict Spec :=
  Verdict.subjectTo
    (Read.record "PipelineSpec"
      (fun members =>
        mk <$> Read.optional "image" standard.image Read.text members
          <*> Read.optional "labels" standard.labels Read.textTable members
          <*> Read.optional "build" standard.build BuildStage.ofJson members
          <*> Read.optional "final" standard.final FinalStage.ofJson members)
      value)
    fun spec => if spec.build.name = spec.final.name then some .sameStageNames else none

/-- A specification in JSON. -/
def toJson (spec : Spec) : Json :=
  .obj [("image", .str spec.image), ("labels", .ofBindings spec.labels),
    ("build", spec.build.toJson), ("final", spec.final.toJson)]

end Spec

end TwoStage

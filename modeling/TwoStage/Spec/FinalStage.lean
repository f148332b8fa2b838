import TwoStage.Spec.BaseImage
import TwoStage.Spec.Entrypoint
import TwoStage.Spec.Identity
import TwoStage.Spec.PackageSet

/-!
# Final stage

The second stage: it holds only the executable, the libraries that it needs and an unprivileged
user.
-/

namespace TwoStage

/-- The second stage. -/
structure FinalStage where
  name : String
  base : BaseImage
  runtime : PackageSet
  identity : Identity
  entrypoint : Entrypoint
  deriving Repr, DecidableEq

namespace FinalStage

/-- The stock final stage. -/
def standard : FinalStage where
  name := "final"
  base := ⟨"alpine", "3.19.1", none, none⟩
  runtime := .runtime
  identity := .standard
  entrypoint := .standard

/-- Reads a final stage. -/
def ofJson (value : Json) : Verdict FinalStage :=
  Read.record "FinalStageSpec"
    (fun members =>
      mk <$> Read.optional "name" standard.name Read.text members
        <*> Read.optional "base" standard.base BaseImage.ofJson members
        <*> Read.optional "runtime" standard.runtime
          (PackageSet.ofJson "RuntimeDependencySet" .runtime) members
        <*> Read.optional "identity" standard.identity Identity.ofJson members
        <*> Read.optional "entrypoint" standard.entrypoint Entrypoint.ofJson members)
    value

/-- A final stage in JSON. -/
def toJson (stage : FinalStage) : Json :=
  .obj [("name", .str stage.name), ("base", stage.base.toJson),
    ("runtime", stage.runtime.toJson), ("identity", stage.identity.toJson),
    ("entrypoint", stage.entrypoint.toJson)]

end FinalStage

end TwoStage

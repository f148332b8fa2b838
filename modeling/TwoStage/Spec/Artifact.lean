import TwoStage.Path
import TwoStage.Spec.Read

/-!
# Artifact

The one thing that the final stage knows about the build stage: an executable in it.
-/

namespace TwoStage

/-- An executable at a path inside a stage. -/
structure Artifact where
  stage : String
  path : String
  deriving Repr, DecidableEq

namespace Artifact

/-- The name of the executable. -/
def name (artifact : Artifact) : String := (Path.ofText artifact.path).name

/-- Reads an artifact. -/
def ofJson (value : Json) : Verdict Artifact :=
  Read.record "ArtifactRef"
    (fun members =>
      mk <$> Read.required "stage" Read.text members <*> Read.required "path" Read.text members)
    value

/-- An artifact in JSON. -/
def toJson (artifact : Artifact) : Json :=
  .obj [("stage", .str artifact.stage), ("path", .str artifact.path)]

end Artifact

end TwoStage

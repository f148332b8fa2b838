import TwoStage.Act
import TwoStage.Spec.Spec

/-!
# The lock file

What went into an image, so that a later build can be compared with it.

## Main definitions

- `PipelineResult` — what a successful pipeline made
- `Lock.toJson` — the record of it
- `Lock.write` — writes the record below a directory
-/

namespace TwoStage

/-- What a successful pipeline made. -/
structure PipelineResult where
  image : String
  imageId : String
  artifact : Artifact
  sourceDigest : String
  history : List State
  builderId : String
  lockPath : Option Path
  deriving Repr, DecidableEq

namespace Lock

/-- The name of the lock file. -/
def fileName : String := "image.lock.json"

/-- The record of what went into an image; `time` is when it was made. -/
def toJson (spec : Spec) (result : PipelineResult) (time : String) : Json :=
  .obj
    [("image", .str result.image),
     ("image_id", .str result.imageId),
     ("built_at", .str time),
     ("source_sha256", .str result.sourceDigest),
     ("bases", .ofBindings
       (Bindings.overlay []
         [(spec.build.name, spec.build.base.reference),
          (spec.final.name, spec.final.base.reference)])),
     ("build_env", .ofBindings spec.build.env.assignments),
     ("artifact", result.artifact.toJson),
     ("builder_image_id", .str result.builderId),
     ("entrypoint", .ofStrings spec.final.entrypoint.words),
     ("user", .str spec.final.identity.name),
     ("states", .ofStrings (result.history.map State.name))]

/-- Writes the record below a directory, which is made if need be: the path of the record. -/
def write (spec : Spec) (outdir : Path) (result : PipelineResult) : Act Path := do
  Act.makeDirectories outdir
  let path := outdir.child fileName
  let host ← Act.host
  Act.writeText path (toJson spec result host.clock).indented
  return path

end Lock

end TwoStage

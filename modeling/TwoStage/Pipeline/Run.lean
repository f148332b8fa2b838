import TwoStage.Engine.Client
import TwoStage.Pipeline.Lock
import TwoStage.Pipeline.Reference
import TwoStage.Staging

/-!
# Running a pipeline

The two stages are built one after the other in the same staged context. The final stage starts only
when an executable is confirmed in the image of the build stage, and it copies the executable out of
that image. The image of the build stage is removed afterwards unless it is to be kept.

## Main definitions

- `Pipeline` — what a pipeline is told
- `Progress` — how far it is
- `Pipeline.run` — runs it once
- `Pipeline.build` — runs a fresh one
-/

namespace TwoStage

/-- What a pipeline is told. -/
structure Pipeline where
  spec : Spec
  sourceRoot : Path
  client : Client
  outdir : Option Path
  noCache : Bool
  keepBuilder : Bool
  deriving Repr, DecidableEq

/-- How far a pipeline is. -/
structure Progress where
  state : State
  /-- All states so far, the present one last. -/
  history : List State
  /-- Whether the image of the build stage exists. -/
  builderTagged : Bool
  deriving Repr, DecidableEq

/-- The progress of a pipeline that has not started. -/
def Progress.initial : Progress := ⟨.start, [.start], false⟩

/-- An operation that moves a pipeline forward; what it reached before an error stays. -/
abbrev Stride (α : Type) := Progress → Act (Except Error α × Progress)

namespace Stride

variable {α β : Type}

/-- The stride that does nothing and gives a value. -/
def pure (value : α) : Stride α := fun progress => Pure.pure (.ok value, progress)

/-- One stride after another, unless the first one ends with an error. -/
def bind (x : Stride α) (f : α → Stride β) : Stride β := fun progress => do
  match ← x progress with
  | (.ok value, progress) => f value progress
  | (.error e, progress) => Pure.pure (.error e, progress)

instance : Monad Stride where
  pure := pure
  bind := bind

/-- The stride that ends with an error. -/
def fail (e : Error) : Stride α := fun progress => Pure.pure (.error e, progress)

/-- An operation as a stride that does not move the pipeline. -/
def ofAct (x : Act α) : Stride α := fun progress => do
  let result ← Act.outcome x
  Pure.pure (result, progress)

/-- Notes that the image of the build stage exists. -/
def noteBuilder : Stride Unit := fun progress =>
  Pure.pure (.ok (), { progress with builderTagged := true })

/-- Moves to another state, if it can come next. -/
def advance (new : State) : Stride Unit := fun progress =>
  if new ∈ progress.state.successors then do
    Act.report (.plain .info "core"
      ("pipeline " ++ progress.state.name ++ " -> " ++ new.name))
    Pure.pure (.ok (), { progress with state := new, history := progress.history ++ [new] })
  else Pure.pure (.error (.illegalTransition progress.state new), progress)

/-- A stride that moves to a state of failure when it ends with an error raised on purpose. -/
def orElse (failure : State) (body : Stride α) : Stride α := fun progress => do
  match ← body progress with
  | (.error e, progress) =>
    if e.isDeliberate then
      match ← advance failure progress with
      | (.ok (), progress) => Pure.pure (.error e, progress)
      | (.error other, progress) => Pure.pure (.error other, progress)
    else Pure.pure (.error e, progress)
  | done => Pure.pure done

end Stride

namespace Pipeline

/-- The name that the image of the build stage gets. -/
def builderTag (pipeline : Pipeline) (context : StagedContext) : String :=
  pipeline.spec.builderTag context.sourceDigest

/-- Makes sure that the image of the build stage holds an executable. -/
def confirmArtifact (pipeline : Pipeline) (builder : String) : Act Unit := do
  let artifact := pipeline.spec.artifact
  let outcome ← pipeline.client.run
    { image := builder, args := ["-x", artifact.path], entrypoint := some "test"
      publish := [], env := [], capture := true }
  if outcome.code ≠ 0 then
    Act.fail (.stage ⟨.noExecutable artifact.path, artifact.stage, outcome.output⟩)

/-- The identifier of the image that a build made; without one the stage failed. -/
def requireImage (stage : String) (outcome : BuildOutcome) : Act String :=
  match outcome.made? with
  | some id => pure id
  | none => Act.fail (.stage (Failure.classify stage outcome.log))

/-- Builds the build stage and confirms its executable: the identifier of its image. -/
def buildStage (pipeline : Pipeline) (context : StagedContext) (builder : String) :
    Stride String := do
  Stride.advance .buildInProgress
  let id ← Stride.orElse .buildFailed do
    let outcome ← Stride.ofAct <| pipeline.client.build context.root
      { target := pipeline.spec.build.name, tag := builder, dockerfile := Dockerfile.fileName
        noCache := pipeline.noCache, arguments := [] }
    let id ← Stride.ofAct (requireImage pipeline.spec.build.name outcome)
    Stride.noteBuilder
    Stride.ofAct (pipeline.confirmArtifact builder)
    return id
  Stride.advance .artifactReady
  return id

/-- Builds the final stage on top of the image of the build stage: the identifier of its image. -/
def finalStage (pipeline : Pipeline) (context : StagedContext) (builder : String) :
    Stride String := do
  Stride.advance .finalInProgress
  let id ← Stride.orElse .finalFailed do
    Stride.ofAct <| Act.writeText (context.root.child Dockerfile.finalFileName)
      (Dockerfile.text (Dockerfile.finalOnly pipeline.spec builder))
    let outcome ← Stride.ofAct <| pipeline.client.build context.root
      { target := pipeline.spec.final.name, tag := pipeline.spec.image
        dockerfile := Dockerfile.finalFileName, noCache := pipeline.noCache, arguments := [] }
    Stride.ofAct (requireImage pipeline.spec.final.name outcome)
  Stride.advance .imageReady
  return id

/-- Both stages: the identifiers of their images. -/
def bothStages (pipeline : Pipeline) (context : StagedContext) (builder : String) :
    Stride (String × String) := do
  let builderId ← pipeline.buildStage context builder
  let imageId ← pipeline.finalStage context builder
  return (builderId, imageId)

/-- Removes the image of the build stage, if there is one that is not to be kept. -/
def cleanUp (pipeline : Pipeline) (builder : String) (progress : Progress) : Act Unit :=
  if progress.builderTagged && !pipeline.keepBuilder then pipeline.client.remove builder
  else pure ()

/-- The stages in a staged context, with the image of the build stage removed afterwards. -/
def inContext (pipeline : Pipeline) (context : StagedContext) :
    Stride (String × String × StagedContext) := fun progress => do
  let builder := pipeline.builderTag context
  let (ids, progress) ← pipeline.bothStages context builder progress
  match ← Act.outcome (pipeline.cleanUp builder progress) with
  | .ok () => pure (ids.map fun (builderId, imageId) => (builderId, imageId, context), progress)
  | .error e => pure (.error e, progress)

/-- A stride inside the staged context of the sources. -/
def staged (pipeline : Pipeline) : Stride (String × String × StagedContext) := fun progress => do
  match ← Act.outcome (pipeline.spec.inContext pipeline.sourceRoot fun context =>
      pipeline.inContext context progress) with
  | .ok reached => pure reached
  | .error e => pure (.error e, progress)

/-- Runs a pipeline that has not run before. -/
def run (pipeline : Pipeline) : Stride PipelineResult := fun progress =>
  if progress.state ≠ .start then pure (.error .ranBefore, progress)
  else do
    match ← pipeline.staged progress with
    | (.error e, progress) => pure (.error e, progress)
    | (.ok (builderId, imageId, context), progress) =>
      let result : PipelineResult :=
        { image := pipeline.spec.image, imageId, artifact := pipeline.spec.artifact
          sourceDigest := context.sourceDigest, history := progress.history, builderId
          lockPath := none }
      match pipeline.outdir with
      | none => pure (.ok result, progress)
      | some outdir =>
        match ← Act.outcome (Lock.write pipeline.spec outdir result) with
        | .ok path => pure (.ok { result with lockPath := some path }, progress)
        | .error e => pure (.error e, progress)

/-- Runs a fresh pipeline; a failure on purpose is reported with the state that it happened in. -/
def build (pipeline : Pipeline) : Act PipelineResult := do
  match ← pipeline.run .initial with
  | (.ok result, _) => return result
  | (.error e, progress) =>
    if e.isDeliberate then
      Act.report (.plain .error "core" ("pipeline failed in state " ++ progress.state.name))
    Act.fail e

end Pipeline

end TwoStage

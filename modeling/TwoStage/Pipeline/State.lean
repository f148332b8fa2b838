/-!
# States of a pipeline

A pipeline goes through its states in one direction: the build stage, then the final stage, each of
which can fail.

## Main definitions

- `State` — the states
- `State.successors` — the states that can come next
-/

namespace TwoStage

/-- The states of a pipeline. -/
inductive State where
  | start
  | buildInProgress
  | buildFailed
  | artifactReady
  | finalInProgress
  | finalFailed
  | imageReady
  deriving Repr, DecidableEq

namespace State

/-- All states. -/
def all : List State :=
  [start, buildInProgress, buildFailed, artifactReady, finalInProgress, finalFailed, imageReady]

/-- The name of a state. -/
def name : State → String
  | start => "START"
  | buildInProgress => "BUILD_IN_PROGRESS"
  | buildFailed => "BUILD_FAILED"
  | artifactReady => "ARTIFACT_READY"
  | finalInProgress => "FINAL_IN_PROGRESS"
  | finalFailed => "FINAL_FAILED"
  | imageReady => "IMAGE_READY"

/-- The state of a name. -/
def ofName? (s : String) : Option State := all.find? fun state => state.name = s

/-- The states that can come next. -/
def successors : State → List State
  | start => [buildInProgress]
  | buildInProgress => [buildFailed, artifactReady]
  | artifactReady => [finalInProgress]
  | finalInProgress => [finalFailed, imageReady]
  | buildFailed => []
  | finalFailed => []
  | imageReady => []

end State

end TwoStage

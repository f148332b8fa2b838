import TwoStage.Dockerfile.Quoting
import TwoStage.Spec.Artifact
import TwoStage.Spec.BaseImage
import TwoStage.Spec.Identity

/-!
# Instructions

The instructions that the stages are made of, and the line of each.

## Main definitions

- `Instruction` — an instruction, or an empty line between two
- `Instruction.line` — its text
-/

namespace TwoStage

/-- An instruction of a stage, or an empty line. -/
inductive Instruction where
  | blank
  | comment (text : String)
  /-- Starts a stage of that name from an image. -/
  | start (reference stageName : String)
  | install (manager : PackageManager) (packages : List String)
  | workdir (path : String)
  /-- Copies a path of the context to the same path in the stage. -/
  | copySource (path : String)
  | env (name value : String)
  | run (argv : List String)
  | addUser (manager : PackageManager) (identity : Identity)
  | user (name : String)
  | label (name value : String)
  | copyArtifact (artifact : Artifact) (target : String)
  | entrypoint (argv : List String)
  deriving Repr, DecidableEq

namespace Instruction

/-- The line that installs packages. -/
def installLine (manager : PackageManager) (packages : List String) : String :=
  let names := joinWith " " packages
  match manager with
  | .apk => "RUN apk add --no-cache " ++ names
  | .apt =>
    "RUN apt-get update && apt-get install -y --no-install-recommends " ++ names ++
      " && rm -rf /var/lib/apt/lists/*"

/-- The line that creates a user. -/
def addUserLine (manager : PackageManager) (identity : Identity) : String :=
  match manager with
  | .apk => "RUN adduser -D -s " ++ identity.shell ++ " " ++ identity.name
  | .apt => "RUN useradd --create-home --shell " ++ identity.shell ++ " " ++ identity.name

/-- The text of an instruction. -/
def line : Instruction → String
  | blank => ""
  | comment text => "# " ++ text
  | start reference stageName => "FROM " ++ reference ++ " AS " ++ stageName
  | install manager packages => installLine manager packages
  | workdir path => "WORKDIR " ++ path
  | copySource path => "COPY " ++ Dockerfile.execForm [path, path]
  | env name value => "ENV " ++ Dockerfile.assignment name value
  | run argv => "RUN " ++ Dockerfile.shellWords argv
  | addUser manager identity => addUserLine manager identity
  | user name => "USER " ++ name
  | label name value => "LABEL " ++ Dockerfile.quote name ++ "=" ++ Dockerfile.quote value
  | copyArtifact artifact target =>
    "COPY --from=" ++ artifact.stage ++ " " ++ artifact.path ++ " " ++ target
  | entrypoint argv => "ENTRYPOINT " ++ Dockerfile.execForm argv

section Line

variable (text reference stageName path name value : String) (manager : PackageManager)
  (words : List String) (identity : Identity) (artifact : Artifact)

theorem line_blank : blank.line = "" := rfl

theorem line_comment : (comment text).line = "# " ++ text := rfl

theorem line_start : (start reference stageName).line =
    "FROM " ++ reference ++ " AS " ++ stageName := rfl

theorem line_install : (install manager words).line = installLine manager words := rfl

theorem line_workdir : (workdir path).line = "WORKDIR " ++ path := rfl

theorem line_copySource : (copySource path).line =
    "COPY " ++ Dockerfile.execForm [path, path] := rfl

theorem line_env : (env name value).line = "ENV " ++ Dockerfile.assignment name value := rfl

theorem line_run : (run words).line = "RUN " ++ Dockerfile.shellWords words := rfl

theorem line_addUser : (addUser manager identity).line = addUserLine manager identity := rfl

theorem line_user : (user name).line = "USER " ++ name := rfl

theorem line_label : (label name value).line =
    "LABEL " ++ Dockerfile.quote name ++ "=" ++ Dockerfile.quote value := rfl

theorem line_copyArtifact : (copyArtifact artifact path).line =
    "COPY --from=" ++ artifact.stage ++ " " ++ artifact.path ++ " " ++ path := rfl

theorem line_entrypoint : (entrypoint words).line =
    "ENTRYPOINT " ++ Dockerfile.execForm words := rfl

end Line

end Instruction

end TwoStage

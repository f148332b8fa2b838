import TwoStage.Spec.Artifact
import TwoStage.Spec.BaseImage
import TwoStage.Spec.BuildEnvironment
import TwoStage.Spec.PackageSet
import TwoStage.Spec.SourceInput

/-!
# Build stage

The first stage: it compiles the sources with the full toolchain and leaves one executable.

## Main definitions

- `BuildStage` — what the stage starts from, gets and runs
- `BuildStage.artifact` — the executable that it leaves
-/

namespace TwoStage

/-- The first stage. -/
structure BuildStage where
  name : String
  base : BaseImage
  toolchain : PackageSet
  sources : SourceInput
  env : BuildEnvironment
  command : List String
  installRoot : String
  binary : String
  deriving Repr, DecidableEq

namespace BuildStage

/-- The stock build stage. -/
def standard : BuildStage where
  name := "builder"
  base := ⟨"rust", "1.76-alpine", none, none⟩
  toolchain := .toolchain
  sources := .standard
  env := .standard
  command := ["cargo", "install", "--path", "."]
  installRoot := "/usr/local/cargo"
  binary := "refact-lsp"

/-- Where the stage leaves its executable. -/
def artifactPath (stage : BuildStage) : String :=
  ((((Path.ofText stage.installRoot).join (.ofText "bin")).join (.ofText stage.binary))).text

/-- The executable that the stage leaves. -/
def artifact (stage : BuildStage) : Artifact := ⟨stage.name, stage.artifactPath⟩

/-- Reads the directory that the command installs into. -/
def installRootOfJson (value : Json) : Verdict String :=
  (Read.text value).subjectTo fun path =>
    if isPlainPath path then none else some (.installRoot path)

/-- Reads the name of the executable. -/
def binaryOfJson (value : Json) : Verdict String :=
  (Read.text value).subjectTo fun name =>
    if isBinaryName name then none else some (.binaryName name)

/-- Reads a build stage. -/
def ofJson (value : Json) : Verdict BuildStage :=
  Read.record "BuildStageSpec"
    (fun members =>
      mk <$> Read.optional "name" standard.name Read.text members
        <*> Read.optional "base" standard.base BaseImage.ofJson members
        <*> Read.optional "toolchain" standard.toolchain
          (PackageSet.ofJson "ToolchainDependencySet" .toolchain) members
        <*> Read.optional "sources" standard.sources SourceInput.ofJson members
        <*> Read.optional "env" standard.env BuildEnvironment.ofJson members
        <*> Read.optional "command" standard.command (Read.list Read.text) members
        <*> Read.optional "install_root" standard.installRoot installRootOfJson members
        <*> Read.optional "binary" standard.binary binaryOfJson members)
    value

/-- A build stage in JSON. -/
def toJson (stage : BuildStage) : Json :=
  .obj [("name", .str stage.name), ("base", stage.base.toJson),
    ("toolchain", stage.toolchain.toJson), ("sources", stage.sources.toJson),
    ("env", stage.env.toJson), ("command", .ofStrings stage.command),
    ("install_root", .str stage.installRoot), ("binary", .str stage.binary)]

end BuildStage

end TwoStage

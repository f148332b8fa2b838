import TwoStage.Path
import TwoStage.Spec.Read

/-!
# Source input

Which parts of the source tree the build stage gets, and where it works.

## Main definitions

- `SourceInput` — the paths below the source root, and the working directory
- `SourceInput.staysInside` — the paths that cannot lead out of the source root
-/

namespace TwoStage

/-- The paths that the build stage gets, and its working directory. -/
structure SourceInput where
  paths : List String
  workdir : String
  deriving Repr, DecidableEq

namespace SourceInput

/-- The stock source input. -/
def standard : SourceInput := ⟨["src", "build.rs", "Cargo.toml"], "/usr/src/refact-lsp"⟩

/-- Whether a path is relative, names something below the root, and never goes up. -/
def staysInside (path : String) : Bool :=
  let p := Path.ofText path
  !p.isAbsolute && !p.parts.contains ".." && !p.parts.isEmpty

/-- Reads the paths. -/
def pathsOfJson (value : Json) : Verdict (List String) :=
  (Read.list Read.text value).subjectTo fun paths =>
    if paths.isEmpty then some .noSourcePath
    else (paths.find? fun path => !staysInside path).map Objection.sourcePath

/-- Reads the working directory. -/
def workdirOfJson (value : Json) : Verdict String :=
  (Read.text value).subjectTo fun workdir =>
    if workdir.toList.head? = some '/' then none else some .relativeWorkdir

/-- Reads a source input. -/
def ofJson (value : Json) : Verdict SourceInput :=
  Read.record "SourceInput"
    (fun members =>
      mk <$> Read.optional "paths" standard.paths pathsOfJson members
        <*> Read.optional "workdir" standard.workdir workdirOfJson members)
    value

/-- A source input in JSON. -/
def toJson (sources : SourceInput) : Json :=
  .obj [("paths", .ofStrings sources.paths), ("workdir", .str sources.workdir)]

end SourceInput

end TwoStage

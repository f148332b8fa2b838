import TwoStage.Act
import TwoStage.Digest.Tree
import TwoStage.Dockerfile.Render

/-!
# Staging the build context

Only the declared sources are copied into a directory of their own, together with the Dockerfile, so
that nothing else of the source tree gets into the build. The directory is removed afterwards in any
case.

## Main definitions

- `SourceInput.locate` — the declared sources under a root, all of which must exist
- `StagedContext` — the directory, and the digest of the sources in it
- `Spec.inContext` — an operation inside a staged context
-/

namespace TwoStage

/-- The path of a declared source under the root. -/
def SourceInput.pathUnder (root : Location) (source : String) : Path :=
  (Path.ofLocation root).join (.ofText source)

/-- Splits declared sources into those that exist under the root and those that do not. -/
def SourceInput.sift (root : Location) : List String → Act (List String × List String)
  | [] => pure ([], [])
  | source :: rest => do
    let isThere ← Act.ask FileTree.exists? (pathUnder root source)
    let (found, missing) ← sift root rest
    return if isThere then (source :: found, missing) else (found, source :: missing)

/-- The declared sources under a root; all of them must exist. -/
def SourceInput.locate (sources : SourceInput) (root : Location) : Act (List Path) := do
  let (found, missing) ← sift root sources.paths
  if missing.isEmpty then return found.map (pathUnder root)
  else Act.fail (.sourcesMissing (Path.ofLocation root).text missing)

/-- A staged build context. -/
structure StagedContext where
  location : Location
  sourceDigest : String
  deriving Repr, DecidableEq

namespace StagedContext

/-- The path of a context. -/
def root (context : StagedContext) : Path := .ofLocation context.location

/-- The file that tells the engine what to ignore in a context. -/
def ignoreFileName : String := ".dockerignore"

/-- What the engine is to ignore. -/
def ignoreText : String := "**/target\n**/.git\n"

/-- Names that are not copied out of a source directory. -/
def skippedNames : List String := ["target", ".git"]

/-- Copies one source to its place below a location. -/
def copySource (source : Path) (target : Path) : Act Unit := do
  Act.makeDirectories target.parent
  if ← Act.ask FileTree.isDirectory? source then
    Act.changeFilesPartly fun files _ => files.copyDirectory skippedNames source target
  else Act.changeFiles fun files _ => files.copyFile source target

/-- Copies sources to the same places below a location as they have under the root. -/
def copySources (root loc : Location) : List Path → Act Unit
  | [] => pure ()
  | source :: rest => do
    copySource source (Path.ofLocation (loc ++ source.parts.drop root.length))
    copySources root loc rest

/-- Fills an empty directory with sources and the files for the engine. -/
def fill (spec : Spec) (root loc : Location) (sources : List Path) : Act StagedContext := do
  copySources root loc sources
  let files := (← Act.world).files
  let context : StagedContext := ⟨loc, files.digest loc⟩
  let text ← Act.ofExcept ((Dockerfile.render spec).mapError .config)
  Act.writeText (context.root.child Dockerfile.fileName) text
  Act.writeText (context.root.child ignoreFileName) ignoreText
  Act.report (.plain .info "package.context"
    ("staged build context " ++ context.root.text ++ " (sources sha256:" ++
      context.sourceDigest ++ ")"))
  return context

end StagedContext

/-- An operation inside the staged context of a source tree. -/
def Spec.inContext {α : Type} (spec : Spec) (sourceRoot : Path) (body : StagedContext → Act α) :
    Act α := do
  let root ← Act.ask FileTree.resolve sourceRoot
  let sources ← spec.build.sources.locate root
  Act.inScratch "lspib-context-" fun loc => do
    let context ← StagedContext.fill spec root loc sources
    body context

end TwoStage

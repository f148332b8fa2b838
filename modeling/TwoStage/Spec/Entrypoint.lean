import TwoStage.Spec.Pattern
import TwoStage.Spec.Read

/-!
# Entrypoint

The program that the finished image starts.
-/

namespace TwoStage

/-- The program that the finished image starts. -/
structure Entrypoint where
  path : String
  deriving Repr, DecidableEq

namespace Entrypoint

/-- The stock entrypoint. -/
def standard : Entrypoint := ⟨"/usr/local/bin/refact-lsp"⟩

/-- The words of the command: the program without arguments. -/
def words (entrypoint : Entrypoint) : List String := [entrypoint.path]

/-- Reads the path of the program. -/
def pathOfJson (value : Json) : Verdict String :=
  (Read.text value).subjectTo fun path =>
    if !isPlainPath path || path.toList.getLast? = some '/' then some (.entrypointPath path)
    else none

/-- Reads an entrypoint. -/
def ofJson (value : Json) : Verdict Entrypoint :=
  Read.record "Entrypoint"
    (fun members => mk <$> Read.optional "path" standard.path pathOfJson members) value

/-- An entrypoint in JSON. -/
def toJson (entrypoint : Entrypoint) : Json := .obj [("path", .str entrypoint.path)]

end Entrypoint

end TwoStage

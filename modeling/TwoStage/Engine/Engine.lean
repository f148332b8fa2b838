import TwoStage.Engine.Command
import TwoStage.FileTree.Basic

/-!
# The container engine

The engine is known by its answers alone. An answer may depend on all calls before, and nothing is
assumed about it.

## Main definitions

- `Call` — a command that the engine got, with the files it could see
- `Reply` — what comes back
- `Engine` — where its program is, and how it replies
-/

namespace TwoStage

/-- A command that the engine got: the program called, and the files at that moment. -/
structure Call where
  program : String
  command : Command
  files : FileTree

/-- What comes back from a call: the exit code, the two outputs, and the text of the file for the
identifier of the image, if the engine wrote one. -/
structure Reply where
  code : Int
  out : String
  err : String
  identifier : Option String
  deriving Repr, DecidableEq

/-- An engine. -/
structure Engine where
  /-- Where a program of that name is, if there is one. -/
  find? : String → Option String
  /-- The reply to a call after the calls before it. -/
  reply : List Call → Call → Reply

end TwoStage

import TwoStage.Path
import TwoStage.Spec.Pattern
import TwoStage.Spec.Read

/-!
# Runtime identity

The user that the finished image runs as: never the privileged one, and never with a shell that one
can log in with.

## Main definitions

- `Identity` — the name of the user and its shell
- `Identity.interactiveShells` — the shells that it must not have
-/

namespace TwoStage

/-- The user that the finished image runs as. -/
structure Identity where
  name : String
  shell : String
  deriving Repr, DecidableEq

namespace Identity

/-- The stock identity. -/
def standard : Identity := ⟨"lspuser", "/sbin/nologin"⟩

/-- The shells that give an interactive login. -/
def interactiveShells : List String :=
  ["sh", "ash", "bash", "dash", "zsh", "ksh", "mksh", "fish", "csh", "tcsh"]

/-- Reads the name of the user. -/
def nameOfJson (value : Json) : Verdict String :=
  (Read.text value).subjectTo fun name =>
    if name = "root" || !isUserName name then some (.userName name) else none

/-- The objection to a shell, if there is one. -/
def objectionToShell? (shell : String) : Option Objection :=
  if !isPlainPath shell || (Path.pieces shell).contains ".." then some (.shellPath shell)
  else if interactiveShells.contains (Path.ofText shell).name then some (.interactiveShell shell)
  else none

/-- Reads the shell. -/
def shellOfJson (value : Json) : Verdict String := (Read.text value).subjectTo objectionToShell?

/-- Reads an identity. -/
def ofJson (value : Json) : Verdict Identity :=
  Read.record "RuntimeIdentity"
    (fun members =>
      mk <$> Read.optional "name" standard.name nameOfJson members
        <*> Read.optional "shell" standard.shell shellOfJson members)
    value

/-- An identity in JSON. -/
def toJson (identity : Identity) : Json :=
  .obj [("name", .str identity.name), ("shell", .str identity.shell)]

end Identity

end TwoStage

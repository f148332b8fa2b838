import TwoStage.Engine.Client
import TwoStage.Report
import TwoStage.Spec.Spec
import TwoStage.Text.Digit

/-!
# Checking an image

Each check asks the engine about an image or runs a container of it for a moment: does it start the
program, run as the right user, hold the executable and its libraries, and nothing of the toolchain?

## Main definitions

- `Check` — the checks
- `Check.perform` — the finding of one check
- `verify` — the findings of all checks
-/

namespace TwoStage

/-- The checks of an image. -/
inductive Check where
  | entrypoint
  | user
  | uid
  | artifact
  | noToolchain
  | systemPaths
  | libraries
  deriving Repr, DecidableEq

namespace Check

/-- All checks in order. -/
def all : List Check := [entrypoint, user, uid, artifact, noToolchain, systemPaths, libraries]

/-- The name of a check. -/
def name : Check → String
  | entrypoint => "entrypoint"
  | user => "user"
  | uid => "uid"
  | artifact => "artifact"
  | noToolchain => "no-toolchain"
  | systemPaths => "system-paths"
  | libraries => "libraries"

/-- The finding of a check that was not skipped. -/
def finding (check : Check) (passed : Bool) (detail : String) : Finding :=
  ⟨check.name, passed, false, detail⟩

/-- The member of a value; of an object without it, null. -/
def member (name : String) : Json → Except ShapeFault Json
  | .obj members => .ok ((members.lookup name).getD .null)
  | _ => .error .noMembers

/-- What the engine tells of how an image is configured. -/
def imageConfig (client : Client) (image : String) : Act Json := do
  let value ← client.inspect image
  let config ← Act.ofExcept ((member "Config" value).mapError .shape)
  return if config.isTruthy then config else .obj []

/-- A member of what the engine tells of how an image is configured. -/
def configMember (name : String) (config : Json) : Act Json :=
  Act.ofExcept ((member name config).mapError .shape)

/-- Runs a program of an image. -/
def runIn (client : Client) (image program : String) (args : List String) : Act RunOutcome :=
  client.run { image, args, entrypoint := some program, publish := [], env := [], capture := true }

/-- The programs of a toolchain. -/
def toolchain : List String := ["cargo", "rustc", "cc", "gcc", "clang", "ld.lld"]

/-- The directories that the user must not be able to write to. -/
def systemDirectories : List String := ["/usr/local/bin", "/etc"]

/-- Prints the programs of a toolchain that are there. -/
def toolchainScript : String :=
  "for t in " ++ joinWith " " toolchain ++
    "; do if command -v \"$t\" >/dev/null 2>&1; then echo \"$t\"; fi; done"

/-- Prints the system directories that can be written to. -/
def writableScript : String :=
  "for d in " ++ joinWith " " systemDirectories ++
    "; do if touch \"$d/.lspib-write-test\" 2>/dev/null; then echo \"$d\"; fi; done"

/-- Whether a value is an array of one text. -/
def isSingleText (s : String) : Json → Bool
  | .arr [.str t] => t = s
  | _ => false

/-- The image starts the program, without arguments of its own. -/
def performEntrypoint (spec : Spec) (client : Client) (image : String) : Act Finding := do
  let config ← imageConfig client image
  let got ← configMember "Entrypoint" config
  let cmd ← configMember "Cmd" config
  return finding entrypoint (isSingleText spec.final.entrypoint.path got && !cmd.isTruthy)
    ("entrypoint=" ++ got.plain ++ " cmd=" ++ cmd.plain)

/-- The image runs as the user. -/
def performUser (spec : Spec) (client : Client) (image : String) : Act Finding := do
  let config ← imageConfig client image
  let got ← configMember "User" config
  let got := if got.isTruthy then got else .str ""
  let passed := match got with
    | .str name => name = spec.final.identity.name
    | _ => false
  return finding user passed ("configured user=" ++ got.shown)

/-- The number of the user is one, and not zero. -/
def performUid (client : Client) (image : String) : Act Finding := do
  let outcome ← runIn client image "id" ["-u"]
  let number := strip (outcome.out.getD "")
  let shown := if number.isEmpty then strip (outcome.err.getD "") else number
  return finding uid (outcome.code = 0 && isAllDigits number && number ≠ "0") ("uid=" ++ shown)

/-- The executable is there. -/
def performArtifact (spec : Spec) (client : Client) (image : String) : Act Finding := do
  let path := spec.final.entrypoint.path
  let outcome ← runIn client image "test" ["-x", path]
  return finding artifact (outcome.code = 0) path

/-- A script of the shell prints nothing. -/
def performScript (check : Check) (script whenSome whenNone : String) (client : Client)
    (image : String) : Act Finding := do
  let outcome ← runIn client image "/bin/sh" ["-c", script]
  let found := words (outcome.out.getD "")
  return finding check (outcome.code = 0 && found.isEmpty)
    (if found.isEmpty then whenNone else whenSome ++ joinWith ", " found)

/-- Whether a line of a list of libraries tells that one is missing. -/
def tellsMissing (line : String) : Bool := contains line "not found" || contains line "Error"

/-- All libraries of the executable are there. -/
def performLibraries (spec : Spec) (client : Client) (image : String) : Act Finding := do
  let outcome ← runIn client image "ldd" [spec.final.entrypoint.path]
  if outcome.code = 126 || outcome.code = 127 then
    return ⟨libraries.name, false, true, "ldd unavailable"⟩
  else
    let missing := ((splitLines outcome.output).filter tellsMissing).map strip
    let detail := joinWith "; " missing
    return finding libraries (outcome.code = 0 && missing.isEmpty)
      (if detail.isEmpty then "all resolved" else detail)

/-- The finding of a check. -/
def perform (check : Check) (spec : Spec) (client : Client) (image : String) : Act Finding :=
  match check with
  | entrypoint => performEntrypoint spec client image
  | user => performUser spec client image
  | uid => performUid client image
  | artifact => performArtifact spec client image
  | noToolchain => performScript check toolchainScript "found: " "none found" client image
  | systemPaths =>
    performScript check writableScript "writable: " "read-only for runtime user" client image
  | libraries => performLibraries spec client image

/-- The findings of some checks. -/
def performAll (spec : Spec) (client : Client) (image : String) : List Check → Act (List Finding)
  | [] => pure []
  | check :: rest => do
    let first ← check.perform spec client image
    let others ← performAll spec client image rest
    return first :: others

end Check

/-- The findings of all checks of an image. -/
def verify (spec : Spec) (client : Client) (image : String) : Act Report := do
  let findings ← Check.performAll spec client image Check.all
  return ⟨image, findings⟩

end TwoStage

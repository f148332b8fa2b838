import TwoStage.Text.Blank
import TwoStage.Text.Case
import TwoStage.Text.Lines
import TwoStage.Text.Search

/-!
# Failures of a stage

Why a stage of the image build did not complete. The log of the engine tells: which marks it has,
and which command in it failed.

## Main definitions

- `Failure.Cause` — why a stage failed
- `Failure` — a cause with the stage and its log
- `Failure.classify` — the failure that a log tells of
- `logTail` — the last lines of a log
-/

namespace TwoStage

/-- The last lines of a log that is cut free of blanks, at most twenty. -/
def logTail (log : String) : String :=
  let lines := splitLines (strip log)
  joinWith "\n" (lines.drop (lines.length - 20))

namespace Failure

/-- Why a stage failed. -/
inductive Cause where
  | baseUnresolved
  | packagesNotInstalled
  | userNotCreated
  | dependencyNotFetched
  | commandFailed (command : String)
  | artifactNotFound
  | noExecutable (path : String)
  | unknown
  deriving Repr, DecidableEq

/-- The kinds of failures that callers tell apart. -/
inductive Kind where
  | stage
  | dependency
  | compile
  | artifactMissing
  | identity
  deriving Repr, DecidableEq

/-- The name of a kind. -/
def Kind.name : Kind → String
  | stage => "stage"
  | dependency => "dependency"
  | compile => "compile"
  | artifactMissing => "artifact-missing"
  | identity => "identity"

/-- The kind that a cause belongs to. -/
def Cause.kind : Cause → Kind
  | baseUnresolved | packagesNotInstalled | dependencyNotFetched => .dependency
  | userNotCreated => .identity
  | commandFailed _ => .compile
  | artifactNotFound | noExecutable _ => .artifactMissing
  | unknown => .stage

/-- The wording of a cause. -/
def Cause.message : Cause → String
  | baseUnresolved => "base environment could not be resolved"
  | packagesNotInstalled => "package installation failed"
  | userNotCreated => "runtime identity could not be created"
  | dependencyNotFetched => "dependency fetch failed after retries"
  | commandFailed command => "build command failed: " ++ command
  | artifactNotFound => "compiled artifact not found in the build stage"
  | noExecutable path => "no executable at " ++ path
  | unknown => "image build failed"

end Failure

/-- A stage that did not complete. -/
structure Failure where
  cause : Failure.Cause
  stage : String
  log : String
  deriving Repr, DecidableEq

namespace Failure

/-- The kind of a failure. -/
def kind (failure : Failure) : Kind := failure.cause.kind

/-- The wording of a failure. -/
def message (failure : Failure) : String := failure.stage ++ ": " ++ failure.cause.message

/-- The last lines of the log of a failure. -/
def tail (failure : Failure) : String := logTail failure.log

/-- The characters before the first `ending`, if it stands on the same line with at least one
character before it. `taken` holds the characters before, last one first. -/
def lineUpTo? (ending : List Char) (taken : List Char) : List Char → Option (List Char)
  | [] => none
  | c :: rest =>
    if !taken.isEmpty && ending.isPrefixOf (c :: rest) then some taken.reverse
    else if c = '\n' then none
    else lineUpTo? ending (c :: taken) rest

/-- What stands between an `opening` and the next `closing` on the same line, where this is found
first. -/
def between? (opening closing : List Char) : List Char → Option (List Char)
  | [] => none
  | c :: rest =>
    match (afterStart? opening (c :: rest)).bind (lineUpTo? closing []) with
    | some found => some found
    | none => between? opening closing rest

/-- The command that failed, as either builder of the engine reports it. -/
def failedCommand? (log : String) : Option String :=
  let cs := log.toList
  let found :=
    match between? "process \"".toList "\" did not complete successfully".toList cs with
    | some command => some command
    | none => between? "The command '".toList "' returned a non-zero code".toList cs
  found.map String.ofList

/-- Marks of commands that install packages. -/
def packageMarks : List String := ["apk add", "apt-get", "apt "]

/-- Marks of commands that create users. -/
def identityMarks : List String := ["adduser", "useradd"]

/-- Marks of base images that cannot be found, in small letters. -/
def baseMarks : List String :=
  ["failed to resolve source metadata", "pull access denied", "manifest unknown",
   "not found: manifest"]

/-- Marks of a network that fails, in small letters. -/
def networkMarks : List String :=
  ["spurious network error", "failed to download", "failed to get \x60",
   "could not resolve host", "couldn't resolve host", "failed to fetch"]

/-- Whether a text has one of some marks. -/
def hasMark (marks : List String) (s : String) : Bool := marks.any (contains s)

/-- Whether one of some texts stands behind the first occurrence of another. -/
def hasBehind (s first : String) (others : List String) : Bool :=
  match afterFirst? first.toList s.toList with
  | some rest => others.any fun other => containsChars other.toList rest
  | none => false

/-- Whether a log says that a file to copy does not exist. -/
def saysCopyMissing (log : String) : Bool :=
  hasBehind log "failed to compute cache key" ["not found"] ||
    hasBehind log "COPY failed:" ["no such file", "does not exist", "not found"]

/-- The cause that a log tells of. -/
def causeOf (log : String) : Cause :=
  let lowered := lower log
  if hasMark baseMarks lowered then .baseUnresolved
  else
    match failedCommand? log with
    | some command =>
      if hasMark packageMarks command then .packagesNotInstalled
      else if hasMark identityMarks command then .userNotCreated
      else if hasMark networkMarks lowered then .dependencyNotFetched
      else .commandFailed command
    | none => if saysCopyMissing log then .artifactNotFound else .unknown

/-- The failure of a stage that its log tells of. -/
def classify (stage log : String) : Failure := ⟨causeOf log, stage, log⟩

end Failure

end TwoStage

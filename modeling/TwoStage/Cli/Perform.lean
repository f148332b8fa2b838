import TwoStage.Cli.Request
import TwoStage.ConfigFile
import TwoStage.Digest.Comparison
import TwoStage.Pipeline.Run
import TwoStage.Smoke
import TwoStage.Verify

/-!
# Carrying out requests

Each request shows what it did and ends with an exit code: 0 if all is well, 1 if not, and the code
of the program inside for an image that is started.

## Main definitions

- `Request.perform` — carries out a request
- `perform` — carries out the words of a command line
-/

namespace TwoStage.Cli

/-- The text between a pair of tags. -/
def tagged (tag text : String) : String := "[" ++ tag ++ "]" ++ text ++ "[/" ++ tag ++ "]"

/-- Shows an error in one line: the exit code is 1. -/
def showError (message : String) : Act Int := do
  Act.display (.marked (tagged "red" "Error:" ++ " " ++ message))
  return 1

/-- Shows an error that was raised on purpose; of a stage that failed, also its kind and the end of
its log. -/
def showFailure : Error → Act Int
  | .stage failure => do
    Act.display (.marked
      (tagged "red" ("Error (" ++ failure.kind.name ++ "):") ++ " " ++ failure.message))
    if !failure.tail.isEmpty then Act.display (.verbatim failure.tail)
    return 1
  | e => showError e.message

/-- Carries out a request; an error of the given sort is shown, any other one is not held back. -/
def guarded (isShown : Error → Bool) (showAs : Error → Act Int) (body : Act Int) : Act Int := do
  match ← Act.outcome body with
  | .ok code => return code
  | .error e => if isShown e then showAs e else Act.fail e

/-- The value of an option, unless it is empty. -/
def given? (value : Option String) : Option String := value.filter fun s => !s.isEmpty

/-- The specification that the options of a request name. -/
def loadSpec (config tag : Option String) : Act Spec := do
  let spec ← ConfigFile.load ((given? config).map Path.ofText)
  return match given? tag with
    | some image => { spec with image }
    | none => spec

/-- Whether an error says that a file exists already. -/
def saysTaken : Error → Bool
  | .refusesOverwrite _ | .file (.refused .taken _) => true
  | _ => false

/-- Whether an error says that something was looked up in vain. -/
def saysNotFound : Error → Bool
  | .imageNotFound .. | .shape .noFirst => true
  | _ => false

/-- Whether an error says that a value makes no sense. -/
def saysBadValue : Error → Bool
  | .notPair _ | .unknownState _ | .notUtf8 _ | .notJson _ | .file .nullByte => true
  | _ => false

/-- Whether an error says that a file cannot be read. -/
def saysUnreadable : Error → Bool
  | .file (.refused ..) => true
  | e => saysBadValue e

/-- Writes the stock configuration. -/
def performInit (path : String) (force : Bool) : Act Int :=
  guarded saysTaken (fun e => showError e.message) do
    let written ← ConfigFile.scaffold (Path.ofText path) force
    Act.display (.marked (tagged "green" "Scaffolded:" ++ " " ++ written.text))
    return 0

/-- Renders the Dockerfile, to a file or to the output. -/
def performRender (config out : Option String) : Act Int := do
  match ← Act.outcome (loadSpec config none) with
  | .error e => if e.isDeliberate then showFailure e else Act.fail e
  | .ok spec =>
    let text ← Act.ofExcept ((Dockerfile.render spec).mapError .config)
    match given? out with
    | some out =>
      Act.writeText (Path.ofText out) text
      Act.display (.marked (tagged "green" "Dockerfile written:" ++ " " ++ out))
    | none => Act.display (.plain text)
    return 0

/-- The table of the findings of a report. -/
def reportTable (report : Report) : Display :=
  let word (check : Finding) : String :=
    if check.skipped then tagged "yellow" "skip"
    else if check.passed then tagged "green" "pass"
    else tagged "red" "fail"
  .table ("Verify " ++ report.image) ["Check", "Result", "Detail"]
    (report.checks.map fun check => [check.name, word check, check.detail])

/-- The table of what a build made. -/
def summaryTable (spec : Spec) (result : PipelineResult) : Display :=
  .table "Build Summary" ["Field", "Value"]
    ([["image", result.image],
      ["image id", result.imageId],
      ["artifact", result.artifact.stage ++ ":" ++ result.artifact.path],
      ["entrypoint", spec.final.entrypoint.path],
      ["user", spec.final.identity.name],
      ["sources", "sha256:" ++ result.sourceDigest],
      ["states", joinWith " -> " (result.history.map State.name)]] ++
      match result.lockPath with
      | some path => [["lock", path.text]]
      | none => [])

/-- Checks an image and shows the findings: whether no check failed. -/
def checkImage (spec : Spec) (image : String) : Act Bool := do
  let report ← TwoStage.verify spec (← Client.create none) image
  Act.display (reportTable report)
  return report.isOk

/-- Builds an image and shows what was made. -/
def performBuild (source : String) (config tag : Option String) (out : String)
    (noCache keepBuilder check : Bool) : Act Int := do
  let built : Act (Spec × PipelineResult) := do
    let spec ← loadSpec config tag
    let pipeline : Pipeline :=
      { spec, sourceRoot := Path.ofText source, client := ← Client.create none
        outdir := some (Path.ofText out), noCache, keepBuilder }
    return (spec, ← pipeline.build)
  match ← Act.outcome built with
  | .error e => if e.isDeliberate then showFailure e else Act.fail e
  | .ok (spec, result) =>
    Act.display (summaryTable spec result)
    if check then return if ← checkImage spec result.image then 0 else 1
    else return 0

/-- Checks an image. -/
def performVerify (image : String) (config : Option String) : Act Int := do
  let checked : Act Report := do
    let spec ← loadSpec config none
    TwoStage.verify spec (← Client.create none) image
  match ← Act.outcome checked with
  | .error e => if e.isDeliberate || saysNotFound e then showError e.message else Act.fail e
  | .ok report =>
    Act.display (reportTable report)
    if report.isOk then
      Act.display (.marked (tagged "green" "All checks passed."))
      return 0
    else return 1

/-- Starts an image: the exit code of the program inside. -/
def performRun (order : SmokeOrder) : Act Int :=
  guarded (fun e => e.isDeliberate || saysBadValue e) (fun e => showError e.message) do
    order.run (← Client.create none)

/-- The digest that a lock file records; empty if it records none. -/
def recordedDigest (lock : String) : Act Json := do
  let text ← Act.readText (Path.ofText lock)
  let value ← Act.ofExcept ((Json.read text).mapError .notJson)
  match value with
  | .obj members => return (members.lookup "source_sha256").getD (.str "")
  | _ => Act.fail (.shape .noMembers)

/-- Compares a digest with the one that a lock file records. -/
def compareWithLock (got lock : String) : Act Int := do
  match ← Act.outcome (recordedDigest lock) with
  | .error e =>
    if saysUnreadable e then showError ("cannot read " ++ lock ++ ": " ++ e.message)
    else Act.fail e
  | .ok (.str recorded) =>
    if sameDigest got recorded then
      Act.display (.marked (tagged "green" ("Sources match " ++ lock ++ ".")))
      return 0
    else
      Act.display (.marked (tagged "red" ("Sources changed since " ++ lock) ++
        " (recorded sha256:" ++ recorded ++ ")"))
      return 1
  | .ok _ => Act.fail (.shape .notText)

/-- Shows the digest of the sources, and compares it with a lock file if there is one. -/
def performDigest (source : String) (config lock : Option String) : Act Int := do
  let digested : Act String := do
    let spec ← loadSpec config none
    spec.inContext (Path.ofText source) fun context => return context.sourceDigest
  match ← Act.outcome digested with
  | .error e => if e.isDeliberate then showFailure e else Act.fail e
  | .ok got =>
    Act.display (.plain ("sha256:" ++ got ++ "\n"))
    match lock with
    | none => return 0
    | some lock => compareWithLock got lock

/-- Carries out a request: its exit code. -/
def Request.perform : Request → Act Int
  | init path force => performInit path force
  | render config out => performRender config out
  | build source config tag out noCache keepBuilder check =>
    performBuild source config tag out noCache keepBuilder check
  | verify image config => performVerify image config
  | run image args publish env => performRun ⟨image, args, publish, env⟩
  | digest source config lock => performDigest source config lock

/-- Carries out the words of a command line: its exit code, 2 if they make no sense. -/
def perform (words : List String) : Act Int :=
  match Reading.ofWords words with
  | .nonsense => return 2
  | .help => return 0
  | .request verbose request => do
    Act.modify fun w => { w with level := Level.threshold verbose }
    request.perform

end TwoStage.Cli

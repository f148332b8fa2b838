import TwoStage.Act
import TwoStage.Text.Blank

/-!
# Talking to the engine

## Main definitions

- `Client` — the name of the program to call
- `Client.build`, `Client.run`, `Client.inspect`, `Client.remove` — the four commands
- `BuildOutcome` — what a build came to
-/

namespace TwoStage

/-- What a build came to: the exit code, the log, and the identifier of the image if there is
one. -/
structure BuildOutcome where
  code : Int
  log : String
  imageId : Option String
  deriving Repr, DecidableEq

/-- The identifier of the image that a build made, if it made one. -/
def BuildOutcome.made? (outcome : BuildOutcome) : Option String :=
  if outcome.code = 0 then outcome.imageId.filter fun id => !id.isEmpty else none

/-- What a run came to. Outputs that were not collected are missing. -/
structure RunOutcome where
  code : Int
  out : Option String
  err : Option String
  deriving Repr, DecidableEq

/-- Both outputs of a run, one after the other. -/
def RunOutcome.output (outcome : RunOutcome) : String :=
  outcome.out.getD "" ++ outcome.err.getD ""

/-- Whoever calls the engine, by the name of its program. -/
structure Client where
  program : String
  deriving Repr, DecidableEq

namespace Client

/-- The text, unless it is empty. -/
def nonEmpty? (s : Option String) : Option String := s.filter fun s => !s.isEmpty

/-- The client for a program: the one chosen, else the one that the environment names. -/
def create (choice : Option String) : Act Client := fun host w =>
  let program := (nonEmpty? choice).getD ((nonEmpty? host.engineVariable).getD "docker")
  (.ok ⟨program⟩, w)

/-- Whether the program is there. -/
def isAvailable (client : Client) : Act Bool := fun host w =>
  (.ok (host.engine.find? client.program).isSome, w)

/-- Where the program is. -/
def locate (client : Client) : Act String := fun host w =>
  match host.engine.find? client.program with
  | some path => (.ok path, w)
  | none => (.error (.engineNotFound client.program), w)

/-- Reports on the engine. -/
def log (level : Level) (message : String) : Act Unit :=
  Act.report (.plain level "package.docker" message)

/-- Reports each line of the log of a build, with the stage it is about. -/
def reportLines (stage : String) : List String → Act Unit
  | [] => pure ()
  | line :: rest => do
    Act.report { LogRecord.plain .debug "package.docker" line with stage }
    reportLines stage rest

/-- What is asked of a build. -/
structure BuildOrder where
  target : String
  tag : String
  dockerfile : String
  noCache : Bool
  arguments : Bindings String

/-- The identifier in the reply to a build. -/
def identifier? (reply : Reply) : Option String :=
  if reply.code = 0 then
    nonEmpty? (reply.identifier.map fun text => strip (unifyNewlines text))
  else none

/-- Builds one stage in a context. -/
def build (client : Client) (context : Path) (order : BuildOrder) : Act BuildOutcome :=
  Act.inScratch "lspib-iid-" fun loc => do
    let program ← client.locate
    let command : BuildCommand :=
      { target := order.target, tag := order.tag, context
        dockerfile := .ofText order.dockerfile, noCache := order.noCache
        arguments := order.arguments, idFile := (Path.ofLocation loc).child "iid" }
    log .info ("docker build --target " ++ order.target ++ " --tag " ++ order.tag)
    let reply ← Act.call program (.build command)
    reportLines order.target (splitLines reply.out)
    return ⟨reply.code, reply.out, identifier? reply⟩

/-- Runs a container. -/
def run (client : Client) (command : RunCommand) : Act RunOutcome := do
  let program ← client.locate
  log .debug ("docker " ++ joinWith " " command.argv)
  let reply ← Act.call program (.run command)
  return if command.capture then ⟨reply.code, some reply.out, some reply.err⟩
    else ⟨reply.code, none, none⟩

/-- The first item of what the engine tells of an image. -/
def firstItem : Json → Except ShapeFault Json
  | .arr (first :: _) => .ok first
  | .str s =>
    match s.toList with
    | c :: _ => .ok (.str (String.singleton c))
    | [] => .ok (.obj [])
  | .obj (_ :: _) => .error .noFirst
  | value => if value.isTruthy then .error .noItems else .ok (.obj [])

/-- What the engine tells of an image; an empty object if it tells nothing. -/
def inspect (client : Client) (image : String) : Act Json := do
  let program ← client.locate
  let reply ← Act.call program (.inspect image)
  if reply.code ≠ 0 then Act.fail (.imageNotFound image (strip reply.err))
  else
    let value ← Act.ofExcept ((Json.read reply.out).mapError .notJson)
    Act.ofExcept ((firstItem value).mapError .shape)

/-- Removes an image; that this does not work is no error. -/
def remove (client : Client) (image : String) : Act Unit := do
  let program ← client.locate
  let reply ← Act.call program (.remove image)
  if reply.code ≠ 0 then
    log .warning ("could not remove " ++ image ++ ": " ++ strip reply.err)

end Client

end TwoStage

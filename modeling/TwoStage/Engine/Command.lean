import TwoStage.Bindings
import TwoStage.Path

/-!
# Commands for the container engine

## Main definitions

- `Command` — what the engine is asked to do
- `Command.argv` — the words of the command line, without the program
- `Command.isSayable` — whether these can be the words of a command line
-/

namespace TwoStage

/-- A build of one stage. -/
structure BuildCommand where
  target : String
  tag : String
  context : Path
  /-- The Dockerfile, seen from the context. -/
  dockerfile : Path
  noCache : Bool
  arguments : Bindings String
  /-- Where the engine writes the identifier of the image. -/
  idFile : Path
  deriving Repr, DecidableEq

/-- A run of a container that is removed afterwards. -/
structure RunCommand where
  image : String
  args : List String
  entrypoint : Option String
  publish : List String
  env : List String
  /-- Whether what the container writes is collected. -/
  capture : Bool
  deriving Repr, DecidableEq

/-- What the engine is asked to do. -/
inductive Command where
  | build (command : BuildCommand)
  | run (command : RunCommand)
  | inspect (image : String)
  | remove (image : String)
  deriving Repr, DecidableEq

/-- Each text behind the same flag. -/
def flagged (flag : String) (texts : List String) : List String :=
  texts.flatMap fun text => [flag, text]

/-- The Dockerfile of a build. -/
def BuildCommand.file (command : BuildCommand) : Path := command.context.join command.dockerfile

/-- The words of a build. -/
def BuildCommand.argv (command : BuildCommand) : List String :=
  let arguments := Bindings.sorted command.arguments
  ["build", "--progress=plain", "--target", command.target, "--tag", command.tag, "--iidfile",
    command.idFile.text, "--file", command.file.text] ++
    (if command.noCache then ["--no-cache"] else []) ++
    flagged "--build-arg" (arguments.map fun (name, value) => name ++ "=" ++ value) ++
    [command.context.text]

/-- The words of a run. -/
def RunCommand.argv (command : RunCommand) : List String :=
  ["run", "--rm"] ++ (if command.capture then [] else ["-i"]) ++
    (match command.entrypoint with
      | none => []
      | some entrypoint => ["--entrypoint", entrypoint]) ++
    flagged "--publish" command.publish ++ flagged "--env" command.env ++
    command.image :: command.args

/-- The words of a command line, without the program. -/
def Command.argv : Command → List String
  | build command => command.argv
  | run command => command.argv
  | inspect image => ["image", "inspect", image]
  | remove image => ["image", "rm", image]

/-- Whether a text can be a word of a command line: no word holds a null character. -/
def isWord (text : String) : Bool := !text.toList.contains '\x00'

/-- Whether a command can be given to a program. -/
def Command.isSayable (program : String) (command : Command) : Bool :=
  (program :: command.argv).all isWord

end TwoStage

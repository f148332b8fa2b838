import TwoStage.Act

/-!
# Configuration files

## Main definitions

- `ConfigFile.load` — the specification in a file, or the stock one if there is no file
- `ConfigFile.scaffold` — writes the stock specification to a new file
-/

namespace TwoStage.ConfigFile

/-- The name of a configuration file. -/
def fileName : String := "pipeline.json"

/-- The JSON value in a file that a configuration is read from. -/
def readValue (path : Path) : Act Json := do
  match ← Act.outcome (Act.readText path) with
  | .error (.file (.refused .noEntry _)) => Act.fail (.config (.notFound path.text))
  | .error e => Act.fail e
  | .ok text =>
    match Json.read text with
    | .ok value => return value
    | .error (.malformed fault) => Act.fail (.config (.notJson path.text fault))
    | .error why => Act.fail (.notJson why)

/-- The specification in a file. -/
def loadFrom (path : Path) : Act Spec := do
  match ← readValue path with
  | .obj members => Act.ofExcept ((Config.parse (.obj members)).mapError .config)
  | _ => Act.fail (.config (.notObject path.text))

/-- The specification in a file; without a path, in the file of the usual name in the working
directory, or the stock specification if there is none. -/
def load (path : Option Path) : Act Spec := do
  match path with
  | some path => loadFrom path
  | none =>
    let candidate := (Path.ofLocation (← Act.host).cwd).child fileName
    if ← Act.ask FileTree.exists? candidate then loadFrom candidate else return .standard

/-- The text of the stock specification. -/
def scaffoldText : String := Spec.standard.toJson.indented ++ "\n"

/-- Where the stock specification goes: to the path itself if its name says so, else into the
directory of that name, which is made if need be. -/
def scaffoldPath (path : Path) : Act Path := do
  if (← Act.ask FileTree.isDirectory? path) || path.suffix ≠ ".json" then
    Act.makeDirectories path
    return path.child fileName
  else return path

/-- Writes the stock specification, over an existing file only when `force` is given: the path
written to. -/
def scaffold (path : Path) (force : Bool) : Act Path := do
  let path ← scaffoldPath path
  if (← Act.ask FileTree.exists? path) && !force then Act.fail (.refusesOverwrite path.text)
  else
    Act.writeText path scaffoldText
    return path

end TwoStage.ConfigFile

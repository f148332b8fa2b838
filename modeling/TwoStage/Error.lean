import TwoStage.Config
import TwoStage.Failure
import TwoStage.FileTree.Walk
import TwoStage.Pipeline.State
import TwoStage.Text.Utf8

/-!
# Errors

Everything that can end an operation early. Some errors are raised on purpose, with a message for
whoever runs the program; the others come from the file system or from data that do not have the
form they should have.

## Main definitions

- `Error` — the errors
- `Error.message` — their wording
- `Error.isDeliberate` — those that are raised on purpose
-/

namespace TwoStage

/-- How data from outside can lack the form that they should have. -/
inductive ShapeFault where
  /-- A value that has no items is asked for its first one. -/
  | noItems
  /-- An object is asked for its first item. -/
  | noFirst
  /-- A value that has no members is asked for one. -/
  | noMembers
  /-- A value that is no text is taken for one. -/
  | notText
  deriving Repr, DecidableEq

/-- The wording of a fault in the form of data. -/
def ShapeFault.message : ShapeFault → String
  | noItems => "value has no items"
  | noFirst => "0"
  | noMembers => "value has no members"
  | notText => "value is no text"

/-- Everything that can end an operation early. -/
inductive Error where
  | config (why : ConfigError)
  | sourcesMissing (root : String) (missing : List String)
  | engineNotFound (program : String)
  | illegalTransition (old new : State)
  /-- A pipeline that has run is run again. -/
  | ranBefore
  | unknownState (name : String)
  | stage (failure : Failure)
  | imageNotFound (image details : String)
  | refusesOverwrite (path : String)
  | notPair (text : String)
  | file (fault : FileFault)
  | notUtf8 (fault : Utf8.Fault)
  | notJson (why : Json.ReadError)
  | shape (fault : ShapeFault)
  deriving Repr

namespace Error

/-- The wording of an error. -/
def message : Error → String
  | config why => why.message
  | sourcesMissing root missing =>
    "source input missing under " ++ root ++ ": " ++ joinWith ", " missing
  | engineNotFound program => "container engine not found on PATH: " ++ program
  | illegalTransition old new => "illegal transition " ++ old.name ++ " -> " ++ new.name
  | ranBefore => "a pipeline runs exactly once"
  | unknownState name => literal name ++ " is not a valid PipelineState"
  | stage failure => failure.message
  | imageNotFound image details => "image not found: " ++ image ++ ": " ++ details
  | refusesOverwrite path => "refusing to overwrite " ++ path
  | notPair text => "expected KEY=VAL, got " ++ literal text
  | file fault => fault.message
  | notUtf8 fault => fault.message
  | notJson why => why.message
  | shape fault => fault.message

/-- Whether an error is one of those that the pipeline raises on purpose. -/
def isDeliberate : Error → Bool
  | config .longInteger => false
  | config _ | sourcesMissing .. | engineNotFound _ | illegalTransition .. | ranBefore
  | stage _ => true
  | _ => false

end Error

end TwoStage

import TwoStage.Json.Value
import TwoStage.Text.Literal

/-!
# Verdicts on a configuration

Reading a part of a configuration either gives its value or lists everything that is wrong with it,
in the order of the fields, each with the place where it stands.

## Main definitions

- `Place` — the way to a value inside another
- `Objection` — the rules of this program that a value can break
- `Problem` — what is wrong with a value
- `Verdict` — a value, or the faults found
-/

namespace TwoStage

/-- One step into a value: to a member or to an item. -/
inductive Step where
  | member (name : String)
  | item (index : Nat)
  deriving Repr, DecidableEq

/-- The text of a step. -/
def Step.text : Step → String
  | member name => name
  | item index => toString index

/-- The way to a value inside another, outermost step first. -/
abbrev Place := List Step

/-- The rules of a pipeline that a value of the right kind can break. -/
inductive Objection where
  | unpinnedTag
  | digestForm
  | packageName (name : String)
  | noSourcePath
  | sourcePath (path : String)
  | relativeWorkdir
  | variableName (name : String)
  | variableLines (name : String)
  | userName (name : String)
  | shellPath (path : String)
  | interactiveShell (path : String)
  | entrypointPath (path : String)
  | binaryName (name : String)
  | installRoot (path : String)
  | sameStageNames
  deriving Repr, DecidableEq

/-- The wording of an objection. -/
def Objection.message : Objection → String
  | unpinnedTag => "base environment must be pinned to an exact version, not 'latest'"
  | digestForm => "digest must look like sha256:<64 hex>"
  | packageName name => "invalid package name: " ++ literal name
  | noSourcePath => "source input needs at least one path"
  | sourcePath path => "source path must be relative to the source root: " ++ literal path
  | relativeWorkdir => "workdir must be absolute"
  | variableName name => "invalid environment variable name: " ++ literal name
  | variableLines name => "environment value for " ++ name ++ " must be a single line"
  | userName name => "runtime identity must be an unprivileged user name, got " ++ literal name
  | shellPath path => "shell must be a plain absolute path, got " ++ literal path
  | interactiveShell path => "runtime identity must not get an interactive shell: " ++ path
  | entrypointPath path => "entrypoint must be a plain absolute file path, got " ++ literal path
  | binaryName name => "invalid binary name: " ++ literal name
  | installRoot path => "install_root must be a plain absolute path, got " ++ literal path
  | sameStageNames => "build and final stages need distinct names"

/-- What is wrong with a value. -/
inductive Problem where
  | missing
  | notText
  | notList
  | notTable
  /-- The value is no record of the named kind. -/
  | notRecord (kind : String)
  | notFlag
  | unreadableFlag
  | notInteger
  | unreadableInteger
  | hugeInteger
  | fractionalInteger
  | notFinite
  | belowMinimum (least : Nat)
  /-- The value is not one of two words. -/
  | notChoice (one other : String)
  | objection (why : Objection)
  deriving Repr, DecidableEq

/-- The wording of a problem. -/
def Problem.message : Problem → String
  | missing => "Field required"
  | notText => "Input should be a valid string"
  | notList => "Input should be a valid list"
  | notTable => "Input should be a valid dictionary"
  | notRecord kind => "Input should be a valid dictionary or instance of " ++ kind
  | notFlag => "Input should be a valid boolean"
  | unreadableFlag => "Input should be a valid boolean, unable to interpret input"
  | notInteger => "Input should be a valid integer"
  | unreadableInteger => "Input should be a valid integer, unable to parse string as an integer"
  | hugeInteger => "Unable to parse input string as an integer, exceeded maximum size"
  | fractionalInteger => "Input should be a valid integer, got a number with a fractional part"
  | notFinite => "Input should be a finite number"
  | belowMinimum least => "Input should be greater than or equal to " ++ toString least
  | notChoice one other => "Input should be " ++ literal one ++ " or " ++ literal other
  | objection why => "Value error, " ++ why.message

/-- A problem and where it stands. -/
structure Fault where
  place : Place
  problem : Problem
  deriving Repr, DecidableEq

/-- A value, or all that is wrong. -/
inductive Verdict (α : Type) where
  | accepted (value : α)
  | refused (faults : List Fault)
  deriving Repr

namespace Verdict

variable {α β : Type}

/-- The faults of a verdict; none if it accepts. -/
def faults : Verdict α → List Fault
  | accepted _ => []
  | refused faults => faults

/-- Applies a function to an accepted value. -/
def map (f : α → β) : Verdict α → Verdict β
  | accepted value => accepted (f value)
  | refused faults => refused faults

/-- Takes two verdicts together: the faults of both count, those of the first one first. -/
def ap (f : Verdict (α → β)) (x : Verdict α) : Verdict β :=
  match f, x with
  | accepted f, accepted value => accepted (f value)
  | accepted _, refused more => refused more
  | refused faults, accepted _ => refused faults
  | refused faults, refused more => refused (faults ++ more)

instance : Functor Verdict where
  map := map

instance : Seq Verdict where
  seq f x := ap f (x ())

/-- Refuses for one problem with the value itself. -/
def problem (what : Problem) : Verdict α := refused [⟨[], what⟩]

/-- The faults of a verdict on a part, seen from the whole. -/
def within (step : Step) : Verdict α → Verdict α
  | accepted value => accepted value
  | refused faults => refused (faults.map fun fault => ⟨step :: fault.place, fault.problem⟩)

/-- Goes on with an accepted value to a further verdict. -/
def andThen (x : Verdict α) (f : α → Verdict β) : Verdict β :=
  match x with
  | accepted value => f value
  | refused faults => refused faults

/-- Refuses an accepted value to which the rule objects. -/
def subjectTo (x : Verdict α) (rule : α → Option Objection) : Verdict α :=
  x.andThen fun value =>
    match rule value with
    | none => accepted value
    | some why => problem (.objection why)

end Verdict

end TwoStage

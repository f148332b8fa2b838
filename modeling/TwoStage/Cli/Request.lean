import TwoStage.Cli.Arguments

/-!
# Requests

What the command line asks for.

## Main definitions

- `Request` — the commands with their options
- `Reading` — what words of a command line come to
- `Reading.ofWords` — reads them
-/

namespace TwoStage.Cli

/-- What the command line asks for. -/
inductive Request where
  | init (path : String) (force : Bool)
  | render (config out : Option String)
  | build (source : String) (config tag : Option String) (out : String)
      (noCache keepBuilder check : Bool)
  | verify (image : String) (config : Option String)
  | run (image : String) (args publish env : List String)
  | digest (source : String) (config lock : Option String)
  deriving Repr, DecidableEq

/-- What words of a command line come to. -/
inductive Reading where
  | request (verbose : Bool) (request : Request)
  /-- Help is asked for. -/
  | help
  /-- The words make no sense. -/
  | nonsense
  deriving Repr, DecidableEq

/-- An option that is given or not. -/
def flag (name : String) : Switch := ⟨name, none, false⟩

/-- An option with a value. -/
def option (name : String) : Switch := ⟨name, none, true⟩

/-- An option with a value that has a letter, too. -/
def lettered (name : String) (letter : Char) : Switch := ⟨name, some letter, true⟩

/-- The option that asks for help. -/
def help : Switch := flag "help"

/-- The option that names a configuration file. -/
def config : Switch := lettered "config" 'c'

/-- The options in front of the command. -/
def topGrammar : Grammar := ⟨[⟨"verbose", some 'v', false⟩, help], false, false⟩

/-- How a command reads its words. -/
def grammar (switches : List Switch) : Grammar := ⟨switches ++ [help], true, false⟩

/-- The one operand there may be, or a default; `none` if there are more. -/
def oneOperand? (a : Arguments) (default : String) : Option String :=
  match a.operands with
  | [] => some default
  | [operand] => some operand
  | _ => none

/-- Reads the words of a command: first its options, then, unless help is asked for, all the
rest. -/
def readCommand (g : Grammar) (words : List String) (make : Arguments → Option Request)
    (verbose : Bool) : Reading :=
  match Arguments.read g words with
  | none => .nonsense
  | some a =>
    if a.has "help" then .help
    else
      match make a with
      | some request => .request verbose request
      | none => .nonsense

/-- The request to write the stock configuration. -/
def initOf (a : Arguments) : Option Request :=
  (oneOperand? a ".").map fun path => .init path (a.has "force")

/-- The request to render the Dockerfile. -/
def renderOf (a : Arguments) : Option Request :=
  if a.operands.isEmpty then some (.render (a.value? "config") (a.value? "out")) else none

/-- The request to build an image. -/
def buildOf (a : Arguments) : Option Request :=
  (oneOperand? a ".").map fun source =>
    .build source (a.value? "config") (a.value? "tag") ((a.value? "out").getD "./dist")
      (a.has "no-cache") (a.has "keep-builder") (a.has "verify")

/-- The request to check an image. -/
def verifyOf (a : Arguments) : Option Request :=
  match a.operands with
  | [image] => some (.verify image (a.value? "config"))
  | _ => none

/-- The request to start an image. -/
def runOf (a : Arguments) : Option Request :=
  match a.operands with
  | image :: args => some (.run image args (a.values "publish") (a.values "env"))
  | [] => none

/-- The request for the digest of the sources. -/
def digestOf (a : Arguments) : Option Request :=
  (oneOperand? a ".").map fun source => .digest source (a.value? "config") (a.value? "lock")

/-- Reads the words behind the name of a command; `none` if there is no such command. -/
def readNamed? (name : String) (words : List String) (verbose : Bool) : Option Reading :=
  match name with
  | "init" => some (readCommand (grammar [flag "force"]) words initOf verbose)
  | "render" => some (readCommand (grammar [config, option "out"]) words renderOf verbose)
  | "build" =>
    some (readCommand
      (grammar [config, lettered "tag" 't', option "out", flag "no-cache", flag "keep-builder",
        flag "verify"]) words buildOf verbose)
  | "verify" => some (readCommand (grammar [config]) words verifyOf verbose)
  | "run" =>
    some (readCommand
      { grammar [lettered "publish" 'p', option "env"] with lenient := true } words runOf verbose)
  | "digest" => some (readCommand (grammar [config, option "lock"]) words digestOf verbose)
  | _ => none

/-- What words come to whose first one should be a command but is none: help may still be asked for
among them. -/
def readStray (words : List String) : Reading :=
  match words with
  | [] => .nonsense
  | word :: _ =>
    if word.toList.head? = some '-' then
      match Arguments.read topGrammar words with
      | some a => if a.has "help" then .help else .nonsense
      | none => .nonsense
    else .nonsense

/-- Reads the words of a command line. -/
def Reading.ofWords (words : List String) : Reading :=
  match Arguments.read topGrammar words with
  | none => .nonsense
  | some a =>
    if a.has "help" then .help
    else
      match a.operands with
      | [] => .nonsense
      | name :: rest =>
        match readNamed? name rest (a.has "verbose") with
        | some reading => reading
        | none => readStray a.operands

end TwoStage.Cli

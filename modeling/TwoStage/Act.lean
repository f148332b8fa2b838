import TwoStage.Engine.Engine
import TwoStage.Error
import TwoStage.FileTree.Files
import TwoStage.Log

/-!
# Acting on the world

What an operation can change: the files, the engine through its calls, and what is reported. An
operation ends with a value or with an error, and what it did before an error stays done.

## Main definitions

- `Host` — what stays as it is: the working directory, the clock, the engine
- `World` — what an operation can change
- `Act` — operations
- `Act.ensuring` — an operation with something that is done afterwards in any case
- `Act.inScratch` — an operation with a directory of its own that is removed afterwards
-/

namespace TwoStage

/-- What stays as it is while the program works. -/
structure Host where
  /-- The working directory. -/
  cwd : Location
  /-- Where directories for a short time are made. -/
  scratch : Location
  /-- The present time as a text. -/
  clock : String
  /-- The program that the environment names as the engine, if it does. -/
  engineVariable : Option String
  engine : Engine

/-- Something shown to whoever runs the program. -/
inductive Display where
  /-- A plain text with its line end. -/
  | plain (text : String)
  /-- A line with tags for colours. -/
  | marked (text : String)
  /-- A line that is shown as it is. -/
  | verbatim (text : String)
  | table (title : String) (headers : List String) (rows : List (List String))
  deriving Repr, DecidableEq

/-- What an operation can change. -/
structure World where
  files : FileTree
  /-- From which number on names of directories for a short time are tried. -/
  scratchCount : Nat
  /-- The calls that the engine got, in order. -/
  calls : List Call
  /-- The level from which on records are kept. -/
  level : Level
  /-- The records kept, in order. -/
  records : List LogRecord
  /-- What was shown, in order. -/
  shown : List Display

/-- An operation: it ends with a value or an error, and with what the world is then. -/
abbrev Act (α : Type) := Host → World → Except Error α × World

namespace Act

variable {α β : Type}

/-- The operation that does nothing and gives a value. -/
def pure (value : α) : Act α := fun _ w => (.ok value, w)

/-- One operation after another, unless the first one ends with an error. -/
def bind (x : Act α) (f : α → Act β) : Act β := fun host w =>
  match x host w with
  | (.ok value, w) => f value host w
  | (.error e, w) => (.error e, w)

instance : Monad Act where
  pure := pure
  bind := bind

/-- The operation that ends with an error. -/
def fail (e : Error) : Act α := fun _ w => (.error e, w)

/-- The host. -/
def host : Act Host := fun h w => (.ok h, w)

/-- The world as it is. -/
def world : Act World := fun _ w => (.ok w, w)

/-- Changes the world. -/
def modify (f : World → World) : Act Unit := fun _ w => (.ok (), f w)

/-- A value, or the end with an error. -/
def ofExcept (x : Except Error α) : Act α := fun _ w => (x, w)

/-- An operation with another one that follows in any case. If that one ends with an error, it is
the error of the whole. -/
def ensuring (body : Act α) (cleanup : Act Unit) : Act α := fun host w =>
  match body host w with
  | (result, w) =>
    match cleanup host w with
    | (.ok (), w) => (result, w)
    | (.error e, w) => (.error e, w)

/-- Goes on with the outcome of an operation, be it a value or an error. -/
def outcome (x : Act α) : Act (Except Error α) := fun host w =>
  match x host w with
  | (result, w) => (.ok result, w)

/-- Asks the files about a path. -/
def ask (question : FileTree → Location → Path → Except FileFault α) (p : Path) : Act α :=
  fun host w => ((question w.files host.cwd p).mapError .file, w)

/-- Changes the files. -/
def changeFiles (change : FileTree → Location → Except FileFault FileTree) : Act Unit :=
  fun host w =>
    match change w.files host.cwd with
    | .ok files => (.ok (), { w with files })
    | .error fault => (.error (.file fault), w)

/-- Writes a text to a file. -/
def writeText (p : Path) (text : String) : Act Unit :=
  changeFiles fun files cwd => files.write cwd p (utf8Bytes text)

/-- The text of a file, its line ends unified. -/
def readText (p : Path) : Act String := do
  let bytes ← ask FileTree.read p
  let text ← ofExcept ((Utf8.decode bytes).mapError .notUtf8)
  return unifyNewlines text

/-- Changes the files as far as it goes. -/
def changeFilesPartly (change : FileTree → Location → FileTree × Option FileFault) : Act Unit :=
  fun host w =>
    match change w.files host.cwd with
    | (files, none) => (.ok (), { w with files })
    | (files, some fault) => (.error (.file fault), { w with files })

/-- Makes a directory with those above it, unless there is one already. -/
def makeDirectories (p : Path) : Act Unit :=
  changeFilesPartly fun files cwd => files.makeDirectoriesPartly cwd p

/-- Reports a record, if its level counts. -/
def report (record : LogRecord) : Act Unit :=
  modify fun w =>
    if record.isWritten w.level then { w with records := w.records ++ [record] } else w

/-- Shows something. -/
def display (what : Display) : Act Unit := modify fun w => { w with shown := w.shown ++ [what] }

/-- Calls the engine. A command with a word that no command line holds does not get there. -/
def call (program : String) (command : Command) : Act Reply := fun host w =>
  if command.isSayable program then
    let call : Call := ⟨program, command, w.files⟩
    (.ok (host.engine.reply w.calls call), { w with calls := w.calls ++ [call] })
  else (.error (.file .nullByte), w)

/-- Where the directory for a short time with that number is made. -/
def scratchPlace (host : Host) (stem : String) (n : Nat) : Location :=
  host.scratch ++ [stem ++ toString n]

/-- Makes an empty directory for a short time, its name starting with `stem`. No name is taken
twice: each entry of the tree can stand in the way of one number only, so that the search ends at a
location that is free. -/
def makeScratch (stem : String) : Act Location := fun host w =>
  let place := scratchPlace host stem
  let n := w.files.firstFree place w.files.entries.length w.scratchCount
  (.ok (place n), { w with files := w.files.put (place n) .directory, scratchCount := n + 1 })

/-- Removes a location with all that is under it. -/
def removeBelow (loc : Location) : Act Unit :=
  modify fun w => { w with files := w.files.removeBelow loc }

/-- An operation with a directory of its own, which is removed afterwards in any case. -/
def inScratch (stem : String) (body : Location → Act α) : Act α := do
  let loc ← makeScratch stem
  ensuring (body loc) (removeBelow loc)

end Act

end TwoStage

import TwoStage.FileTree.Walk

/-!
# Working with files

What programs do with paths: ask what they lead to, read and write files, make directories, copy
and remove.

## Main definitions

- `FileTree.exists?`, `FileTree.isDirectory?` — questions
- `FileTree.read`, `FileTree.write` — the bytes of a file
- `FileTree.makeDirectory`, `FileTree.makeDirectories` — new directories
- `FileTree.copyFile`, `FileTree.copyDirectory` — copies, with links replaced by what they lead to
-/

namespace TwoStage.FileTree

/-- Whether a fault only says that there is nothing at a path. -/
def meansNothingThere : FileFault → Bool
  | .refused .noEntry _ | .refused .notDirectory _ | .refused .tooManyLinks _ | .nullByte => true
  | _ => false

/-- The node that a path leads to, if there is one. -/
def find? (t : FileTree) (cwd : Location) (p : Path) : Except FileFault (Option Node) :=
  match t.walk cwd true p with
  | .ok (.node _ node) => .ok (some node)
  | .ok (.free _ _) => .ok none
  | .error fault => if meansNothingThere fault then .ok none else .error fault

/-- Whether a path leads to something. -/
def exists? (t : FileTree) (cwd : Location) (p : Path) : Except FileFault Bool :=
  (t.find? cwd p).map Option.isSome

/-- Whether a path leads to a directory. -/
def isDirectory? (t : FileTree) (cwd : Location) (p : Path) : Except FileFault Bool :=
  (t.find? cwd p).map fun
    | some .directory => true
    | _ => false

/-- The bytes of the file that a path leads to. -/
def read (t : FileTree) (cwd : Location) (p : Path) : Except FileFault ByteArray :=
  match t.walk cwd true p with
  | .ok (.node _ (.file bytes)) => .ok bytes
  | .ok (.node _ _) => .error (.refused .isDirectory p.text)
  | .ok (.free _ _) => .error (.refused .noEntry p.text)
  | .error fault => .error fault

/-- Writes a file, new or in place of the old bytes. -/
def write (t : FileTree) (cwd : Location) (p : Path) (bytes : ByteArray) :
    Except FileFault FileTree :=
  match t.walk cwd true p with
  | .ok (.node loc (.file _)) => .ok (t.put loc (.file bytes))
  | .ok (.node _ _) => .error (.refused .isDirectory p.text)
  | .ok (.free parent name) => .ok (t.put (parent ++ [name]) (.file bytes))
  | .error fault => .error fault

/-- Makes a directory at a path that is free. -/
def makeDirectory (t : FileTree) (cwd : Location) (p : Path) : Except FileFault FileTree :=
  match t.walk cwd false p with
  | .ok (.node _ _) => .error (.refused .taken p.text)
  | .ok (.free parent name) => .ok (t.put (parent ++ [name]) .directory)
  | .error fault => .error fault

/-- Makes a directory unless there is one already. -/
def ensureDirectory (t : FileTree) (cwd : Location) (p : Path) : Except FileFault FileTree :=
  match t.makeDirectory cwd p with
  | .ok t => .ok t
  | .error .nullByte => .error .nullByte
  | .error fault =>
    match t.isDirectory? cwd p with
    | .ok true => .ok t
    | .ok false => .error fault
    | .error other => .error other

/-- Makes a directory with up to `depth` directories above it, unless there is one already. The
first component says what stands there now, the second what went wrong. -/
def makeDirectoriesFrom (t : FileTree) (cwd : Location) :
    (depth : Nat) → Path → FileTree × Option FileFault
  | 0, p => orAsBefore t (t.ensureDirectory cwd p)
  | depth + 1, p =>
    match t.makeDirectory cwd p with
    | .error (.refused .noEntry _) =>
      match t.makeDirectoriesFrom cwd depth p.parent with
      | (t, none) => orAsBefore t (t.ensureDirectory cwd p)
      | (t, some fault) => (t, some fault)
    | _ => orAsBefore t (t.ensureDirectory cwd p)
where
  /-- What stands there after one change: all as before where it is refused. -/
  orAsBefore (t : FileTree) : Except FileFault FileTree → FileTree × Option FileFault
    | .ok t => (t, none)
    | .error fault => (t, some fault)

/-- Makes a directory with those above it, unless there is one already. Directories that were made
before something went wrong stay. -/
def makeDirectoriesPartly (t : FileTree) (cwd : Location) (p : Path) :
    FileTree × Option FileFault :=
  t.makeDirectoriesFrom cwd p.parts.length p

/-- The same, where nothing goes wrong. -/
def makeDirectories (t : FileTree) (cwd : Location) (p : Path) : Except FileFault FileTree :=
  match t.makeDirectoriesPartly cwd p with
  | (t, none) => .ok t
  | (_, some fault) => .error fault

/-- Copies the file that a path leads to. -/
def copyFile (t : FileTree) (source target : Path) : Except FileFault FileTree :=
  match t.read [] source with
  | .ok bytes => t.write [] target bytes
  | .error fault => .error fault

/-- The names under the directory that a path leads to. -/
def listDirectory (t : FileTree) (p : Path) : List String :=
  match t.walk [] true p with
  | .ok (.node loc .directory) => t.names loc
  | _ => []

/-- Copies a directory to a new one, links replaced by what they lead to, names in `skipped` left
out at every level. What cannot be copied is passed over; the flag says whether that happened. Each
level makes the path two bytes longer at least, so that `depth` need not exceed half of the limit
for paths. -/
def copyDirectoryFrom (skipped : List String) :
    (depth : Nat) → FileTree → (source target : Path) → Except FileFault (FileTree × Bool)
  | 0, _, source, _ => .error (.refused .nameTooLong source.text)
  | depth + 1, t, source, target =>
    match t.makeDirectory [] target with
    | .error fault => .error fault
    | .ok made =>
      let names := (t.listDirectory source).filter fun name => !skipped.contains name
      .ok <| names.foldl
        (fun (t, failed) name =>
          match t.isDirectory? [] (source.child name) with
          | .error _ => (t, true)
          | .ok true =>
            match copyDirectoryFrom skipped depth t (source.child name) (target.child name) with
            | .ok (t, below) => (t, failed || below)
            | .error _ => (t, true)
          | .ok false =>
            match t.copyFile (source.child name) (target.child name) with
            | .ok t => (t, failed)
            | .error _ => (t, true))
        (made, false)

/-- Copies a directory; the first component says what stands there now, the second what went
wrong. -/
def copyDirectory (t : FileTree) (skipped : List String) (source target : Path) :
    FileTree × Option FileFault :=
  match copyDirectoryFrom skipped (pathLimit / 2) t source target with
  | .error fault => (t, some fault)
  | .ok (t, false) => (t, none)
  | .ok (t, true) => (t, some .copyIncomplete)

end TwoStage.FileTree

import TwoStage.FileTree.Basic
import TwoStage.Path
import TwoStage.Text.Literal

/-!
# Walking paths

A path is walked component by component, from the root or from the working directory. A link on
the way is followed, at most forty of them; a link at the end is followed where the caller asks for
it. The walk ends at a node, or at a name that is free in a directory that exists.

## Main definitions

- `FileFault` — why something cannot be done with a path, or with a program
- `FileTree.walk` — where a path leads
- `FileTree.resolve` — a path without links, whether it exists or not
-/

namespace TwoStage

/-- The reasons that a file system gives. -/
inductive Errno where
  | noEntry
  | taken
  | notDirectory
  | isDirectory
  | nameTooLong
  | tooManyLinks
  deriving Repr, DecidableEq

namespace Errno

/-- The number of a reason. -/
def number : Errno → Nat
  | noEntry => 2
  | taken => 17
  | notDirectory => 20
  | isDirectory => 21
  | nameTooLong => 36
  | tooManyLinks => 40

/-- The wording of a reason. -/
def text : Errno → String
  | noEntry => "No such file or directory"
  | taken => "File exists"
  | notDirectory => "Not a directory"
  | isDirectory => "Is a directory"
  | nameTooLong => "File name too long"
  | tooManyLinks => "Too many levels of symbolic links"

end Errno

/-- Why something cannot be done with a path, or with a program. -/
inductive FileFault where
  | refused (why : Errno) (path : String)
  /-- Neither a path nor a word of a command line holds this character. -/
  | nullByte
  /-- The links of a path lead in a circle. -/
  | linkLoop (path : String)
  /-- Something under a directory could not be copied. -/
  | copyIncomplete
  deriving Repr, DecidableEq

/-- The wording of a fault. -/
def FileFault.message : FileFault → String
  | refused why path =>
    "[Errno " ++ toString why.number ++ "] " ++ why.text ++ ": " ++ literal path
  | nullByte => "embedded null byte"
  | linkLoop path => "Symlink loop from " ++ literal path
  | copyIncomplete => "copy incomplete"

namespace FileTree

/-- Where a path leads: to a node, or to a name that is free in a directory. -/
inductive Destination where
  | node (loc : Location) (node : Node)
  | free (parent : Location) (name : String)

/-- Where a walk stands when it meets a link: the directory of the link, its target, and what is
left of the path behind it. -/
inductive Halt where
  | done (destination : Destination)
  | link (parent : Location) (target : String) (rest : List String)

/-- The greatest number of bytes in a component. -/
def componentLimit : Nat := 255

/-- A path has fewer bytes than this. -/
def pathLimit : Nat := 4096

/-- The greatest number of links on a walk. -/
def linkLimit : Nat := 40

/-- The components of the target of a link; a slash at the end asks for a directory. -/
def targetParts (target : String) : List String :=
  let pieces := (Path.pieces target).filter (· ≠ "")
  if target.toList.getLast? = some '/' then pieces ++ ["."] else pieces

/-- Where the target of a link in a directory starts. -/
def targetStart (parent : Location) (target : String) : Location :=
  if target.toList.head? = some '/' then [] else parent

/-- Walks from an existing location up to the first link. -/
def descend (t : FileTree) (followLast : Bool) :
    (loc : Location) → List String → Except Errno Halt
  | loc, [] =>
    match t.node? loc with
    | some node => .ok (.done (.node loc node))
    | none => .error .noEntry
  | loc, name :: rest =>
    match t.node? loc with
    | some .directory =>
      if name = "." then descend t followLast loc rest
      else if name = ".." then descend t followLast loc.dropLast rest
      else if componentLimit < name.utf8ByteSize then .error .nameTooLong
      else
        match t.node? (loc ++ [name]) with
        | none => if rest.isEmpty then .ok (.done (.free loc name)) else .error .noEntry
        | some (.link target) =>
          if rest.isEmpty && !followLast then
            .ok (.done (.node (loc ++ [name]) (.link target)))
          else .ok (.link loc target rest)
        | some _ => descend t followLast (loc ++ [name]) rest
    | some _ => .error .notDirectory
    | none => .error .noEntry

/-- Walks from an existing location, following at most `links` links. -/
def walkFrom (t : FileTree) (followLast : Bool) :
    (links : Nat) → (loc : Location) → List String → Except Errno Destination
  | links, loc, parts =>
    match descend t followLast loc parts with
    | .error why => .error why
    | .ok (.done destination) => .ok destination
    | .ok (.link parent target rest) =>
      match links with
      | 0 => .error .tooManyLinks
      | links + 1 =>
        walkFrom t followLast links (targetStart parent target) (targetParts target ++ rest)

/-- Where a path leads from the working directory `cwd`. -/
def walk (t : FileTree) (cwd : Location) (followLast : Bool) (p : Path) :
    Except FileFault Destination :=
  let s := p.text
  if s.toList.contains '\x00' then .error .nullByte
  else if pathLimit ≤ s.utf8ByteSize then .error (.refused .nameTooLong s)
  else
    match walkFrom t followLast linkLimit (if p.isAbsolute then [] else cwd) p.parts with
    | .ok destination => .ok destination
    | .error why => .error (.refused why s)

/-- How deep the targets of links may lead through other links. -/
def resolveLimit : Nat := 4096

/-- What resolving a path comes to: a location, or, where the target of a link leads back to the
link, a path that is taken as it is written from there on. -/
inductive Resolution where
  | reached (loc : Location)
  | circled (loc : Location)

/-- Goes along components as they are written. -/
def takeAlong (loc : Location) (parts : List String) : Location :=
  parts.foldl (fun loc name =>
    if name = "." then loc else if name = ".." then loc.dropLast else loc ++ [name]) loc

/-- Goes along a path, `follow` being where a link leads. -/
def passAlong (t : FileTree) (follow : (parent : Location) → (name target : String) → Resolution) :
    (loc : Location) → List String → Resolution
  | loc, [] => .reached loc
  | loc, name :: rest =>
    if name = "." then passAlong t follow loc rest
    else if name = ".." then passAlong t follow loc.dropLast rest
    else
      match t.node? (loc ++ [name]) with
      | some (.link target) =>
        match follow loc name target with
        | .reached inner => passAlong t follow inner rest
        | .circled inner => .circled (takeAlong inner rest)
      | _ => passAlong t follow (loc ++ [name]) rest

/-- Replaces the links of a path by what their targets resolve to. `pending` are the links whose
targets are being resolved. -/
def resolveFrom (t : FileTree) :
    (depth : Nat) → (pending : List Location) → (loc : Location) → List String → Resolution
  | 0, _, loc, parts => passAlong t (fun parent name _ => .circled (parent ++ [name])) loc parts
  | depth + 1, pending, loc, parts =>
    passAlong t (fun parent name target =>
      let link := parent ++ [name]
      if pending.contains link then .circled link
      else resolveFrom t depth (link :: pending) (targetStart parent target) (targetParts target))
      loc parts

end FileTree

/-- The absolute path of a location. -/
def Path.ofLocation (loc : Location) : Path := ⟨1, loc⟩

namespace FileTree

/-- The location of a path with all links replaced; what does not exist stays as it is. Where links
lead in a circle, the path must not be one that a walk finds too many links on. -/
def resolve (t : FileTree) (cwd : Location) (p : Path) : Except FileFault Location :=
  if p.text.toList.contains '\x00' then .error .nullByte
  else
    match resolveFrom t resolveLimit [] (if p.isAbsolute then [] else cwd) p.parts with
    | .reached loc => .ok loc
    | .circled loc =>
      match t.walk [] true (.ofLocation loc) with
      | .error (.refused .tooManyLinks path) => .error (.linkLoop path)
      | _ => .ok loc

end FileTree

end TwoStage

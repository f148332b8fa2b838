import TwoStage.Text.Search
import TwoStage.Text.Lines

/-!
# Paths

A path is read at its slashes: empty components and `.` drop out, `..` stays. Exactly two leading
slashes are kept apart from one, more count as one.

## Main definitions

- `Path` — the leading slashes and the components
- `Path.ofText`, `Path.text` — from and to text
- `Path.join` — a path below another
- `Path.name`, `Path.parent`, `Path.suffix` — the last component, what is before it, its extension
-/

namespace TwoStage

/-- A path: how many slashes it starts with (none, one or two), and its components. -/
structure Path where
  slashes : Nat
  parts : List String
  deriving Repr, DecidableEq

namespace Path

/-- Whether a piece between two slashes is a component. -/
def isComponent (piece : String) : Bool := piece ≠ "" && piece ≠ "."

/-- The pieces of a text between its slashes. -/
def pieces (s : String) : List String := (splitAtEach '/' s.toList).map String.ofList

/-- The leading slashes that count. -/
def leadingSlashes (cs : List Char) : Nat :=
  match (cs.takeWhile (· == '/')).length with
  | 0 => 0
  | 2 => 2
  | _ => 1

/-- Reads a path. -/
def ofText (s : String) : Path := ⟨leadingSlashes s.toList, (pieces s).filter isComponent⟩

/-- The text of a path; the empty path is `.`. -/
def text (p : Path) : String :=
  if p.slashes = 0 && p.parts.isEmpty then "."
  else String.ofList (List.replicate p.slashes '/') ++ joinWith "/" p.parts

/-- Whether a path starts at the root. -/
def isAbsolute (p : Path) : Bool := p.slashes ≠ 0

/-- The path `q` seen from `p`; an absolute `q` stands for itself. -/
def join (p q : Path) : Path := if q.isAbsolute then q else ⟨p.slashes, p.parts ++ q.parts⟩

/-- The path of a component below `p`. -/
def child (p : Path) (name : String) : Path := ⟨p.slashes, p.parts ++ [name]⟩

/-- The last component; empty if there is none. -/
def name (p : Path) : String := p.parts.getLast?.getD ""

/-- The path without its last component. -/
def parent (p : Path) : Path := ⟨p.slashes, p.parts.dropLast⟩

/-- The extension of the last component, from its last dot on; a dot that starts or ends the
component opens no extension. -/
def suffix (p : Path) : String :=
  let reversed := p.name.toList.reverse
  let (after, before) := cutAt '.' reversed
  match before with
  | some (_ :: _) => if after.isEmpty then "" else String.ofList ('.' :: after.reverse)
  | _ => ""

end Path

end TwoStage

import TwoStage.Bindings
import TwoStage.Text.Lines

/-!
# File trees

What a file system holds: under each location a file with its bytes, a directory, or a link to
another path.

## Main definitions

- `Location` — the components of the way from the root
- `Node` — what can stand at a location
- `FileTree` — the nodes by location
- `FileTree.node?`, `FileTree.put`, `FileTree.removeBelow` — looking up, setting, removing
- `FileTree.firstFree` — a location that nothing has taken
- `FileTree.filesBelow` — the files under a location with their names seen from there
-/

namespace TwoStage

/-- The components of the way from the root. -/
abbrev Location := List String

/-- What can stand at a location. -/
inductive Node where
  | file (bytes : ByteArray)
  | directory
  | link (target : String)

/-- The nodes of a file system by their locations. The root is not listed: it is always there. -/
structure FileTree where
  entries : List (Location × Node)

namespace FileTree

/-- Nothing but the root. -/
def empty : FileTree := ⟨[]⟩

/-- What stands at a location. -/
def node? (t : FileTree) (loc : Location) : Option Node :=
  if loc.isEmpty then some .directory else t.entries.lookup loc

/-- The entries with a node set: in its old place if the location was taken, else at the end. -/
def putEntry (loc : Location) (node : Node) : List (Location × Node) → List (Location × Node)
  | [] => [(loc, node)]
  | (other, old) :: rest =>
    if other = loc then (loc, node) :: rest else (other, old) :: putEntry loc node rest

/-- Sets what stands at a location. -/
def put (t : FileTree) (loc : Location) (node : Node) : FileTree := ⟨putEntry loc node t.entries⟩

/-- Removes a location with all that is under it. -/
def removeBelow (t : FileTree) (loc : Location) : FileTree :=
  ⟨t.entries.filter fun entry => !loc.isPrefixOf entry.1⟩

/-- Whether nothing stands at a location or under it. -/
def isFree (t : FileTree) (loc : Location) : Bool :=
  t.entries.all fun entry => !loc.isPrefixOf entry.1

/-- The first number from `n` on whose location is free, at most `tries` numbers being passed
over. -/
def firstFree (t : FileTree) (place : Nat → Location) : (tries : Nat) → (n : Nat) → Nat
  | 0, n => n
  | tries + 1, n => if t.isFree (place n) then n else firstFree t place tries (n + 1)

/-- The names directly under a location. -/
def names (t : FileTree) (loc : Location) : List String :=
  t.entries.filterMap fun entry =>
    if entry.1.dropLast = loc then entry.1.getLast? else none

/-- A location as a text. -/
def nameOf (parts : List String) : String := joinWith "/" parts

/-- The files under a location, each with its name as seen from there. Links are not followed. -/
def filesBelow (t : FileTree) (loc : Location) : List (String × ByteArray) :=
  t.entries.filterMap fun entry =>
    match entry.2 with
    | .file bytes =>
      if loc.isPrefixOf entry.1 && loc ≠ entry.1 then
        some (nameOf (entry.1.drop loc.length), bytes)
      else none
    | _ => none

/-- The same in order of the names. -/
def sortedFilesBelow (t : FileTree) (loc : Location) : List (String × ByteArray) :=
  Bindings.sorted (t.filesBelow loc)

theorem lookup_putEntry_self (loc : Location) (node : Node) (entries : List (Location × Node)) :
    (putEntry loc node entries).lookup loc = some node := by
  induction entries with
  | nil => simp [putEntry]
  | cons entry rest ih =>
    obtain ⟨other, old⟩ := entry
    by_cases h : other = loc
    · simp [putEntry, h]
    · have h' : (loc == other) = false := by simpa using Ne.symm h
      simp [putEntry, h, List.lookup_cons, h', ih]

theorem lookup_putEntry_of_ne {loc other : Location} (node : Node)
    (entries : List (Location × Node)) (h : other ≠ loc) :
    (putEntry loc node entries).lookup other = entries.lookup other := by
  have hb : (other == loc) = false := by simpa using h
  induction entries with
  | nil => simp [putEntry, List.lookup_cons, hb]
  | cons entry rest ih =>
    obtain ⟨first, old⟩ := entry
    by_cases hf : first = loc
    · subst hf
      simp [putEntry, List.lookup_cons, hb]
    · cases hc : other == first <;> simp [putEntry, hf, List.lookup_cons, hc, ih]

theorem node?_put_self {t : FileTree} {loc : Location} (node : Node) (h : loc ≠ []) :
    (t.put loc node).node? loc = some node := by
  simp [node?, put, h, lookup_putEntry_self]

theorem node?_put_of_ne {t : FileTree} {loc other : Location} (node : Node) (h : other ≠ loc) :
    (t.put loc node).node? other = t.node? other := by
  simp [node?, put, lookup_putEntry_of_ne node _ h]

end FileTree

end TwoStage

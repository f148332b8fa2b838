import TwoStage.FileTree.Files

/-!
# Writing files

Whether a file can be written at a path does not depend on its bytes. Making directories touches no
file: a directory is made only under a name that is free, so that every location holds the same
bytes before and after.

## Main definitions

- `FileTree.takesFile` — whether a file can be written at a path
- `FileTree.SameFiles` — trees with the same files, whatever directories they have

## Main statements

- `FileTree.isOk_write` — writing succeeds where the path takes a file
- `FileTree.stands_of_walk` — a tree holds what a walk through it ends at
- `FileTree.makeDirectoriesPartly_induct` — making directories puts each where nothing stood
- `FileTree.sameFiles_makeDirectoriesPartly` — making directories touches no file
-/

namespace TwoStage.FileTree

/-- Whether a file can be written at a path, whatever its bytes. -/
def takesFile (t : FileTree) (cwd : Location) (p : Path) : Bool := (t.write cwd p .empty).isOk

/-- The bytes of the file at a location. -/
def file? (t : FileTree) (loc : Location) : Option ByteArray :=
  match t.node? loc with
  | some (.file bytes) => some bytes
  | _ => none

/-- Trees in which every location holds the same file, or none. -/
def SameFiles (t t' : FileTree) : Prop := ∀ loc, t'.file? loc = t.file? loc

theorem isOk_write (t : FileTree) (cwd : Location) (p : Path) (bytes : ByteArray) :
    (t.write cwd p bytes).isOk = t.takesFile cwd p := by
  rw [takesFile, write, write]
  cases t.walk cwd true p with
  | error fault => rfl
  | ok destination =>
    cases destination with
    | free parent name => rfl
    | node loc node => cases node <;> rfl

-- ════════════════════════════════════════════════════════════════════════
-- Where walks end
-- ════════════════════════════════════════════════════════════════════════

/-- What a destination says of a tree: the node stands at its location, or nothing stands under the
free name. -/
def Destination.Stands (t : FileTree) : Destination → Prop
  | .node loc found => t.node? loc = some found
  | .free parent name => t.node? (parent ++ [name]) = none

private theorem stands_of_descend {t : FileTree} {followLast : Bool} {parts : List String}
    {loc : Location} {destination : Destination}
    (h : t.descend followLast loc parts = .ok (.done destination)) : destination.Stands t := by
  fun_induction descend t followLast loc parts with
  | case1 loc node hnode =>
    cases h
    exact hnode
  | case2 | case5 | case7 | case9 | case11 | case12 => cases h
  | case3 _ _ _ ih | case4 _ _ _ _ ih | case10 _ _ _ _ _ _ _ _ _ _ ih => exact ih h
  | case6 loc name rest hhere hdot hup hshort hnone hlast =>
    cases h
    exact hnone
  | case8 loc name rest hhere hdot hup hshort target hlink hlast =>
    cases h
    exact hlink

/-- A walk is a descent, or a descent to a link that is followed by a walk along its target. -/
theorem walkFrom_cases {t : FileTree} {followLast : Bool} {links : Nat} {loc : Location}
    {parts : List String} {destination : Destination}
    (h : t.walkFrom followLast links loc parts = .ok destination) :
    t.descend followLast loc parts = .ok (.done destination) ∨
      ∃ less parent target rest, links = less + 1 ∧
        t.descend followLast loc parts = .ok (.link parent target rest) ∧
        t.walkFrom followLast less (targetStart parent target) (targetParts target ++ rest) =
          .ok destination := by
  fun_induction walkFrom t followLast links loc parts with
  | case1 | case3 => cases h
  | case2 links loc parts ended hdone =>
    cases h
    exact Or.inl hdone
  | case4 loc parts parent target rest hmet links => exact Or.inr ⟨_, _, _, _, rfl, hmet, h⟩

/-- What is shown of walks along their links: of the last part, which meets none, and of a part that
is followed by a link with the rest of the walk behind it. -/
theorem walkFrom_induct {t : FileTree} {followLast : Bool} {destination : Destination}
    {motive : Nat → Location → List String → Prop}
    (hlast : ∀ links loc parts, t.descend followLast loc parts = .ok (.done destination) →
      motive links loc parts)
    (hlink : ∀ links loc parts parent target rest,
      t.descend followLast loc parts = .ok (.link parent target rest) →
      motive links (targetStart parent target) (targetParts target ++ rest) →
      motive (links + 1) loc parts)
    {links : Nat} {loc : Location} {parts : List String}
    (h : t.walkFrom followLast links loc parts = .ok destination) : motive links loc parts := by
  induction links generalizing loc parts with
  | zero =>
    rcases walkFrom_cases h with hdone | ⟨less, _, _, _, hless, -⟩
    · exact hlast _ _ _ hdone
    · cases hless
  | succ links ih =>
    rcases walkFrom_cases h with hdone | ⟨less, parent, target, rest, hless, hmet, hrest⟩
    · exact hlast _ _ _ hdone
    · cases hless
      exact hlink _ _ _ _ _ _ hmet (ih hrest)

theorem walkFrom_of_done {t : FileTree} {followLast : Bool} {loc : Location} {parts : List String}
    {destination : Destination} (h : t.descend followLast loc parts = .ok (.done destination))
    (links : Nat) : t.walkFrom followLast links loc parts = .ok destination := by
  cases links <;> rw [walkFrom, h]

theorem walkFrom_of_link {t : FileTree} {followLast : Bool} {loc parent : Location}
    {parts rest : List String} {target : String}
    (h : t.descend followLast loc parts = .ok (.link parent target rest)) (links : Nat) :
    t.walkFrom followLast (links + 1) loc parts =
      t.walkFrom followLast links (targetStart parent target) (targetParts target ++ rest) := by
  rw [walkFrom, h]

private theorem stands_of_walkFrom {t : FileTree} {followLast : Bool} {links : Nat}
    {parts : List String} {loc : Location} {destination : Destination}
    (h : t.walkFrom followLast links loc parts = .ok destination) : destination.Stands t :=
  walkFrom_induct (motive := fun _ _ _ => destination.Stands t)
    (fun _ _ _ hdone => stands_of_descend hdone) (fun _ _ _ _ _ _ _ ih => ih) h

/-- A path is walked from the root or from the working directory, unless it is refused for its
characters or for its length. -/
theorem walk_eq_ok_iff_walkFrom {t : FileTree} {cwd : Location} {followLast : Bool} {p : Path}
    {destination : Destination} :
    t.walk cwd followLast p = .ok destination ↔
      p.text.toList.contains '\x00' = false ∧ p.text.utf8ByteSize < pathLimit ∧
        t.walkFrom followLast linkLimit (if p.isAbsolute then [] else cwd) p.parts =
          .ok destination := by
  simp only [walk]
  cases p.text.toList.contains '\x00' with
  | true => simp
  | false =>
    by_cases hshort : p.text.utf8ByteSize < pathLimit
    · rw [if_neg Bool.false_ne_true, if_neg (Nat.not_le.mpr hshort)]
      cases t.walkFrom followLast linkLimit (if p.isAbsolute then [] else cwd) p.parts <;>
        simp [hshort]
    · simp [hshort, Nat.not_lt.mp hshort]

/-- The tree holds what a walk through it ends at. -/
theorem stands_of_walk {t : FileTree} {cwd : Location} {followLast : Bool} {p : Path}
    {destination : Destination} (h : t.walk cwd followLast p = .ok destination) :
    destination.Stands t :=
  stands_of_walkFrom (walk_eq_ok_iff_walkFrom.mp h).2.2

/-- Nothing stands under the free name that a walk ends at. -/
theorem node?_of_walk_free {t : FileTree} {cwd : Location} {followLast : Bool} {p : Path}
    {parent : Location} {name : String}
    (h : t.walk cwd followLast p = .ok (.free parent name)) :
    t.node? (parent ++ [name]) = none := stands_of_walk h

-- ════════════════════════════════════════════════════════════════════════
-- Directories
-- ════════════════════════════════════════════════════════════════════════

theorem SameFiles.refl (t : FileTree) : t.SameFiles t := fun _ => rfl

theorem SameFiles.trans {t t' t'' : FileTree} (h : t.SameFiles t') (h' : t'.SameFiles t'') :
    t.SameFiles t'' := fun loc => (h' loc).trans (h loc)

theorem file?_eq_some_iff {t : FileTree} {loc : Location} {bytes : ByteArray} :
    t.file? loc = some bytes ↔ t.node? loc = some (.file bytes) := by
  rw [file?]
  split
  · next held hnode => simp [hnode]
  · next hnode =>
    constructor
    · intro h
      cases h
    · exact fun h => absurd h (hnode bytes)

/-- A file stands in a tree if it stands in one with the same files. -/
theorem SameFiles.node?_file {t t' : FileTree} (h : t.SameFiles t') {loc : Location}
    {bytes : ByteArray} (hfile : t'.node? loc = some (.file bytes)) :
    t.node? loc = some (.file bytes) :=
  file?_eq_some_iff.mp ((h loc).symm.trans (file?_eq_some_iff.mpr hfile))

theorem sameFiles_put_directory {t : FileTree} {loc : Location} (h : t.node? loc = none) :
    t.SameFiles (t.put loc .directory) := by
  intro other
  have hroot : loc ≠ [] := by
    rintro rfl
    cases h
  rw [file?, file?]
  by_cases hother : other = loc
  · rw [hother, node?_put_self _ hroot, h]
  · rw [node?_put_of_ne _ hother]

/-- A directory is made under the free name that a walk ends at. -/
theorem makeDirectory_eq_ok {t t' : FileTree} {cwd : Location} {p : Path}
    (h : t.makeDirectory cwd p = .ok t') :
    ∃ parent name, t.walk cwd false p = .ok (.free parent name) ∧
      t' = t.put (parent ++ [name]) .directory := by
  rw [makeDirectory] at h
  split at h
  · cases h
  · next parent name hwalk =>
    cases h
    exact ⟨parent, name, hwalk, rfl⟩
  · cases h

/-- A directory is made, or it is there. -/
theorem ensureDirectory_eq_ok {t t' : FileTree} {cwd : Location} {p : Path}
    (h : t.ensureDirectory cwd p = .ok t') :
    t.makeDirectory cwd p = .ok t' ∨ t.isDirectory? cwd p = .ok true ∧ t' = t := by
  rw [ensureDirectory] at h
  split at h
  · next hmade =>
    cases h
    exact Or.inl hmade
  · cases h
  · split at h
    · next hthere =>
      cases h
      exact Or.inr ⟨hthere, rfl⟩
    · cases h
    · cases h

theorem orAsBefore_eq_none {t t' : FileTree} {made : Except FileFault FileTree}
    (h : makeDirectoriesFrom.orAsBefore t made = (t', none)) : made = .ok t' := by
  cases made with
  | error fault => cases h
  | ok files =>
    cases h
    rfl

theorem sameFiles_makeDirectory {t t' : FileTree} {cwd : Location} {p : Path}
    (h : t.makeDirectory cwd p = .ok t') : t.SameFiles t' := by
  obtain ⟨parent, name, hwalk, rfl⟩ := makeDirectory_eq_ok h
  exact sameFiles_put_directory (node?_of_walk_free hwalk)

/-- What is shown of a tree while directories are made: each of them is put where nothing stood,
where a walk along the path or to what is above it has ended. -/
theorem makeDirectoriesPartly_induct {I : FileTree → Prop} {t : FileTree} (h : I t) (cwd : Location)
    (p : Path)
    (hput : ∀ (t : FileTree) (parts : List String) (parent : Location) (name : String), I t →
      parts <+: p.parts → t.walk cwd false ⟨p.slashes, parts⟩ = .ok (.free parent name) →
      I (t.put (parent ++ [name]) .directory)) :
    I (t.makeDirectoriesPartly cwd p).1 := by
  have hensure : ∀ {t : FileTree} {parts : List String}, I t → parts <+: p.parts →
      I (makeDirectoriesFrom.orAsBefore t (t.ensureDirectory cwd ⟨p.slashes, parts⟩)).1 := by
    intro t parts h hparts
    cases hensured : t.ensureDirectory cwd ⟨p.slashes, parts⟩ with
    | error fault => exact h
    | ok made =>
      rcases ensureDirectory_eq_ok hensured with hmade | ⟨-, rfl⟩
      · obtain ⟨parent, name, hwalk, rfl⟩ := makeDirectory_eq_ok hmade
        exact hput t parts parent name h hparts hwalk
      · exact h
  -- the climb to what is missing stops somewhere, and each step back makes one directory at most
  have hclimb : ∀ (depth : Nat) (parts : List String), parts <+: p.parts →
      I (t.makeDirectoriesFrom cwd depth ⟨p.slashes, parts⟩).1 := by
    intro depth
    induction depth with
    | zero => exact fun parts hparts => hensure h hparts
    | succ depth ih =>
      intro parts hparts
      have hfirst := ih parts.dropLast ((List.dropLast_prefix parts).trans hparts)
      rw [makeDirectoriesFrom]
      split
      · split
        · next made hmade =>
          rw [Path.parent] at hmade
          rw [hmade] at hfirst
          exact hensure hfirst hparts
        · next made fault hmade =>
          rw [Path.parent] at hmade
          rw [hmade] at hfirst
          exact hfirst
      · exact hensure h hparts
  exact hclimb p.parts.length p.parts (List.prefix_refl _)

/-- Making directories touches no file, also where one of them is refused. -/
theorem sameFiles_makeDirectoriesPartly (t : FileTree) (cwd : Location) (p : Path) :
    t.SameFiles (t.makeDirectoriesPartly cwd p).1 :=
  makeDirectoriesPartly_induct (.refl t) cwd p fun _ _ _ _ h _ hwalk =>
    h.trans (sameFiles_put_directory (node?_of_walk_free hwalk))

end TwoStage.FileTree

import TwoStage.Proofs.FileTree.Extension

/-!
# Directories that are there, and files that are not

Once directories were made at a path, the path leads to a directory, and making them again changes
nothing. A path that leads to something leads to something, too, if a link at its end is not
followed; that is what a new directory is refused for. A file can be written, where a path leads to
nothing, at a location at which nothing stands.

## Main statements

- `FileTree.walk_false_cases` — walks that leave a link at the end alone
- `FileTree.isDirectory?_of_makeDirectoriesPartly` — what directories that were made lead to
- `FileTree.makeDirectoriesPartly_of_isDirectory?` — making what is there
- `FileTree.TakesAt.node?_of_exists?` — where a file is new
-/

namespace TwoStage.FileTree

variable {t t' : FileTree} {cwd : Location} {p : Path}

-- ════════════════════════════════════════════════════════════════════════
-- Links at the end
-- ════════════════════════════════════════════════════════════════════════

/-- A descent that leaves a link at the end alone goes as one that follows it, or ends there. -/
theorem descend_false_cases (t : FileTree) (loc : Location) (parts : List String) :
    t.descend false loc parts = t.descend true loc parts ∨
      ∃ place target, t.descend false loc parts = .ok (.done (.node place (.link target))) := by
  induction parts generalizing loc with
  | nil => exact Or.inl rfl
  | cons name rest ih =>
    simp only [descend]
    split
    · split
      · exact ih loc
      · split
        · exact ih loc.dropLast
        · split
          · exact Or.inl rfl
          · split
            · exact Or.inl rfl
            · cases rest with
              | nil => exact Or.inr ⟨_, _, rfl⟩
              | cons next more => exact Or.inl rfl
            · exact ih (loc ++ [name])
    · exact Or.inl rfl
    · exact Or.inl rfl

theorem walkFrom_false_cases (t : FileTree) (links : Nat) (loc : Location) (parts : List String) :
    t.walkFrom false links loc parts = t.walkFrom true links loc parts ∨
      ∃ place target, t.walkFrom false links loc parts = .ok (.node place (.link target)) := by
  induction links generalizing loc parts with
  | zero =>
    rcases t.descend_false_cases loc parts with hsame | ⟨place, target, hmet⟩
    · rw [walkFrom, walkFrom, hsame]
      exact Or.inl rfl
    · exact Or.inr ⟨place, target, walkFrom_of_done hmet 0⟩
  | succ links ih =>
    rcases t.descend_false_cases loc parts with hsame | ⟨place, target, hmet⟩
    · rw [walkFrom, walkFrom, hsame]
      split
      · exact Or.inl rfl
      · exact Or.inl rfl
      · exact ih _ _
    · exact Or.inr ⟨place, target, walkFrom_of_done hmet _⟩

/-- A walk that leaves a link at the end alone goes as one that follows it, or ends there. -/
theorem walk_false_cases (t : FileTree) (cwd : Location) (p : Path) :
    t.walk cwd false p = t.walk cwd true p ∨
      ∃ place target, t.walk cwd false p = .ok (.node place (.link target)) := by
  simp only [walk]
  split
  · exact Or.inl rfl
  · split
    · exact Or.inl rfl
    · rcases t.walkFrom_false_cases linkLimit (if p.isAbsolute then [] else cwd) p.parts with
        hsame | ⟨place, target, hmet⟩
      · rw [hsame]
        exact Or.inl rfl
      · rw [hmet]
        exact Or.inr ⟨place, target, rfl⟩

-- ════════════════════════════════════════════════════════════════════════
-- Making directories
-- ════════════════════════════════════════════════════════════════════════

/-- Directories are still there in a tree that has the same ways. -/
theorem SameWays.isDirectory? (h : t.SameWays t') (hd : t.isDirectory? cwd p = .ok true) :
    t'.isDirectory? cwd p = .ok true := by
  obtain ⟨place, hwalk⟩ := isDirectory?_eq_true_iff_walk.mp hd
  have hstands : t.node? place = some .directory := stands_of_walk hwalk
  exact isDirectory?_eq_true_iff_walk.mpr ⟨place, h.walk hwalk (h _ _ hstands (by simp))⟩

/-- A path at which a directory was made leads to it. -/
theorem isDirectory?_of_makeDirectory (h : t.makeDirectory cwd p = .ok t') :
    t'.isDirectory? cwd p = .ok true := by
  obtain ⟨parent, name, hwalk, rfl⟩ := makeDirectory_eq_ok h
  have hfollowed : t.walk cwd true p = .ok (.free parent name) := by
    rcases t.walk_false_cases cwd p with hsame | ⟨place, target, hmet⟩
    · exact hsame.symm.trans hwalk
    · cases hmet.symm.trans hwalk
  have htakes : t.TakesAt cwd p (parent ++ [name]) := ⟨_, hfollowed, rfl⟩
  have hmade := htakes.walk (.put .directory htakes.node?.2)
    (node?_put_self _ htakes.node?.1) (by simp)
  exact isDirectory?_eq_true_iff_walk.mpr ⟨_, hmade⟩

theorem isDirectory?_of_ensureDirectory (h : t.ensureDirectory cwd p = .ok t') :
    t'.isDirectory? cwd p = .ok true := by
  rcases ensureDirectory_eq_ok h with hmade | ⟨hthere, rfl⟩
  · exact isDirectory?_of_makeDirectory hmade
  · exact hthere

/-- A path at which directories were made leads to a directory. -/
theorem isDirectory?_of_makeDirectoriesPartly (h : t.makeDirectoriesPartly cwd p = (t', none)) :
    t'.isDirectory? cwd p = .ok true := by
  rw [makeDirectoriesPartly] at h
  -- whatever was made above it, the last step is the directory itself
  cases hdepth : p.parts.length with
  | zero =>
    rw [hdepth, makeDirectoriesFrom] at h
    exact isDirectory?_of_ensureDirectory (orAsBefore_eq_none h)
  | succ depth =>
    rw [hdepth, makeDirectoriesFrom] at h
    split at h
    · split at h
      · exact isDirectory?_of_ensureDirectory (orAsBefore_eq_none h)
      · cases h
    · exact isDirectory?_of_ensureDirectory (orAsBefore_eq_none h)

/-- Where there is a directory, making it is refused for nothing but that, so that nothing is made
above it either. -/
theorem makeDirectory_of_isDirectory? (h : t.isDirectory? cwd p = .ok true) :
    t.makeDirectory cwd p = .error (.refused .taken p.text) := by
  obtain ⟨place, hwalk⟩ := isDirectory?_eq_true_iff_walk.mp h
  rw [makeDirectory]
  rcases t.walk_false_cases cwd p with hsame | ⟨other, target, hmet⟩
  · rw [hsame, hwalk]
  · rw [hmet]

/-- Making directories that are there changes nothing. -/
theorem makeDirectoriesPartly_of_isDirectory? (h : t.isDirectory? cwd p = .ok true) :
    t.makeDirectoriesPartly cwd p = (t, none) := by
  have hmake := makeDirectory_of_isDirectory? h
  have hensure : t.ensureDirectory cwd p = .ok t := by
    rw [ensureDirectory, hmake]
    dsimp only
    rw [h]
  rw [makeDirectoriesPartly]
  cases p.parts.length with
  | zero => rw [makeDirectoriesFrom, hensure, makeDirectoriesFrom.orAsBefore]
  | succ depth =>
    rw [makeDirectoriesFrom, hmake]
    dsimp only
    rw [hensure, makeDirectoriesFrom.orAsBefore]

-- ════════════════════════════════════════════════════════════════════════
-- Files that are not there
-- ════════════════════════════════════════════════════════════════════════

/-- Where a path leads to nothing, the location at which a file can be written is free. -/
theorem TakesAt.node?_of_exists? {place : Location} (htakes : t.TakesAt cwd p place)
    (h : t.exists? cwd p = .ok false) : t.node? place = none := by
  obtain ⟨destination, hwalk, hat⟩ := htakes
  cases destination with
  | free parent name =>
    obtain rfl : parent ++ [name] = place := hat
    exact node?_of_walk_free hwalk
  | node loc node =>
    rw [exists?, find?, hwalk] at h
    cases h

/-- Where a question about a path is refused, no file is written. -/
theorem takesFile_of_exists?_error {fault : FileFault} (h : t.exists? cwd p = .error fault) :
    t.takesFile cwd p = false := by
  rw [exists?, find?] at h
  rw [takesFile, write]
  split at h
  · cases h
  · cases h
  · next hwalk =>
    rw [hwalk]
    rfl

end TwoStage.FileTree

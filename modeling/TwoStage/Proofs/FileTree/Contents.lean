import Mathlib.Data.Set.Insert
import TwoStage.FileTree.Walk
import TwoStage.Proofs.Digest

/-!
# What a directory holds

The files of a directory are those that are met on the way down from it through directories: a link
is neither a file nor a way down. Their names, as seen from the directory, and their bytes decide
the digest of the directory, and nothing else does: neither where the directory stands, nor the
order in which its names are listed, nor its links, nor its empty directories. The other way round
the digest tells the names and the bytes, unless two of the byte strings that are hashed collide.

## Main definitions

- `FileTree.Meets` — a file that is met on the way down from a location
- `FileTree.contents` — the names and the bytes of all of them
- `FileTree.digestAt` — the digest of the tree that a path leads to

## Main statements

- `FileTree.digest_congr` — the contents decide the digest
- `FileTree.contents_eq_of_digest_eq` — the digest tells the contents
- `FileTree.contents_of_perm`, `FileTree.contents_put` — listing order, links, empty directories
- `FileTree.digestAt_identifies` — digests of directories anywhere, in any two trees
-/

namespace TwoStage.FileTree

/-- A file that is met on the way down from a location, going through directories only. -/
inductive Meets (t : FileTree) : Location → List String → ByteArray → Prop
  | file {loc : Location} {name : String} {bytes : ByteArray}
      (hfile : t.node? (loc ++ [name]) = some (.file bytes)) : Meets t loc [name] bytes
  | step {loc : Location} {name : String} {rel : List String} {bytes : ByteArray}
      (hdirectory : t.node? (loc ++ [name]) = some .directory)
      (hrest : Meets t (loc ++ [name]) rel bytes) : Meets t loc (name :: rel) bytes

/-- The files that are met below a location, each by its name as seen from there with its bytes. -/
def contents (t : FileTree) (loc : Location) : Set (String × ByteArray) :=
  {file | ∃ rel, file.1 = nameOf rel ∧ t.Meets loc rel file.2}

/-- The digest of the tree that a path leads to, all links of the path being followed. -/
def digestAt (t : FileTree) (cwd : Location) (root : Path) : Except FileFault String :=
  (t.resolve cwd root).map t.digest

-- ════════════════════════════════════════════════════════════════════════
-- The way down
-- ════════════════════════════════════════════════════════════════════════

theorem node?_of_meets {t : FileTree} {loc : Location} {rel : List String} {bytes : ByteArray}
    (hmeets : t.Meets loc rel bytes) : t.node? (loc ++ rel) = some (.file bytes) := by
  induction hmeets with
  | file hfile => exact hfile
  | step _ _ ih => rwa [List.append_assoc] at ih

namespace Sound

variable {t : FileTree} (h : t.Sound) {loc : Location}

include h

/-- Each file under a directory is met on the way down: only directories stand above it. -/
theorem meets_of_node? {rel : List String} {bytes : ByteArray} (hrel : rel ≠ [])
    (hnode : t.node? (loc ++ rel) = some (.file bytes)) : t.Meets loc rel bytes := by
  induction rel generalizing loc with
  | nil => exact absurd rfl hrel
  | cons name rest ih =>
    by_cases hrest : rest = []
    · subst hrest
      exact .file hnode
    · rw [List.append_cons] at hnode
      exact .step (h.leads_append rest hrest hnode) (ih hrest hnode)

theorem meets_iff (hloc : t.node? loc = some .directory) {rel : List String} {bytes : ByteArray} :
    t.Meets loc rel bytes ↔ t.node? (loc ++ rel) = some (.file bytes) := by
  refine ⟨node?_of_meets, fun hnode => h.meets_of_node? ?_ hnode⟩
  rintro rfl
  rw [List.append_nil, hloc] at hnode
  cases hnode

theorem contents_eq (hloc : t.node? loc = some .directory) :
    t.contents loc = {file | file ∈ t.filesBelow loc} := by
  ext ⟨name, bytes⟩
  rw [Set.mem_ofPred_eq, h.mem_filesBelow_iff hloc]
  exact exists_congr fun rel => and_congr_right fun _ => h.meets_iff hloc

/-- The list for the digest of a directory has its contents. -/
theorem mem_contents_iff (hloc : t.node? loc = some .directory) (file : String × ByteArray) :
    file ∈ t.contents loc ↔ file ∈ t.sortedFilesBelow loc := by
  rw [h.contents_eq hloc, sortedFilesBelow, Bindings.mem_sorted, Set.mem_ofPred_eq]

end Sound

-- ════════════════════════════════════════════════════════════════════════
-- Digests and contents
-- ════════════════════════════════════════════════════════════════════════

section

variable {t t' : FileTree} {loc loc' : Location} (h : t.Sound) (h' : t'.Sound)
  (hloc : t.node? loc = some .directory) (hloc' : t'.node? loc' = some .directory)

include h h' hloc hloc'

theorem contents_eq_iff :
    t.contents loc = t'.contents loc' ↔ t.sortedFilesBelow loc = t'.sortedFilesBelow loc' := by
  constructor
  · intro heq
    refine eq_of_mem_iff_of_pairwise (h.lists hloc).sorted (h'.lists hloc').sorted fun file => ?_
    rw [← h.mem_contents_iff hloc, ← h'.mem_contents_iff hloc', heq]
  · intro heq
    ext file
    rw [h.mem_contents_iff hloc, h'.mem_contents_iff hloc', heq]

/-- The contents decide the digest, whatever else stands in the directories. -/
theorem digest_congr (heq : t.contents loc = t'.contents loc') : t.digest loc = t'.digest loc' := by
  rw [digest, digest, (contents_eq_iff h h' hloc hloc').mp heq]

/-- The digest tells the contents, unless something that is hashed for it collides. -/
theorem contents_eq_of_digest_eq (hnull : ∀ file ∈ t.contents loc, '\x00' ∉ file.1.toList)
    (hnull' : ∀ file ∈ t'.contents loc', '\x00' ∉ file.1.toList)
    (hcollision :
      NoCollision (hashed (t.sortedFilesBelow loc) ++ hashed (t'.sortedFilesBelow loc')))
    (heq : t.digest loc = t'.digest loc') : t.contents loc = t'.contents loc' := by
  rw [contents_eq_iff h h' hloc hloc']
  refine eq_of_sha256_digestInput (fun file hfile => ?_) (fun file hfile => ?_) hcollision heq
  · exact hnull file ((h.mem_contents_iff hloc file).mpr hfile)
  · exact hnull' file ((h'.mem_contents_iff hloc' file).mpr hfile)

end

-- ════════════════════════════════════════════════════════════════════════
-- What leaves the contents as they are
-- ════════════════════════════════════════════════════════════════════════

section

variable {t t' : FileTree} {loc : Location} (h : t.Sound) (h' : t'.Sound)
  (hloc : t.node? loc = some .directory)

include h h' hloc

/-- The contents are all that is said of the files that stand somewhere below. -/
theorem contents_eq_of_files (hloc' : t'.node? loc = some .directory)
    (hfiles : ∀ rel bytes, t.node? (loc ++ rel) = some (.file bytes) ↔
      t'.node? (loc ++ rel) = some (.file bytes)) : t.contents loc = t'.contents loc := by
  ext file
  refine exists_congr fun rel => and_congr_right fun _ => ?_
  rw [h.meets_iff hloc, h'.meets_iff hloc', hfiles]

/-- The order in which a tree lists its nodes does not matter. -/
theorem contents_of_perm (hperm : t.entries.Perm t'.entries) :
    t.contents loc = t'.contents loc := by
  have hsame : ∀ place node, t.node? place = some node ↔ t'.node? place = some node := by
    intro place node
    by_cases hplace : place = []
    · subst hplace
      rfl
    · have hmem : (place, node) ∈ t.entries ↔ (place, node) ∈ t'.entries := hperm.mem_iff
      simpa [h.mem_entries_iff, h'.mem_entries_iff, hplace] using hmem
  exact contents_eq_of_files h h' hloc ((hsame _ _).mp hloc) fun rel bytes => hsame _ _

end

/-- A link or a directory in a place without a file does not matter. -/
theorem contents_put {t : FileTree} {loc place : Location} {node : Node} (h : t.Sound)
    (hput : (t.put place node).Sound) (hloc : t.node? loc = some .directory)
    (hloc' : (t.put place node).node? loc = some .directory) (hplace : place ≠ [])
    (hold : ∀ bytes, t.node? place ≠ some (.file bytes)) (hnode : ∀ bytes, node ≠ .file bytes) :
    (t.put place node).contents loc = t.contents loc := by
  refine (contents_eq_of_files h hput hloc hloc' fun rel bytes => ?_).symm
  by_cases hhere : loc ++ rel = place
  · rw [hhere, node?_put_self node hplace]
    exact iff_of_false (hold bytes) fun heq => hnode bytes (Option.some.inj heq)
  · rw [node?_put_of_ne node hhere]

-- ════════════════════════════════════════════════════════════════════════
-- Directories anywhere
-- ════════════════════════════════════════════════════════════════════════

theorem digestAt_eq {t : FileTree} {cwd loc : Location} {root : Path}
    (hroot : t.resolve cwd root = .ok loc) : t.digestAt cwd root = .ok (t.digest loc) := by
  rw [digestAt, hroot]
  rfl

/-- The digests of two directories, each in a tree of its own and reached by a path of its own, are
equal if the same files are met below them, under the same names with the same bytes. And they are
equal only then, unless two of the byte strings that are hashed for them collide. -/
theorem digestAt_identifies {t t' : FileTree} {cwd cwd' loc loc' : Location} {root root' : Path}
    (h : t.Sound) (h' : t'.Sound) (hroot : t.resolve cwd root = .ok loc)
    (hroot' : t'.resolve cwd' root' = .ok loc') (hloc : t.node? loc = some .directory)
    (hloc' : t'.node? loc' = some .directory)
    (hnull : ∀ file ∈ t.contents loc, '\x00' ∉ file.1.toList)
    (hnull' : ∀ file ∈ t'.contents loc', '\x00' ∉ file.1.toList) :
    ∃ digest digest', t.digestAt cwd root = .ok digest ∧ t'.digestAt cwd' root' = .ok digest' ∧
      (t.contents loc = t'.contents loc' → digest = digest') ∧
      (NoCollision (hashed (t.sortedFilesBelow loc) ++ hashed (t'.sortedFilesBelow loc')) →
        (digest = digest' ↔ t.contents loc = t'.contents loc')) := by
  refine ⟨t.digest loc, t'.digest loc', digestAt_eq hroot, digestAt_eq hroot',
    digest_congr h h' hloc hloc', fun hcollision => ?_⟩
  exact ⟨contents_eq_of_digest_eq h h' hloc hloc' hnull hnull' hcollision,
    digest_congr h h' hloc hloc'⟩

/-- A directory `a` with one file in it, which is empty. -/
def plainTree : FileTree :=
  ⟨[(["a"], .directory), (["a", "src"], .directory), (["a", "src", "main.rs"], .file .empty)]⟩

/-- The same file in a directory `b`, with a link and an empty directory beside it, and a link `c`
to `b`. -/
def movedTree : FileTree :=
  ⟨[(["c"], .link "b"), (["b"], .directory), (["b", "empty"], .directory),
    (["b", "src"], .directory), (["b", "src", "lib.rs"], .link "main.rs"),
    (["b", "src", "main.rs"], .file .empty)]⟩

/-- The directory `a` without the file. -/
def strippedTree : FileTree :=
  ⟨[(["a"], .directory), (["a", "src"], .directory)]⟩

-- One evaluation for all of this, and one for each hash below.
theorem check_trees : (plainTree.Sound ∧ movedTree.Sound ∧ strippedTree.Sound) ∧
    plainTree.filesBelow ["a"] = [("src/main.rs", .empty)] ∧
    movedTree.filesBelow ["b"] = [("src/main.rs", .empty)] ∧
    strippedTree.filesBelow ["a"] = [] := by
  decide +kernel

theorem contents_plainTree : plainTree.contents ["a"] = {("src/main.rs", .empty)} := by
  obtain ⟨⟨hsound, -⟩, hfiles, -⟩ := check_trees
  have hloc : plainTree.node? ["a"] = some .directory := rfl
  rw [hsound.contents_eq hloc, hfiles]
  ext file
  exact List.mem_singleton

theorem contents_movedTree : movedTree.contents ["b"] = {("src/main.rs", .empty)} := by
  obtain ⟨⟨-, hsound, -⟩, -, hfiles, -⟩ := check_trees
  have hloc : movedTree.node? ["b"] = some .directory := rfl
  rw [hsound.contents_eq hloc, hfiles]
  ext file
  exact List.mem_singleton

theorem contents_strippedTree : strippedTree.contents ["a"] = ∅ := by
  obtain ⟨⟨-, -, hsound⟩, -, -, hfiles⟩ := check_trees
  have hloc : strippedTree.node? ["a"] = some .directory := rfl
  rw [hsound.contents_eq hloc, hfiles]
  ext file
  exact iff_of_false List.not_mem_nil (Set.notMem_empty file)

/-- The hash of the empty message. -/
theorem sha256_empty : sha256 .empty =
    "e3b0c44298fc1c149afbf4c8996fb92427ae41e4649b934ca495991b7852b855" := by
  decide +kernel

theorem noCollision_plainTree : NoCollision (hashed (plainTree.sortedFilesBelow ["a"]) ++
    hashed (strippedTree.sortedFilesBelow ["a"])) := by
  obtain ⟨-, hplain, -, hstripped⟩ := check_trees
  have hentry : digestInput [("src/main.rs", .empty)] = digestEntry "src/main.rs" .empty :=
    ByteArray.empty_append
  have hdiffer : sha256 (digestInput [("src/main.rs", .empty)]) ≠ sha256 .empty := by
    rw [hentry, digestEntry, sha256_empty]
    decide +kernel
  have hnodup : ([digestInput [("src/main.rs", .empty)], ByteArray.empty].map sha256).Nodup := by
    simpa using hdiffer
  rw [sortedFilesBelow, sortedFilesBelow, hplain, hstripped]
  refine noCollision_of_nodup ?_ hnodup
  simp [hashed, digestInput, Bindings.sorted, Bindings.insert]

/-- The moved directory has the digest that it had; without its file it has another one. -/
theorem digestAt_moved_stripped :
    plainTree.digestAt [] (.ofText "a") = movedTree.digestAt [] (.ofText "c") ∧
      plainTree.digestAt [] (.ofText "a") ≠ strippedTree.digestAt [] (.ofText "a") := by
  have hroot : plainTree.resolve [] (.ofText "a") = .ok ["a"] := rfl
  have hroot₂ : movedTree.resolve [] (.ofText "c") = .ok ["b"] := rfl
  have hroot₃ : strippedTree.resolve [] (.ofText "a") = .ok ["a"] := rfl
  obtain ⟨⟨hplain, hmoved, hstripped⟩, -⟩ := check_trees
  have hnull : ∀ file ∈ plainTree.contents ["a"], '\x00' ∉ file.1.toList := by
    simp [contents_plainTree]
  constructor
  · obtain ⟨first, second, hfirst, hsecond, hsame, -⟩ := digestAt_identifies hplain hmoved
      hroot hroot₂ rfl rfl hnull (by simp [contents_movedTree])
    have hcontents : plainTree.contents ["a"] = movedTree.contents ["b"] := by
      rw [contents_plainTree, contents_movedTree]
    rw [hfirst, hsecond, hsame hcontents]
  · obtain ⟨first, second, hfirst, hsecond, -, htell⟩ := digestAt_identifies hplain hstripped
      hroot hroot₃ rfl rfl hnull (by simp [contents_strippedTree])
    rw [hfirst, hsecond]
    intro heq
    have hcontents := (htell noCollision_plainTree).mp (Except.ok.inj heq)
    rw [contents_plainTree, contents_strippedTree] at hcontents
    exact Set.singleton_ne_empty _ hcontents

end TwoStage.FileTree

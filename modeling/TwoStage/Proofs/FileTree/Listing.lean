import Mathlib.Data.String.Basic
import TwoStage.Digest.Tree
import TwoStage.Proofs.Bindings
import TwoStage.Proofs.FileTree.Sound

/-!
# Lists of files

The files below a directory of a sound tree are listed with names that tell them apart, in the order
of these names. So the list, and with it the digest of the directory, says which files stand there
and what they hold, and nothing else decides them.

## Main definitions

- `FileTree.Lists` — the list of some files in the order of their names

## Main statements

- `FileTree.nameOf_inj` — different places have different names
- `FileTree.Lists.unique` — the files decide the list
- `FileTree.Sound.lists` — the list of the files below a directory
-/

namespace TwoStage.FileTree

/-- The list of files at some places, each once, in the order of their names. -/
structure Lists (listing : List (String × ByteArray)) (holds : List String → ByteArray → Prop) :
    Prop where
  sorted : listing.Pairwise fun a b => a.1 < b.1
  mem_iff : ∀ name bytes, (name, bytes) ∈ listing ↔ ∃ rel, name = nameOf rel ∧ holds rel bytes

/-- What an entry adds to the list of the files below a location. -/
def listed? (loc : Location) (entry : Location × Node) : Option (String × ByteArray) :=
  match entry.2 with
  | .file bytes =>
    if loc.isPrefixOf entry.1 && loc ≠ entry.1 then
      some (nameOf (entry.1.drop loc.length), bytes)
    else none
  | _ => none

-- ════════════════════════════════════════════════════════════════════════
-- Names of places
-- ════════════════════════════════════════════════════════════════════════

theorem splitOn_nameOf {parts : List String} (hne : parts ≠ []) (h : ∀ name ∈ parts, IsName name) :
    (nameOf parts).toList.splitOn '/' = parts.map String.toList := by
  rw [nameOf, toList_joinWith]
  refine List.splitOn_intercalate '/' (fun piece hpiece => ?_) (by simpa using hne)
  obtain ⟨name, hname, rfl⟩ := List.mem_map.mp hpiece
  exact (h name hname).2.2.2

/-- Different places have different names. -/
theorem nameOf_inj {parts other : List String} (hparts : parts ≠ []) (hother : other ≠ [])
    (hp : ∀ name ∈ parts, IsName name) (ho : ∀ name ∈ other, IsName name)
    (h : nameOf parts = nameOf other) : parts = other := by
  have hpieces : parts.map String.toList = other.map String.toList := by
    rw [← splitOn_nameOf hparts hp, h, splitOn_nameOf hother ho]
  exact List.map_injective_iff.mpr (fun _ _ => String.toList_injective) hpieces

-- ════════════════════════════════════════════════════════════════════════
-- Sorted lists
-- ════════════════════════════════════════════════════════════════════════

/-- Lists in the order of different names are equal if they have the same files. -/
theorem eq_of_mem_iff_of_pairwise {listing other : List (String × ByteArray)}
    (h : listing.Pairwise fun a b => a.1 < b.1) (ho : other.Pairwise fun a b => a.1 < b.1)
    (heq : ∀ file, file ∈ listing ↔ file ∈ other) : listing = other := by
  have hnodup : ∀ {files : List (String × ByteArray)},
      files.Pairwise (fun a b => a.1 < b.1) → files.Nodup := by
    intro files hfiles
    refine hfiles.imp ?_
    rintro a b hab rfl
    exact String.lt_irrefl _ hab
  exact List.Perm.eq_of_pairwise (fun a b _ _ hab hba => absurd hba (String.lt_asymm hab)) h ho
    ((List.perm_ext_iff_of_nodup (hnodup h) (hnodup ho)).mpr heq)

/-- Lists with the same files are equal. -/
theorem Lists.unique {listing other : List (String × ByteArray)}
    {holds held : List String → ByteArray → Prop} (h : Lists listing holds) (ho : Lists other held)
    (heq : ∀ rel bytes, holds rel bytes ↔ held rel bytes) : listing = other := by
  refine eq_of_mem_iff_of_pairwise h.sorted ho.sorted ?_
  rintro ⟨name, bytes⟩
  rw [h.mem_iff, ho.mem_iff]
  simp only [heq]

-- ════════════════════════════════════════════════════════════════════════
-- The files below a directory
-- ════════════════════════════════════════════════════════════════════════

theorem filesBelow_eq (t : FileTree) (loc : Location) :
    t.filesBelow loc = t.entries.filterMap (listed? loc) := rfl

/-- An entry is listed for a file below the location. -/
theorem listed?_eq_some_iff {loc : Location} {entry : Location × Node}
    {file : String × ByteArray} :
    listed? loc entry = some file ↔
      ∃ rel, rel ≠ [] ∧ entry = (loc ++ rel, .file file.2) ∧ file.1 = nameOf rel := by
  obtain ⟨place, node⟩ := entry
  obtain ⟨name, bytes⟩ := file
  cases node with
  | directory => simp [listed?]
  | link target => simp [listed?]
  | file held =>
    rw [listed?]
    constructor
    · intro hlisted
      dsimp only at hlisted
      split at hlisted
      · next hbelow =>
        cases hlisted
        rw [Bool.and_eq_true, List.isPrefixOf_iff_prefix, decide_eq_true_eq] at hbelow
        obtain ⟨⟨rel, rfl⟩, hne⟩ := hbelow
        exact ⟨rel, by simpa using hne, rfl, by rw [List.drop_left]⟩
      · cases hlisted
    · rintro ⟨rel, hrel, hplace, rfl⟩
      cases hplace
      simp [hrel]

namespace Sound

variable {t : FileTree} (h : t.Sound) {loc : Location}

include h

theorem mem_filesBelow_iff (hloc : t.node? loc = some .directory) {name : String}
    {bytes : ByteArray} :
    (name, bytes) ∈ t.filesBelow loc ↔
      ∃ rel, name = nameOf rel ∧ t.node? (loc ++ rel) = some (.file bytes) := by
  rw [filesBelow_eq, List.mem_filterMap]
  constructor
  · rintro ⟨entry, hentry, hlisted⟩
    obtain ⟨rel, -, rfl, hname⟩ := listed?_eq_some_iff.mp hlisted
    exact ⟨rel, hname, (h.mem_entries_iff.mp hentry).2⟩
  · rintro ⟨rel, rfl, hnode⟩
    have hrel : rel ≠ [] := by
      rintro rfl
      rw [List.append_nil, hloc] at hnode
      cases hnode
    exact ⟨(loc ++ rel, .file bytes), mem_entries_of_node? (by simp [hrel]) hnode,
      listed?_eq_some_iff.mpr ⟨rel, hrel, rfl, rfl⟩⟩

/-- The names of the files below a directory are different. -/
theorem nodup_filesBelow : ((t.filesBelow loc).map Prod.fst).Nodup := by
  rw [List.Nodup, List.pairwise_map, filesBelow_eq, List.pairwise_filterMap]
  refine (List.pairwise_map.mp h.distinct).imp_of_mem ?_
  intro first second hfirst hsecond hne file hfile other hother heq
  obtain ⟨rel, hrel, rfl, hname⟩ := listed?_eq_some_iff.mp hfile
  obtain ⟨rel', hrel', rfl, hname'⟩ := listed?_eq_some_iff.mp hother
  have hnames := h.named _ hfirst
  have hnames' := h.named _ hsecond
  rw [hname, hname'] at heq
  refine hne (congrArg (loc ++ ·) (nameOf_inj hrel hrel' ?_ ?_ heq))
  · exact fun part hpart => hnames part (List.mem_append_right _ hpart)
  · exact fun part hpart => hnames' part (List.mem_append_right _ hpart)

/-- The files below a directory are listed in the order of their names. -/
theorem lists (hloc : t.node? loc = some .directory) :
    Lists (t.sortedFilesBelow loc) fun rel bytes => t.node? (loc ++ rel) = some (.file bytes) := by
  refine ⟨Bindings.pairwise_lt_sorted h.nodup_filesBelow, fun name bytes => ?_⟩
  rw [sortedFilesBelow, Bindings.mem_sorted, h.mem_filesBelow_iff hloc]

end Sound

end TwoStage.FileTree

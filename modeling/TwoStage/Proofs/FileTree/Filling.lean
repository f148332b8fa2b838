import TwoStage.Proofs.FileTree.Extension
import TwoStage.Proofs.FileTree.Ways

/-!
# A location that is being filled

A location that nothing has taken is made a directory, and then directories are made and copies are
written below it. Whatever is done there, all that stood before still stands, nothing changes
elsewhere, and no link comes in.

## Main definitions

- `FileTree.FilledAt` — a tree in which a free location is being filled

## Main statements

- `FileTree.FilledAt.extends`, `FileTree.FilledAt.node?_elsewhere`, `FileTree.FilledAt.sameLinks` —
  what stays as it was
- `FileTree.FilledAt.makeDirectory`, `FileTree.FilledAt.makeDirectoriesPartly`,
  `FileTree.FilledAt.copyFile`, `FileTree.FilledAt.copyDirectoryFrom` — what fills it further
-/

namespace TwoStage.FileTree

/-- A tree in which a location is being filled that was free in another one. -/
structure FilledAt (t₀ t : FileTree) (loc : Location) : Prop where
  free : t₀.isFree loc = true
  ground : t.Ground loc
  within : ChangedWithin loc (t₀.put loc .directory) t

section

variable {t₀ t t' : FileTree} {loc : Location} (h : t₀.FilledAt t loc)

include h

/-- What stands in the first tree still stands while the location is filled. -/
theorem FilledAt.extends : t₀.Extends t := h.within.extends h.free

namespace FilledAt

/-- Nothing changes elsewhere. -/
theorem node?_elsewhere {other : Location} (hother : ¬ loc <+: other) :
    t.node? other = t₀.node? other := by
  rw [node?_eq_of_removeBelow_eq h.within.outside hother, node?_put_of_ne]
  rintro rfl
  exact hother (List.prefix_refl _)

/-- No link comes in. -/
theorem sameLinks : t₀.SameLinks t := by
  intro other target
  by_cases hbelow : loc <+: other
  · constructor
    · exact fun hlink => absurd hlink (h.ground.enclosed.linkless other target hbelow)
    · exact fun hlink => h.extends other _ hlink
  · rw [h.node?_elsewhere hbelow]

variable {rest : List String} (hrest : ∀ name ∈ rest, IsName name)

include hrest

theorem makeDirectory (hm : t.makeDirectory [] (Path.ofLocation (loc ++ rest)) = .ok t') :
    t₀.FilledAt t' loc :=
  ⟨h.free, (h.ground.makeDirectory_grownAt hrest hm).ground,
    h.within.trans (h.ground.enclosed.makeDirectory (plain_of_isName hrest) hm)⟩

theorem makeDirectoriesPartly {cwd : Location}
    (hm : t.makeDirectoriesPartly cwd (Path.ofLocation (loc ++ rest)) = (t', none)) :
    t₀.FilledAt t' loc := by
  have hwithin : ChangedWithin loc t
      (t.makeDirectoriesPartly cwd (Path.ofLocation (loc ++ rest))).1 :=
    h.ground.enclosed.makeDirectoriesPartly (plain_of_isName hrest)
  rw [hm] at hwithin
  exact ⟨h.free, (h.ground.makeDirectoriesPartly_eq_ok hrest hm).ground, h.within.trans hwithin⟩

theorem copyFile {source : Path}
    (hc : t.copyFile source (Path.ofLocation (loc ++ rest)) = .ok t') : t₀.FilledAt t' loc := by
  obtain ⟨bytes, -, -, -, hground⟩ := h.ground.copyFile_eq_ok hrest hc
  exact ⟨h.free, hground,
    h.within.trans (h.ground.enclosed.copyFile (plain_of_isName hrest) hc)⟩

theorem copyDirectoryFrom {skipped : List String} {depth : Nat} {source : Path} {failed : Bool}
    (hc : copyDirectoryFrom skipped depth t source (Path.ofLocation (loc ++ rest)) =
      .ok (t', failed)) : t₀.FilledAt t' loc :=
  ⟨h.free, (h.ground.copyDirectoryFrom_grownAt depth hrest hc).ground,
    h.within.trans (h.ground.enclosed.copyDirectoryFrom skipped depth (plain_of_isName hrest) hc)⟩

end FilledAt

end

end TwoStage.FileTree

import TwoStage.Proofs.FileTree.Reading

/-!
# Trees that hold another one

While a directory is filled, all that stood elsewhere stays. A path that led to something leads to
the same in the later tree: a walk looks only at what stands on its way.

## Main definitions

- `FileTree.Extends` — all that stands in a tree stands in another one

## Main statements

- `FileTree.Extends.find?`, `FileTree.Extends.exists?_eq_false` — where paths lead in the later tree,
  and what was missing before
- `FileTree.ChangedWithin.extends` — a free location is filled
- `FileTree.extends_makeDirectoriesPartly` — directories are made
-/

namespace TwoStage.FileTree

/-- All that stands in a tree stands in another one as well. -/
def Extends (t t' : FileTree) : Prop :=
  ∀ loc node, t.node? loc = some node → t'.node? loc = some node

/-- What changes within a location that was free is in no one's way. -/
theorem ChangedWithin.extends {t t' : FileTree} {loc : Location} (hfree : t.isFree loc = true)
    (h : ChangedWithin loc (t.put loc .directory) t') : t.Extends t' := by
  intro other node hnode
  by_cases hbelow : loc <+: other
  · by_cases hroot : other = []
    · subst hroot
      rw [← hnode]
      rfl
    · rw [node?_of_isFree hfree hroot hbelow] at hnode
      cases hnode
  · have hne : other ≠ loc := by
      rintro rfl
      exact hbelow (List.prefix_refl _)
    rw [node?_eq_of_removeBelow_eq h.outside hbelow, node?_put_of_ne _ hne, hnode]

namespace Extends

variable {t t' : FileTree} (h : t.Extends t')

include h

theorem sameWays : t.SameWays t' := fun loc node hnode _ => h loc node hnode

/-- A walk that ends at a node ends there in the later tree. -/
theorem walk {cwd : Location} {followLast : Bool} {p : Path} {place : Location} {node : Node}
    (hw : t.walk cwd followLast p = .ok (.node place node)) :
    t'.walk cwd followLast p = .ok (.node place node) :=
  h.sameWays.walk hw (h _ _ (stands_of_walk hw))

/-- A path that leads to something leads to the same in the later tree. -/
theorem find? {cwd : Location} {p : Path} {node : Node} (hf : t.find? cwd p = .ok (some node)) :
    t'.find? cwd p = .ok (some node) := by
  obtain ⟨place, hwalk⟩ := find?_eq_some_iff.mp hf
  exact find?_eq_some_iff.mpr ⟨place, h.walk hwalk⟩

/-- A descent that is refused for its names, and not for what is missing, is refused in the later
tree. -/
theorem descend_error {followLast : Bool} {loc : Location} {parts : List String} {why : Errno}
    (hd : t.descend followLast loc parts = .error why) (hentry : why ≠ .noEntry)
    (hdirectory : why ≠ .notDirectory) : t'.descend followLast loc parts = .error why := by
  fun_induction descend t followLast loc parts with
  | case1 => cases hd
  | case2 => exact absurd (Except.error.inj hd).symm hentry
  | case3 loc rest hhere ih =>
    rw [descend, h loc _ hhere]
    exact ih hd
  | case4 loc rest hhere hdot ih =>
    rw [descend, h loc _ hhere]
    exact ih hd
  | case5 loc name rest hhere hdot hup hlong =>
    rw [descend, h loc _ hhere]
    simp only [hdot, hup, hlong, if_false, if_true]
    exact hd
  | case6 => cases hd
  | case7 => exact absurd (Except.error.inj hd).symm hentry
  | case8 => cases hd
  | case9 => cases hd
  | case10 loc name rest hhere hdot hup hshort node hnolink hnode ih =>
    rw [descend, h loc _ hhere]
    simp only [hdot, hup, hshort, if_false]
    rw [h _ _ hnode]
    cases node with
    | link target => exact absurd rfl (hnolink target)
    | directory | file bytes => exact ih hd
  | case11 => exact absurd (Except.error.inj hd).symm hdirectory
  | case12 => exact absurd (Except.error.inj hd).symm hentry

theorem walkFrom_error {followLast : Bool} {links : Nat} {loc : Location} {parts : List String}
    {why : Errno} (hw : t.walkFrom followLast links loc parts = .error why)
    (hentry : why ≠ .noEntry) (hdirectory : why ≠ .notDirectory) (hlinks : why ≠ .tooManyLinks) :
    t'.walkFrom followLast links loc parts = .error why := by
  fun_induction FileTree.walkFrom t followLast links loc parts with
  | case1 links loc parts fault hd =>
    cases hw
    rw [FileTree.walkFrom, h.descend_error hd hentry hdirectory]
  | case2 => cases hw
  | case3 => exact absurd (Except.error.inj hw).symm hlinks
  | case4 loc parts parent target rest hmet links ih =>
    rw [FileTree.walkFrom, h.sameWays.descend hmet (by simp)]
    exact ih hw

/-- A walk that is refused for more than that nothing is there, is refused in the later tree. -/
theorem walk_error {cwd : Location} {followLast : Bool} {p : Path} {fault : FileFault}
    (hw : t.walk cwd followLast p = .error fault) (hthere : ¬ meansNothingThere fault = true) :
    t'.walk cwd followLast p = .error fault := by
  rw [FileTree.walk] at hw ⊢
  split at hw
  · next hnull => rw [if_pos hnull, hw]
  · next hnull =>
    rw [if_neg hnull]
    split at hw
    · next hlong => rw [if_pos hlong, hw]
    · next hshort =>
      rw [if_neg hshort]
      split at hw
      · cases hw
      · next why hfrom =>
        cases hw
        have hkind : ∀ nothing ∈ [Errno.noEntry, .notDirectory, .tooManyLinks],
            why ≠ nothing := by
          rintro nothing hmem rfl
          simp only [List.mem_cons, List.not_mem_nil, or_false] at hmem
          rcases hmem with rfl | rfl | rfl <;> exact hthere rfl
        rw [h.walkFrom_error hfrom (hkind _ (by simp)) (hkind _ (by simp)) (hkind _ (by simp))]

/-- What is refused for more than that nothing is there, is refused in the later tree. -/
theorem find?_error {cwd : Location} {p : Path} {fault : FileFault}
    (hf : t.find? cwd p = .error fault) : t'.find? cwd p = .error fault := by
  rw [FileTree.find?] at hf ⊢
  split at hf
  · cases hf
  · cases hf
  · next found hwalk =>
    split at hf
    · cases hf
    · next hthere =>
      cases hf
      rw [h.walk_error hwalk hthere]
      exact if_neg hthere

/-- Where nothing is in the later tree, nothing was before. -/
theorem exists?_eq_false {cwd : Location} {p : Path} (he : t'.exists? cwd p = .ok false) :
    t.exists? cwd p = .ok false := by
  rw [exists?] at he ⊢
  cases hf : t.find? cwd p with
  | error fault =>
    rw [h.find?_error hf] at he
    cases he
  | ok found =>
    cases found with
    | none => rfl
    | some node =>
      rw [h.find? hf] at he
      cases he

end Extends

/-- Making directories leaves all that stands, also where one of them is refused. -/
theorem extends_makeDirectoriesPartly (t : FileTree) (cwd : Location) (p : Path) :
    t.Extends (t.makeDirectoriesPartly cwd p).1 :=
  makeDirectoriesPartly_induct (I := fun made => t.Extends made) (fun _ _ hnode => hnode) cwd p
    fun _ _ _ _ h _ hwalk loc node hnode =>
      node?_put_of_free _ (node?_of_walk_free hwalk) (h loc node hnode)

/-- What is read at a path is what the path leads to. -/
theorem read_eq_ok_iff {t : FileTree} {cwd : Location} {p : Path} {bytes : ByteArray} :
    t.read cwd p = .ok bytes ↔ t.find? cwd p = .ok (some (.file bytes)) :=
  read_eq_ok_iff_walk.trans find?_eq_some_iff.symm

end TwoStage.FileTree

import TwoStage.Proofs.FileTree.Sight

/-!
# Where something is made

Directories are made only where something is missing on the way along a path, and a file is written
only where its path leads. So a tree stays as it was everywhere else, and a path whose places are not
above any of these goes on showing what it showed.

## Main definitions

- `FileTree.MayTake` — the places that are taken where a file is made at a path
- `FileTree.MadeAt` — a change at these places only
- `FileTree.Aside` — a path below which nothing is made

## Main statements

- `FileTree.madeAt_of_write` — what changes where a file is written into a directory that is made
- `FileTree.MadeAt.stillShows` — what is not seen of it
- `FileTree.Linkless.aside` — where there are no links, nothing is made below a path beside another
-/

namespace TwoStage.FileTree

/-- A place that is taken where a file is made at a path, with the directories above it: where the
path leads, or where something on the way to it is missing. -/
def MayTake (t : FileTree) (cwd : Location) (p : Path) (place : Location) : Prop :=
  ∃ parts, parts <+: p.parts ∧ t.resolve cwd ⟨p.slashes, parts⟩ = .ok place ∧
    (parts = p.parts ∨ t.node? place = none)

/-- A change that takes only places which a path may take, and leaves directories and links. -/
structure MadeAt (t t' : FileTree) (cwd : Location) (p : Path) : Prop where
  ways : t.SameWays t'
  elsewhere : ∀ place, ¬ t.MayTake cwd p place → t'.node? place = t.node? place

/-- No place that is taken for the path `p` is at or below one that is reached below `path`. -/
def Aside (t : FileTree) (cwd : Location) (p : Path) (skipped path : List String) : Prop :=
  ∀ place, t.Reaches skipped path place → ∀ taken, t.MayTake cwd p taken → ¬ place <+: taken

section

variable {t t' made : FileTree} {cwd : Location} {dir : Path} {name : String}

theorem SameLinks.put_directory (h : t.SameLinks made) {place : Location}
    (hfree : made.node? place = none) : t.SameLinks (made.put place .directory) := by
  intro loc target
  rw [← h loc target]
  by_cases hsame : loc = place
  · rw [hsame, hfree, node?_put_self _ (ne_nil_of_node? hfree)]
    simp
  · rw [node?_put_of_ne _ hsame]

theorem Destination.IsAt.place_eq {destination : Destination} {place : Location}
    (h : destination.IsAt place) : destination.place = place := by
  cases destination with
  | free parent name => exact h
  | node loc node =>
    cases node with
    | file bytes => exact h
    | directory => exact h.elim
    | link target => exact h.elim

/-- Making directories takes places that are missing on the way. -/
theorem elsewhere_makeDirectoriesPartly (t : FileTree) (cwd : Location) (dir : Path)
    (name : String) :
    t.Extends (t.makeDirectoriesPartly cwd dir).1 ∧
      t.SameLinks (t.makeDirectoriesPartly cwd dir).1 ∧
      ∀ place, ¬ t.MayTake cwd (dir.child name) place →
        (t.makeDirectoriesPartly cwd dir).1.node? place = t.node? place := by
  refine makeDirectoriesPartly_induct (I := fun made => t.Extends made ∧ t.SameLinks made ∧
    ∀ place, ¬ t.MayTake cwd (dir.child name) place → made.node? place = t.node? place)
    ⟨fun _ _ hnode => hnode, fun _ _ => Iff.rfl, fun _ _ => rfl⟩ cwd dir ?_
  rintro made parts parent next ⟨hextends, hlinks, helsewhere⟩ hparts hwalk
  have hfree := node?_of_walk_free hwalk
  have hresolved := hlinks.resolve_of_walk hwalk (Or.inr (by simp))
  have hnone : t.node? (parent ++ [next]) = none := by
    cases hnode : t.node? (parent ++ [next]) with
    | none => rfl
    | some node =>
      rw [hextends _ node hnode] at hfree
      cases hfree
  have htakes : t.MayTake cwd (dir.child name) (parent ++ [next]) :=
    ⟨parts, hparts.trans (List.prefix_append _ _), hresolved, Or.inr hnone⟩
  refine ⟨fun loc node hnode => node?_put_of_free _ hfree (hextends loc node hnode),
    hlinks.put_directory hfree, fun place hplace => ?_⟩
  rw [node?_put_of_ne, helsewhere place hplace]
  rintro rfl
  exact hplace htakes

/-- A file that is written into a directory that is made takes no other places. -/
theorem madeAt_of_write (hmade : t.makeDirectoriesPartly cwd dir = (made, none)) {bytes : ByteArray}
    (hw : made.write cwd (dir.child name) bytes = .ok t') : t.MadeAt t' cwd (dir.child name) := by
  have hbefore := t.elsewhere_makeDirectoriesPartly cwd dir name
  rw [hmade] at hbefore
  obtain ⟨hextends, hlinks, helsewhere⟩ := hbefore
  obtain ⟨place, htakes, rfl⟩ := write_eq_ok hw
  have hways : made.SameWays (made.put place (.file bytes)) := .put _ htakes.node?.2
  refine ⟨hextends.sameWays.trans hways, fun other hother => ?_⟩
  rw [node?_put_of_ne, helsewhere other hother]
  rintro rfl
  obtain ⟨destination, hwalk, hat⟩ := htakes
  have hresolved := hlinks.resolve_of_walk hwalk (Or.inl rfl)
  rw [hat.place_eq] at hresolved
  exact hother ⟨(dir.child name).parts, List.prefix_refl _, hresolved, Or.inl rfl⟩

/-- What is made is not seen below a path that it is aside of. -/
theorem MadeAt.stillShows {p : Path} (h : t.MadeAt t' cwd p) {skipped path : List String}
    (haside : t.Aside cwd p skipped path) : t.StillShows t' skipped path path :=
  h.ways.stillShows fun place hreached below hbelow =>
    h.elsewhere below fun htaken => haside place hreached below htaken hbelow

end

/-- A path whose places are not at or below another one is aside of it, if no link stands there or
below it. -/
theorem Linkless.aside {t : FileTree} {path : Location} (h : t.Linkless path)
    (hbelow : ∀ rest target, t.node? (path ++ rest) ≠ some (.link target)) {cwd : Location}
    {p : Path} (hunder : ∀ taken, t.MayTake cwd p taken → ¬ path <+: taken)
    (skipped : List String) : t.Aside cwd p skipped path := by
  rintro place ⟨rest, node, hnames, -, hwalk⟩ taken htaken hbefore
  obtain ⟨rfl, -⟩ := h.walk_append hbelow hnames hwalk
  exact hunder taken htaken ((List.prefix_append path rest).trans hbefore)

end TwoStage.FileTree

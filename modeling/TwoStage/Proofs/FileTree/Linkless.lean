import TwoStage.Proofs.FileTree.Copying

/-!
# Ways without links

Directories are reached without links. Below such a location a walk ends where its path says, as long
as it meets no link there either; so what a declared path leads to stands where the path says, and
the directory that it starts from is enclosed.

## Main definitions

- `FileTree.Linkless` — locations that are reached without links

## Main statements

- `FileTree.Sound.linkless` — directories are such locations
- `FileTree.Linkless.walk` — where walks end that meet no link
- `FileTree.Linkless.walk_append` — where they end below a location that has no link below it
- `FileTree.Linkless.enclosed` — a root without links below it, from which something is reached
-/

namespace TwoStage.FileTree

/-- No link stands at a location or above it, and no walk takes its names for steps upwards. -/
structure Linkless (t : FileTree) (loc : Location) : Prop where
  plain : Plain loc
  clear : ∀ above, above <+: loc → ∀ target, t.node? above ≠ some (.link target)

/-- Directories of a sound tree are reached without links. -/
theorem Sound.linkless {t : FileTree} (h : t.Sound) {loc : Location}
    (hdirectory : t.node? loc = some .directory) : t.Linkless loc := by
  refine ⟨plain_of_isName (h.isName_of_node? hdirectory), fun above habove target hlink => ?_⟩
  by_cases hsame : above = loc
  · rw [hsame, hdirectory] at hlink
    cases hlink
  · rw [h.leads habove hsame hdirectory] at hlink
    cases hlink

-- ════════════════════════════════════════════════════════════════════════
-- Walks that meet no link
-- ════════════════════════════════════════════════════════════════════════

/-- A descent along a location without links ends there, or finds it free. -/
theorem Linkless.descend {t : FileTree} {followLast : Bool} (pre : Location) {rest : List String}
    (h : t.Linkless (pre ++ rest)) {halt : Halt} (hd : t.descend followLast pre rest = .ok halt) :
    (∃ node, halt = .done (.node (pre ++ rest) node) ∧ t.node? (pre ++ rest) = some node) ∨
      t.node? (pre ++ rest) = none ∧ ∃ parent name, halt = .done (.free parent name) := by
  induction rest generalizing pre with
  | nil =>
    obtain ⟨node, hnode, rfl⟩ := descend_nil_eq_ok hd
    rw [List.append_nil]
    exact Or.inl ⟨node, rfl, hnode⟩
  | cons name rest ih =>
    obtain ⟨-, ⟨hnone, rfl, rfl⟩ | ⟨target, hlink⟩ | ⟨-, hd⟩⟩ :=
      descend_cons_eq_ok (h.plain name (by simp)) hd
    · exact Or.inr ⟨hnone, pre, name, rfl⟩
    · exact absurd hlink (h.clear (pre ++ [name]) (by simp) target)
    · rw [← List.singleton_append, ← List.append_assoc] at h ⊢
      exact ih _ h hd

/-- A walk along a location without links ends there, or finds it free. -/
theorem Linkless.walk {t : FileTree} {cwd loc : Location} (h : t.Linkless loc) {followLast : Bool}
    {destination : Destination}
    (hw : t.walk cwd followLast (Path.ofLocation loc) = .ok destination) :
    (∃ node, destination = .node loc node ∧ t.node? loc = some node) ∨
      t.node? loc = none ∧ ∃ parent name, destination = .free parent name := by
  have hfrom : t.walkFrom followLast linkLimit [] loc = .ok destination :=
    (walk_eq_ok_iff_walkFrom.mp hw).2.2
  rcases walkFrom_cases hfrom with hdone | ⟨_, _, _, _, -, hmet, -⟩
  · rcases Linkless.descend [] h hdone with ⟨node, hhalt, hnode⟩ | ⟨hnone, parent, name, hhalt⟩
    · cases hhalt
      exact Or.inl ⟨node, rfl, hnode⟩
    · cases hhalt
      exact Or.inr ⟨hnone, parent, name, rfl⟩
  · rcases Linkless.descend [] h hmet with ⟨_, hhalt, -⟩ | ⟨-, _, _, hhalt⟩ <;> cases hhalt

section

variable {t : FileTree} {path : Location} (h : t.Linkless path)
  (hbelow : ∀ rest target, t.node? (path ++ rest) ≠ some (.link target))

include h hbelow

theorem Linkless.append {rest : List String} (hrest : Plain rest) :
    t.Linkless (path ++ rest) := by
  refine ⟨h.plain.append hrest, fun above habove target => ?_⟩
  rcases prefix_append_cases habove with hbefore | ⟨more, rfl, -⟩
  · exact h.clear above hbefore target
  · exact hbelow more target

/-- Where no link stands at a path or below it, everything stands where its path says. -/
theorem Linkless.walk_append {rest : List String} (hrest : ∀ name ∈ rest, IsName name)
    {cwd place : Location} {node : Node}
    (hwalk : t.walk cwd true (Path.ofLocation (path ++ rest)) = .ok (.node place node)) :
    place = path ++ rest ∧ t.node? (path ++ rest) = some node := by
  rcases (h.append hbelow (plain_of_isName hrest)).walk hwalk with
    ⟨found, hdone, hnode⟩ | ⟨-, parent, name, hdone⟩
  · cases hdone
    exact ⟨rfl, hnode⟩
  · cases hdone

end

/-- What a path without links leads to stands where the path says. -/
theorem Linkless.exists?_eq_true {t : FileTree} {cwd loc : Location} (h : t.Linkless loc)
    (hthere : t.exists? cwd (Path.ofLocation loc) = .ok true) : ∃ node, t.node? loc = some node := by
  obtain ⟨_, _, hwalk⟩ := exists?_eq_true_iff_walk.mp hthere
  rcases h.walk hwalk with ⟨node, -, hnode⟩ | ⟨-, _, _, hdest⟩
  · exact ⟨node, hnode⟩
  · cases hdest

/-- A location without links that has none below it either is an enclosed directory, if something
stands below it. -/
theorem Linkless.enclosed {t : FileTree} (ht : t.Sound) {root : Location} (h : t.Linkless root)
    (hbelow : ∀ rest target, t.node? (root ++ rest) ≠ some (.link target)) {rest : List String}
    (hrest : rest ≠ []) {node : Node} (hnode : t.node? (root ++ rest) = some node) :
    t.Enclosed root := by
  have hroot := ht.leads_append rest hrest hnode
  refine ⟨fun above habove => ?_, fun below target hunder => ?_, h.plain, fun entry hentry => ?_⟩
  · by_cases hsame : above = root
    · rw [hsame, hroot]
    · exact ht.leads habove hsame hroot
  · obtain ⟨rest, rfl⟩ := hunder
    exact hbelow rest target
  · exact plain_of_isName (ht.named entry hentry)

end TwoStage.FileTree

import TwoStage.Proofs.FileTree.Filling

/-!
# What paths show

A path shows what it leads to, with links followed, and a directory shows the names in it. This is
all that a copy sees of its source. A later tree may show the same there, whatever else has changed;
and a location is out of sight where filling it changes nothing of what is shown.

## Main definitions

- `FileTree.look` — what a path leads to
- `FileTree.Shows` — what a tree shows below a path, but for what is below a skipped name
- `FileTree.StillShows` — a later tree that shows the same below a path
- `FileTree.OutOfSight` — a location that may be filled without being seen below a path
- `FileTree.Reaches` — the places that paths below a path lead to

## Main statements

- `FileTree.isDirectory?_eq_true_iff`, `FileTree.read_eq_ok_iff_look`,
  `FileTree.exists?_eq_true_iff` — questions are answered from what a path leads to
- `FileTree.shows_cons` — what is shown below a directory is shown below one of its names
- `FileTree.SameWays.stillShows` — what changes nowhere below the places that are reached is not
  seen
- `FileTree.FilledAt.shows_iff` — nor is what fills a location out of sight
- `FileTree.Linkless.outOfSight` — where there are no links, locations beside a path are out of sight
-/

namespace TwoStage.FileTree

/-- What a path from the root of the tree leads to, with links followed; nothing where it leads
nowhere. -/
def look (t : FileTree) (path : List String) : Option Node :=
  match t.walk [] true (Path.ofLocation path) with
  | .ok (.node _ node) => some node
  | _ => none

/-- What a path leads to that goes on below another one, but not below a skipped name. -/
structure Shows (t : FileTree) (skipped path rest : List String) (node : Node) : Prop where
  names : ∀ name ∈ rest, IsName name
  kept : Kept skipped rest
  look : t.look (path ++ rest) = some node

/-- All that a tree shows below a path, another tree still shows below another path, and its
directories show no names more and no names less. -/
structure StillShows (t t' : FileTree) (skipped path path' : List String) : Prop where
  shown : ∀ rest node, t.Shows skipped path rest node → t'.Shows skipped path' rest node
  listed : ∀ rest, t.Shows skipped path rest .directory → ∀ name ∉ skipped,
    (name ∈ t'.listDirectory (Path.ofLocation (path' ++ rest)) ↔
      name ∈ t.listDirectory (Path.ofLocation (path ++ rest)))

/-- Whatever fills a location, nothing is seen below a path that was not there before. -/
def OutOfSight (t : FileTree) (loc : Location) (skipped path : List String) : Prop :=
  ∀ t', t.FilledAt t' loc → t'.StillShows t skipped path path

/-- A place that a path leads to which goes on below another one, but not below a skipped name. -/
def Reaches (t : FileTree) (skipped path : List String) (place : Location) : Prop :=
  ∃ rest node, (∀ name ∈ rest, IsName name) ∧ Kept skipped rest ∧
    t.walk [] true (Path.ofLocation (path ++ rest)) = .ok (.node place node)

-- ════════════════════════════════════════════════════════════════════════
-- What a path leads to
-- ════════════════════════════════════════════════════════════════════════

section

variable {t t' : FileTree} {cwd : Location} {path : List String}

theorem look_eq_some_iff {node : Node} :
    t.look path = some node ↔
      ∃ place, t.walk cwd true (Path.ofLocation path) = .ok (.node place node) := by
  have hroot : t.walk cwd true (Path.ofLocation path) = t.walk [] true (Path.ofLocation path) := rfl
  unfold look
  rw [hroot]
  cases t.walk [] true (Path.ofLocation path) with
  | error fault => simp
  | ok destination => cases destination <;> simp

theorem isDirectory?_eq_true_iff :
    t.isDirectory? cwd (Path.ofLocation path) = .ok true ↔ t.look path = some .directory :=
  isDirectory?_eq_true_iff_walk.trans look_eq_some_iff.symm

theorem isDirectory?_of_look_file {bytes : ByteArray} (h : t.look path = some (.file bytes)) :
    t.isDirectory? cwd (Path.ofLocation path) = .ok false := by
  obtain ⟨place, hwalk⟩ := look_eq_some_iff.mp h
  rw [isDirectory?, find?, hwalk]
  rfl

theorem read_eq_ok_iff_look {bytes : ByteArray} :
    t.read cwd (Path.ofLocation path) = .ok bytes ↔ t.look path = some (.file bytes) :=
  read_eq_ok_iff_walk.trans look_eq_some_iff.symm

theorem exists?_eq_true_iff :
    t.exists? cwd (Path.ofLocation path) = .ok true ↔ ∃ node, t.look path = some node :=
  exists?_eq_true_iff_walk.trans (exists_congr fun _ => look_eq_some_iff.symm)

theorem exists_walk_of_look {node : Node} (h : t.look path = some node) :
    ∃ place, t.walk [] true (Path.ofLocation path) = .ok (.node place node) :=
  look_eq_some_iff.mp h

/-- The names in the directory that a path leads to are those under which something stands there. -/
theorem mem_listDirectory_iff {place : Location}
    (h : t.walk [] true (Path.ofLocation path) = .ok (.node place .directory)) {name : String} :
    name ∈ t.listDirectory (Path.ofLocation path) ↔
      ∃ node, t.node? (place ++ [name]) = some node := by
  rw [listDirectory, h]
  exact mem_names_iff

theorem Sound.nodup_listDirectory (h : t.Sound) (p : Path) : (t.listDirectory p).Nodup := by
  rw [listDirectory]
  split
  · exact h.nodup_names _
  · exact List.nodup_nil

theorem Extends.look (h : t.Extends t') {node : Node} (hlook : t.look path = some node) :
    t'.look path = some node := by
  obtain ⟨place, hwalk⟩ := exists_walk_of_look hlook
  exact look_eq_some_iff.mpr ⟨place, h.walk hwalk⟩

end

-- ════════════════════════════════════════════════════════════════════════
-- What is shown below a path
-- ════════════════════════════════════════════════════════════════════════

section

variable {t : FileTree} {skipped path rest : List String} {node : Node}

theorem shows_nil : t.Shows skipped path [] node ↔ t.look path = some node := by
  constructor
  · intro h
    have hlook := h.look
    rwa [List.append_nil] at hlook
  · exact fun hlook => ⟨by simp, kept_nil skipped, by rwa [List.append_nil]⟩

/-- What is shown below a directory is shown below one of its names. -/
theorem shows_cons {name : String} :
    t.Shows skipped path (name :: rest) node ↔
      IsName name ∧ name ∉ skipped ∧ t.Shows skipped (path ++ [name]) rest node := by
  constructor
  · intro h
    obtain ⟨hname, hrest⟩ := List.forall_mem_cons.mp h.names
    obtain ⟨hunskipped, hkept⟩ := kept_cons_iff.mp h.kept
    exact ⟨hname, hunskipped, hrest, hkept, by rw [← append_cons_eq, h.look]⟩
  · rintro ⟨hname, hunskipped, h⟩
    exact ⟨List.forall_mem_cons.mpr ⟨hname, h.names⟩, kept_cons_iff.mpr ⟨hunskipped, h.kept⟩,
      by rw [append_cons_eq, h.look]⟩

/-- A path that leads somewhere behind another one finds a directory there, with its next name. -/
theorem listed_of_look {name : String} (hname : IsName name)
    (h : t.look (path ++ name :: rest) = some node) :
    t.look path = some .directory ∧ name ∈ t.listDirectory (Path.ofLocation path) := by
  obtain ⟨place, hwalk⟩ := exists_walk_of_look h
  obtain ⟨hnull, hshort, hfrom⟩ := walk_eq_ok_iff.mp hwalk
  obtain ⟨inside, hinside⟩ := directory_before (List.cons_ne_nil name rest) hfrom
  have hdirectory : t.walk [] true (Path.ofLocation path) = .ok (.node inside .directory) := by
    refine walk_eq_ok_iff.mpr ⟨fun other hother => hnull other (List.mem_append_left _ hother),
      ?_, hinside⟩
    exact Nat.lt_of_le_of_lt (Path.utf8ByteSize_text_le (List.prefix_append path _)) hshort
  refine ⟨look_eq_some_iff.mpr ⟨inside, hdirectory⟩, (mem_listDirectory_iff hdirectory).mpr ?_⟩
  obtain ⟨left, -, hall⟩ := walkFrom_append hinside
  rw [hall _ (List.cons_ne_nil _ _)] at hfrom
  exact exists_node_of_walkFrom ⟨hname.2.1, hname.2.2.1⟩ hfrom

end

-- ════════════════════════════════════════════════════════════════════════
-- Trees that show the same
-- ════════════════════════════════════════════════════════════════════════

namespace StillShows

variable {t t' t'' : FileTree} {skipped path path' path'' : List String}

theorem refl (t : FileTree) (skipped path : List String) : t.StillShows t skipped path path :=
  ⟨fun _ _ h => h, fun _ _ _ _ => Iff.rfl⟩

theorem trans (h : t.StillShows t' skipped path path')
    (h' : t'.StillShows t'' skipped path' path'') : t.StillShows t'' skipped path path'' := by
  refine ⟨fun rest node hshown => h'.shown rest node (h.shown rest node hshown),
    fun rest hshown name hname => ?_⟩
  exact (h'.listed rest (h.shown rest _ hshown) name hname).trans (h.listed rest hshown name hname)

end StillShows

/-- A change is not seen below a path if it leaves all directories and links, and everything at and
below the places that are reached. -/
theorem SameWays.stillShows {t t' : FileTree} (h : t.SameWays t') {skipped path : List String}
    (hbeside : ∀ place, t.Reaches skipped path place →
      ∀ below, place <+: below → t'.node? below = t.node? below) :
    t.StillShows t' skipped path path := by
  have hwalk : ∀ {rest node}, t.Shows skipped path rest node → ∃ place,
      t.walk [] true (Path.ofLocation (path ++ rest)) = .ok (.node place node) ∧
        t'.walk [] true (Path.ofLocation (path ++ rest)) = .ok (.node place node) ∧
        ∀ below, place <+: below → t'.node? below = t.node? below := by
    intro rest node hshown
    obtain ⟨place, hwalked⟩ := exists_walk_of_look hshown.look
    have hsame := hbeside place ⟨rest, node, hshown.names, hshown.kept, hwalked⟩
    have hplace : t.node? place = some node := stands_of_walk hwalked
    exact ⟨place, hwalked, h.walk hwalked ((hsame place (List.prefix_refl _)).trans hplace), hsame⟩
  refine ⟨fun rest node hshown => ?_, fun rest hshown name _ => ?_⟩
  · obtain ⟨place, -, hlater, -⟩ := hwalk hshown
    exact ⟨hshown.names, hshown.kept, look_eq_some_iff.mpr ⟨place, hlater⟩⟩
  · obtain ⟨place, hwalked, hlater, hsame⟩ := hwalk hshown
    rw [mem_listDirectory_iff hlater, mem_listDirectory_iff hwalked,
      hsame _ (List.prefix_append place [name])]

-- ════════════════════════════════════════════════════════════════════════
-- Locations out of sight
-- ════════════════════════════════════════════════════════════════════════

theorem OutOfSight.child {t : FileTree} {loc : Location} {skipped path : List String}
    (h : t.OutOfSight loc skipped path) {name : String} (hname : IsName name)
    (hunskipped : name ∉ skipped) : t.OutOfSight loc skipped (path ++ [name]) := by
  intro t' hfilled
  obtain ⟨hshown, hlisted⟩ := h t' hfilled
  refine ⟨fun rest node hrest => (shows_cons.mp (hshown _ _ (shows_cons.mpr
    ⟨hname, hunskipped, hrest⟩))).2.2, fun rest hrest => ?_⟩
  rw [← append_cons_eq]
  exact hlisted _ (shows_cons.mpr ⟨hname, hunskipped, hrest⟩)

section

variable {t t' : FileTree} {loc : Location} (h : t.FilledAt t' loc) {skipped path : List String}
  (hsight : t.OutOfSight loc skipped path)

include h hsight

/-- While a location out of sight is filled, the tree shows what it showed before. -/
theorem FilledAt.shows_iff {rest : List String} {node : Node} :
    t'.Shows skipped path rest node ↔ t.Shows skipped path rest node :=
  ⟨(hsight t' h).shown rest node,
    fun hshown => ⟨hshown.names, hshown.kept, h.extends.look hshown.look⟩⟩

/-- And its directories show the same names. -/
theorem FilledAt.mem_listDirectory_iff (hlook : t.look path = some .directory) {name : String}
    (hname : name ∉ skipped) :
    name ∈ t'.listDirectory (Path.ofLocation path) ↔
      name ∈ t.listDirectory (Path.ofLocation path) := by
  have hshown := (h.shows_iff hsight).mpr (shows_nil.mpr hlook)
  have hlisted := ((hsight t' h).listed [] hshown name hname).symm
  rwa [List.append_nil] at hlisted

end

/-- A location beside a path is out of sight there, if no link stands at the path or below it. -/
theorem Linkless.outOfSight {t : FileTree} (ht : t.Sound) {path : Location} (h : t.Linkless path)
    (hbelow : ∀ rest target, t.node? (path ++ rest) ≠ some (.link target)) {loc : Location}
    (hunder : ¬ path <+: loc) (hover : ¬ loc <+: path) (skipped : List String) :
    t.OutOfSight loc skipped path := by
  intro t' hfilled
  have hsame : ∀ rest, t'.node? (path ++ rest) = t.node? (path ++ rest) := by
    intro rest
    refine hfilled.node?_elsewhere fun hbefore => ?_
    rcases List.prefix_or_prefix_of_prefix hbefore (List.prefix_append path rest) with hpre | hpre
    · exact hover hpre
    · exact hunder hpre
  have hlater : t'.Linkless path :=
    ⟨h.plain, fun above habove target hlink =>
      h.clear above habove target ((hfilled.sameLinks above target).mp hlink)⟩
  have hwalk : ∀ {rest node}, t'.Shows skipped path rest node →
      t'.walk [] true (Path.ofLocation (path ++ rest)) = .ok (.node (path ++ rest) node) ∧
      t.walk [] true (Path.ofLocation (path ++ rest)) = .ok (.node (path ++ rest) node) := by
    intro rest node hshown
    have hclear : ∀ rest target, t'.node? (path ++ rest) ≠ some (.link target) := by
      intro rest target
      rw [hsame]
      exact hbelow rest target
    obtain ⟨place, hwalked⟩ := exists_walk_of_look hshown.look
    obtain ⟨rfl, hnode⟩ := hlater.walk_append hclear hshown.names hwalked
    have hwalkable := (hlater.append hclear (plain_of_isName hshown.names)).walkable hwalked
    rw [hsame] at hnode
    refine ⟨hwalked, ht.walk_node hnode (fun target hlink => ?_) hwalkable⟩
    exact hbelow rest target (hlink ▸ hnode)
  refine ⟨fun rest node hshown => ⟨hshown.names, hshown.kept, look_eq_some_iff.mpr
    ⟨_, (hwalk hshown).2⟩⟩, fun rest hshown name _ => ?_⟩
  obtain ⟨hwalked, hwalked'⟩ := hwalk hshown
  rw [mem_listDirectory_iff hwalked, mem_listDirectory_iff hwalked', List.append_assoc, hsame]

end TwoStage.FileTree

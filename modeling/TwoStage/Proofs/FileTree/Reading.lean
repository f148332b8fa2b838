import TwoStage.Proofs.FileTree.Enclosure

/-!
# Reading what was written

A file that is written at a path is read there afterwards. More than that, it is read there in any
later tree that holds it, as long as the directories and links of the first tree still stand: these
alone decide where a path leads.

## Main definitions

- `FileTree.TakesAt` — a path leads to a location for a file
- `FileTree.SameWays` — a tree that has the directories and links of another
- `FileTree.WrittenIn` — a file that was written in an enclosed directory

## Main statements

- `FileTree.SameWays.walk` — where a path leads in a later tree
- `FileTree.write_eq_ok` — what writing does
- `FileTree.TakesAt.walk`, `FileTree.TakesAt.read` — what stands there in a later tree
- `FileTree.Enclosed.takesAt` — where paths under an enclosed directory lead
-/

namespace TwoStage.FileTree

/-- A walk that ends here ends at a file at the location, or where one can be written. -/
def Destination.IsAt (loc : Location) : Destination → Prop
  | .node other (.file _) => other = loc
  | .node _ _ => False
  | .free parent name => parent ++ [name] = loc

/-- A path leads to a location where a file stands or can be written. -/
def TakesAt (t : FileTree) (cwd : Location) (p : Path) (loc : Location) : Prop :=
  ∃ destination, t.walk cwd true p = .ok destination ∧ destination.IsAt loc

/-- The directories and links of a tree stand in another one as well. -/
def SameWays (t t' : FileTree) : Prop :=
  ∀ loc node, t.node? loc = some node → (∀ bytes, node ≠ .file bytes) → t'.node? loc = some node

theorem SameWays.trans {t t' t'' : FileTree} (h : t.SameWays t') (h' : t'.SameWays t'') :
    t.SameWays t'' := fun loc node hnode hfile => h' loc node (h loc node hnode hfile) hfile

/-- What stands where nothing but a file stood before is in no one's way. -/
theorem SameWays.put {t : FileTree} {loc : Location} (node : Node)
    (h : ∀ old, t.node? loc = some old → ∃ bytes, old = .file bytes) :
    t.SameWays (t.put loc node) := by
  intro other old hold hfile
  have hne : other ≠ loc := by
    rintro rfl
    obtain ⟨bytes, hbytes⟩ := h old hold
    exact hfile bytes hbytes
  rw [node?_put_of_ne node hne]
  exact hold

-- ════════════════════════════════════════════════════════════════════════
-- What is said of a path
-- ════════════════════════════════════════════════════════════════════════

section Answers

variable {t : FileTree} {cwd : Location} {p : Path}

/-- What a path leads to is found where the walk along it ends. -/
theorem find?_eq_some_iff {node : Node} :
    t.find? cwd p = .ok (some node) ↔ ∃ place, t.walk cwd true p = .ok (.node place node) := by
  rw [find?]
  cases t.walk cwd true p with
  | error fault => cases hfault : meansNothingThere fault <;> simp [hfault]
  | ok destination => cases destination <;> simp

/-- A path leads to something if it is walked to it. -/
theorem exists?_eq_true_iff_walk :
    t.exists? cwd p = .ok true ↔ ∃ node place, t.walk cwd true p = .ok (.node place node) := by
  simp only [← find?_eq_some_iff, exists?]
  rcases t.find? cwd p with fault | none | node <;> simp [Except.map]

/-- A path leads to a directory if it is walked to one. -/
theorem isDirectory?_eq_true_iff_walk :
    t.isDirectory? cwd p = .ok true ↔ ∃ place, t.walk cwd true p = .ok (.node place .directory) := by
  rw [← find?_eq_some_iff, isDirectory?]
  rcases t.find? cwd p with fault | none | bytes | _ | target <;> simp [Except.map]

/-- What is read at a path is the file that it is walked to. -/
theorem read_eq_ok_iff_walk {bytes : ByteArray} :
    t.read cwd p = .ok bytes ↔
      ∃ place, t.walk cwd true p = .ok (.node place (.file bytes)) := by
  rw [FileTree.read]
  rcases t.walk cwd true p with fault | (⟨place, held | _ | target⟩ | ⟨parent, name⟩) <;> simp

end Answers

-- ════════════════════════════════════════════════════════════════════════
-- Walks in a later tree
-- ════════════════════════════════════════════════════════════════════════

section Later

variable {t t' : FileTree} (hways : t.SameWays t') {target : Location} {found : Node}
  (hfound : t'.node? target = some found) (hlink : ∀ other, found ≠ .link other)

/-- Where a walk stands with the destination replaced, if it has reached one. -/
def Halt.redirect (destination : Destination) : Halt → Halt
  | .done _ => .done destination
  | .link parent target rest => .link parent target rest

include hfound

theorem descend_nil_of_node : t'.descend true target [] = .ok (.done (.node target found)) := by
  rw [descend, hfound]

include hways hlink

/-- A descent goes the same way, and ends at what stands at the location now. -/
theorem descend_of_sameWays {parts : List String} {loc : Location} {halt : Halt}
    (h : t.descend true loc parts = .ok halt)
    (hhalt : ∀ destination, halt = .done destination → destination.IsAt target) :
    t'.descend true loc parts = .ok (halt.redirect (.node target found)) := by
  fun_induction descend t true loc parts with
  | case1 loc node hnode =>
    cases h
    have hat := hhalt _ rfl
    cases node with
    | file old =>
      obtain rfl : loc = target := hat
      exact descend_nil_of_node hfound
    | directory => exact hat.elim
    | link other => exact hat.elim
  | case3 loc rest hhere ih =>
    rw [descend, hways loc .directory hhere (by simp)]
    exact ih h
  | case4 loc rest hhere hdot ih =>
    rw [descend, hways loc .directory hhere (by simp)]
    exact ih h
  | case6 loc name rest hhere hdot hup hshort hnone hlast =>
    cases h
    obtain rfl : loc ++ [name] = target := hhalt _ rfl
    obtain rfl : rest = [] := List.isEmpty_iff.mp hlast
    rw [descend, hways loc .directory hhere (by simp), hfound]
    simp only [hdot, hup, hshort, if_false]
    cases found with
    | link other => exact absurd rfl (hlink other)
    | directory | file bytes => exact descend_nil_of_node hfound
  | case8 loc name rest hhere hdot hup hshort other hmet hlast => simp at hlast
  | case9 loc name rest hhere hdot hup hshort other hmet hlast =>
    cases h
    rw [descend, hways loc .directory hhere (by simp), hways _ _ hmet (by simp)]
    simp [hdot, hup, hshort, Halt.redirect]
  | case10 loc name rest hhere hdot hup hshort node hnolink hnode ih =>
    rw [descend, hways loc .directory hhere (by simp)]
    simp only [hdot, hup, hshort, if_false]
    cases node with
    | directory =>
      rw [hways _ _ hnode (by simp)]
      exact ih h
    | link other => exact absurd rfl (hnolink other)
    | file old =>
      -- nothing is below a file
      cases rest with
      | nil =>
        rw [descend, hnode] at h
        cases h
        obtain rfl : loc ++ [name] = target := hhalt _ rfl
        rw [hfound]
        cases found with
        | link other => exact absurd rfl (hlink other)
        | directory | file bytes => exact descend_nil_of_node hfound
      | cons next more =>
        rw [descend, hnode] at h
        cases h
  | case2 | case5 | case7 | case11 | case12 => cases h

theorem walkFrom_of_sameWays {links : Nat} {parts : List String} {loc : Location}
    {destination : Destination} (h : t.walkFrom true links loc parts = .ok destination)
    (hat : destination.IsAt target) :
    t'.walkFrom true links loc parts = .ok (.node target found) := by
  refine walkFrom_induct (motive := fun links loc parts =>
    t'.walkFrom true links loc parts = .ok (.node target found)) ?_ ?_ h
  · intro links loc parts hdone
    have hlater := descend_of_sameWays hways hfound hlink hdone (by rintro _ ⟨⟩; exact hat)
    exact walkFrom_of_done hlater links
  · intro links loc parts parent held rest hmet ih
    have hlater := descend_of_sameWays hways hfound hlink hmet (by rintro _ ⟨⟩)
    exact (walkFrom_of_link hlater links).trans ih

end Later

namespace SameWays

variable {t t' : FileTree} (h : t.SameWays t')

include h

/-- A descent goes the same way, if what it ends at still stands. -/
theorem descend {followLast : Bool} {parts : List String} {loc : Location} {halt : Halt}
    (hd : t.descend followLast loc parts = .ok halt)
    (hhalt : ∀ destination, halt = .done destination →
      ∃ place node, destination = .node place node ∧ t'.node? place = some node) :
    t'.descend followLast loc parts = .ok halt := by
  fun_induction FileTree.descend t followLast loc parts with
  | case1 loc node hnode =>
    cases hd
    obtain ⟨_, _, ⟨⟩, hlater⟩ := hhalt _ rfl
    rw [FileTree.descend, hlater]
  | case3 loc rest hhere ih =>
    rw [FileTree.descend, h loc .directory hhere (by simp)]
    exact ih hd
  | case4 loc rest hhere hdot ih =>
    rw [FileTree.descend, h loc .directory hhere (by simp)]
    exact ih hd
  | case6 loc name rest hhere hdot hup hshort hnone hlast =>
    cases hd
    obtain ⟨_, _, heq, -⟩ := hhalt _ rfl
    cases heq
  | case8 loc name rest hhere hdot hup hshort target hlink hlast =>
    rw [FileTree.descend, h loc .directory hhere (by simp), h _ _ hlink (by simp)]
    simp only [hdot, hup, hshort, if_false, hlast, if_true]
    exact hd
  | case9 loc name rest hhere hdot hup hshort target hlink hlast =>
    rw [FileTree.descend, h loc .directory hhere (by simp), h _ _ hlink (by simp)]
    simp only [hdot, hup, hshort, if_false, hlast]
    exact hd
  | case10 loc name rest hhere hdot hup hshort node hnolink hnode ih =>
    rw [FileTree.descend, h loc .directory hhere (by simp)]
    simp only [hdot, hup, hshort, if_false]
    cases node with
    | link target => exact absurd rfl (hnolink target)
    | directory =>
      rw [h _ _ hnode (by simp)]
      exact ih hd
    | file bytes =>
      -- nothing is below a file
      cases rest with
      | nil =>
        rw [FileTree.descend, hnode] at hd
        cases hd
        obtain ⟨_, _, ⟨⟩, hlater⟩ := hhalt _ rfl
        rw [hlater]
        rw [FileTree.descend, hlater]
      | cons next more =>
        rw [FileTree.descend, hnode] at hd
        cases hd
  | case2 | case5 | case7 | case11 | case12 => cases hd

/-- A walk ends at the same node, if that still stands. -/
theorem walkFrom {followLast : Bool} {links : Nat} {parts : List String} {loc place : Location}
    {node : Node} (hw : t.walkFrom followLast links loc parts = .ok (.node place node))
    (hplace : t'.node? place = some node) :
    t'.walkFrom followLast links loc parts = .ok (.node place node) := by
  refine walkFrom_induct (motive := fun links loc parts =>
    t'.walkFrom followLast links loc parts = .ok (.node place node)) ?_ ?_ hw
  · intro links loc parts hdone
    refine walkFrom_of_done (h.descend hdone ?_) links
    rintro _ ⟨⟩
    exact ⟨place, node, rfl, hplace⟩
  · intro links loc parts parent target rest hmet ih
    exact (walkFrom_of_link (h.descend hmet (by simp)) links).trans ih

theorem walk {cwd : Location} {followLast : Bool} {p : Path} {place : Location} {node : Node}
    (hw : t.walk cwd followLast p = .ok (.node place node)) (hplace : t'.node? place = some node) :
    t'.walk cwd followLast p = .ok (.node place node) := by
  obtain ⟨hnull, hshort, hfrom⟩ := walk_eq_ok_iff_walkFrom.mp hw
  exact walk_eq_ok_iff_walkFrom.mpr ⟨hnull, hshort, h.walkFrom hfrom hplace⟩

end SameWays

/-- In any later tree with the same ways a path leads to what stands at its location there. -/
theorem TakesAt.walk {t t' : FileTree} {cwd : Location} {p : Path} {loc : Location}
    (h : t.TakesAt cwd p loc) (hways : t.SameWays t') {found : Node}
    (hfound : t'.node? loc = some found) (hlink : ∀ other, found ≠ .link other) :
    t'.walk cwd true p = .ok (.node loc found) := by
  obtain ⟨destination, hwalk, hat⟩ := h
  obtain ⟨hnull, hshort, hfrom⟩ := walk_eq_ok_iff_walkFrom.mp hwalk
  exact walk_eq_ok_iff_walkFrom.mpr
    ⟨hnull, hshort, walkFrom_of_sameWays hways hfound hlink hfrom hat⟩

/-- A file is read in any later tree that holds it and has the same ways. -/
theorem TakesAt.read {t t' : FileTree} {cwd : Location} {p : Path} {loc : Location}
    (h : t.TakesAt cwd p loc) (hways : t.SameWays t') {bytes : ByteArray}
    (hfile : t'.node? loc = some (.file bytes)) : t'.read cwd p = .ok bytes := by
  rw [FileTree.read, h.walk hways hfile (by simp)]

-- ════════════════════════════════════════════════════════════════════════
-- Writing
-- ════════════════════════════════════════════════════════════════════════

/-- Writing sets a file where the path leads. -/
theorem write_eq_ok {t t' : FileTree} {cwd : Location} {p : Path} {bytes : ByteArray}
    (h : t.write cwd p bytes = .ok t') :
    ∃ loc, t.TakesAt cwd p loc ∧ t' = t.put loc (.file bytes) := by
  rw [write] at h
  split at h
  · next loc old hwalk =>
    cases h
    exact ⟨loc, ⟨_, hwalk, rfl⟩, rfl⟩
  · cases h
  · next parent name hwalk =>
    cases h
    exact ⟨parent ++ [name], ⟨_, hwalk, rfl⟩, rfl⟩
  · cases h

/-- Where a path leads for a file, there stands a file or nothing. -/
theorem TakesAt.node? {t : FileTree} {cwd : Location} {p : Path} {loc : Location}
    (h : t.TakesAt cwd p loc) :
    loc ≠ [] ∧ ∀ old, t.node? loc = some old → ∃ bytes, old = .file bytes := by
  obtain ⟨destination, hwalk, hat⟩ := h
  have hstands := stands_of_walk hwalk
  cases destination with
  | free parent name =>
    obtain rfl : parent ++ [name] = loc := hat
    rw [show t.node? (parent ++ [name]) = none from hstands]
    exact ⟨by simp, fun _ h => by cases h⟩
  | node other found =>
    cases found with
    | directory => exact hat.elim
    | link target => exact hat.elim
    | file bytes =>
      obtain rfl : other = loc := hat
      have hnode : t.node? other = some (.file bytes) := hstands
      refine ⟨?_, fun old hold => ⟨bytes, Option.some.inj (hold.symm.trans hnode)⟩⟩
      rintro rfl
      cases hnode

/-- What is written at a path is read there. -/
theorem read_of_write {t t' : FileTree} {cwd : Location} {p : Path} {bytes : ByteArray}
    (h : t.write cwd p bytes = .ok t') : t'.read cwd p = .ok bytes := by
  obtain ⟨loc, htakes, rfl⟩ := write_eq_ok h
  obtain ⟨hne, hold⟩ := htakes.node?
  exact htakes.read (.put _ hold) (node?_put_self _ hne)

/-- Under an enclosed directory a path leads where it says. -/
theorem Enclosed.takesAt {t : FileTree} {loc : Location} (h : t.Enclosed loc) {cwd : Location}
    {rest : List String} (hrest : Plain rest) {place : Location}
    (ht : t.TakesAt cwd (Path.ofLocation (loc ++ rest)) place) : place = loc ++ rest := by
  obtain ⟨destination, hwalk, hat⟩ := ht
  rcases h.walk hrest hwalk with ⟨node, rfl, -⟩ | ⟨parts, name, rfl, rfl⟩
  · cases node with
    | directory => exact hat.elim
    | link target => exact hat.elim
    | file bytes => exact hat.symm
  · rw [← List.append_assoc]
    exact hat.symm

/-- What stands in a tree still stands where something is put at a free location. -/
theorem node?_put_of_free {t : FileTree} {place loc : Location} {node : Node} (new : Node)
    (hfree : t.node? place = none) (h : t.node? loc = some node) :
    (t.put place new).node? loc = some node := by
  rw [node?_put_of_ne, h]
  rintro rfl
  rw [hfree] at h
  cases h

/-- A file that is written in an enclosed directory stands there under its name. It is read there as
long as it stands there and no way has changed. -/
structure WrittenIn (t t' : FileTree) (cwd loc : Location) (name : String) (bytes : ByteArray) :
    Prop where
  files : t' = t.put (loc ++ [name]) (.file bytes)
  enclosed : t'.Enclosed loc
  ways : t.SameWays t'
  read : ∀ later : FileTree, t.SameWays later →
    later.node? (loc ++ [name]) = some (.file bytes) →
    later.read cwd ((Path.ofLocation loc).child name) = .ok bytes

theorem WrittenIn.stands {t t' : FileTree} {cwd loc : Location} {name : String}
    {bytes : ByteArray} (h : WrittenIn t t' cwd loc name bytes) :
    t'.node? (loc ++ [name]) = some (.file bytes) := by
  rw [h.files, node?_put_self _ (by simp)]

/-- A file is read beside a directory that was made where nothing stood. -/
theorem WrittenIn.read_put {t t' : FileTree} {cwd loc : Location} {name : String}
    {bytes : ByteArray} (h : WrittenIn t t' cwd loc name bytes) {place : Location}
    (hfree : t'.node? place = none) :
    (t'.put place .directory).read cwd ((Path.ofLocation loc).child name) = .ok bytes := by
  have hnew : t'.SameWays (t'.put place .directory) :=
    .put _ fun old hold => by rw [hfree] at hold; cases hold
  exact h.read _ (h.ways.trans hnew) (node?_put_of_free _ hfree h.stands)

theorem Enclosed.writtenIn {t t' : FileTree} {loc : Location} (h : t.Enclosed loc)
    {name : String} (hname : Plain [name]) {cwd : Location} {bytes : ByteArray}
    (hw : t.write cwd ((Path.ofLocation loc).child name) bytes = .ok t') :
    WrittenIn t t' cwd loc name bytes := by
  have hwithin := h.write hname hw
  obtain ⟨place, htakes, rfl⟩ := write_eq_ok hw
  obtain rfl := h.takesAt hname htakes
  exact ⟨rfl, hwithin.enclosed, .put _ htakes.node?.2,
    fun later hways hfile => htakes.read hways hfile⟩

end TwoStage.FileTree

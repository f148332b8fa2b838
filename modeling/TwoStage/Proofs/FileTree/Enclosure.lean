import TwoStage.Proofs.FileTree.Frame
import TwoStage.Proofs.FileTree.Writing

/-!
# Enclosed directories

A directory is enclosed when the way to it has no links and there are none under it. Whatever is
done with a path that starts with such a directory and never goes up stays under it: a walk ends
where the path says, and a change leaves the tree without that directory as it was. Staging works
in an enclosed directory throughout, since copies replace links by what they lead to.

## Main definitions

- `Plain` — components that never lead upwards
- `FileTree.Enclosed` — enclosed directories
- `FileTree.ChangedWithin` — a change that stays under an enclosed directory

## Main statements

- `FileTree.Enclosed.walk` — where a walk under an enclosed directory ends
- `FileTree.Enclosed.write`, `FileTree.Enclosed.makeDirectoriesPartly`,
  `FileTree.Enclosed.copyFile`, `FileTree.Enclosed.copyDirectory` — changes stay under it
-/

namespace TwoStage

/-- Components that no walk takes for a step in place or upwards. -/
def Plain (parts : List String) : Prop := ∀ name ∈ parts, name ≠ "." ∧ name ≠ ".."

theorem Plain.append {parts more : List String} (h : Plain parts) (hm : Plain more) :
    Plain (parts ++ more) := by
  intro name hname
  rcases List.mem_append.mp hname with hn | hn
  · exact h name hn
  · exact hm name hn

theorem Plain.dropLast {parts : List String} (h : Plain parts) : Plain parts.dropLast :=
  fun name hname => h name (List.dropLast_subset parts hname)

theorem Path.child_ofLocation (loc : Location) (name : String) :
    (Path.ofLocation loc).child name = Path.ofLocation (loc ++ [name]) := rfl

theorem Path.parent_ofLocation {loc : Location} {parts : List String} (h : parts ≠ []) :
    (Path.ofLocation (loc ++ parts)).parent = Path.ofLocation (loc ++ parts.dropLast) := by
  simp only [Path.parent, Path.ofLocation, List.dropLast_append_of_ne_nil h]

namespace FileTree

/-- A directory that is reached without links and has none under it, in a tree whose names are
plain. -/
structure Enclosed (t : FileTree) (loc : Location) : Prop where
  leads : ∀ above, above <+: loc → t.node? above = some .directory
  linkless : ∀ below target, loc <+: below → t.node? below ≠ some (.link target)
  plain : Plain loc
  named : ∀ entry ∈ t.entries, Plain entry.1

/-- A change of `t` into `t'` that stays under an enclosed directory. -/
structure ChangedWithin (loc : Location) (t t' : FileTree) : Prop where
  enclosed : t'.Enclosed loc
  outside : t'.removeBelow loc = t.removeBelow loc

theorem ChangedWithin.refl {t : FileTree} {loc : Location} (h : t.Enclosed loc) :
    ChangedWithin loc t t := ⟨h, rfl⟩

theorem ChangedWithin.trans {t t' t'' : FileTree} {loc : Location} (h : ChangedWithin loc t t')
    (h' : ChangedWithin loc t' t'') : ChangedWithin loc t t'' :=
  ⟨h'.enclosed, h'.outside.trans h.outside⟩

-- ════════════════════════════════════════════════════════════════════════
-- Walks
-- ════════════════════════════════════════════════════════════════════════

/-- A descent along nothing ends at the node where it stands. -/
theorem descend_nil_eq_ok {t : FileTree} {followLast : Bool} {loc : Location} {halt : Halt}
    (h : t.descend followLast loc [] = .ok halt) :
    ∃ node, t.node? loc = some node ∧ halt = .done (.node loc node) := by
  rw [descend] at h
  split at h
  · next node hnode =>
    cases h
    exact ⟨node, hnode, rfl⟩
  · cases h

/-- What a descent does at a name that is no step in place or upwards: it ends where the name is
free and the last one, it is at a link, or it goes on from the node of that name. -/
theorem descend_cons_eq_ok {t : FileTree} {followLast : Bool} {loc : Location} {name : String}
    {rest : List String} {halt : Halt} (hname : name ≠ "." ∧ name ≠ "..")
    (h : t.descend followLast loc (name :: rest) = .ok halt) :
    name.utf8ByteSize ≤ componentLimit ∧
      (t.node? (loc ++ [name]) = none ∧ rest = [] ∧ halt = .done (.free loc name) ∨
        (∃ target, t.node? (loc ++ [name]) = some (.link target)) ∨
        (∃ node, t.node? (loc ++ [name]) = some node) ∧
          t.descend followLast (loc ++ [name]) rest = .ok halt) := by
  rw [descend] at h
  split at h
  · rw [if_neg hname.1, if_neg hname.2] at h
    split at h
    · cases h
    · next hshort =>
      refine ⟨Nat.not_lt.mp hshort, ?_⟩
      split at h
      · next hnone =>
        split at h
        · next hlast =>
          cases h
          exact Or.inl ⟨hnone, List.isEmpty_iff.mp hlast, rfl⟩
        · cases h
      · next target hlink => exact Or.inr (Or.inl ⟨target, hlink⟩)
      · next node _ hnode => exact Or.inr (Or.inr ⟨⟨node, hnode⟩, h⟩)
  · cases h
  · cases h

/-- The way to an enclosed directory leads there, unless one of its names is too long. -/
theorem Enclosed.descend_along {t : FileTree} {loc : Location} (h : t.Enclosed loc)
    (followLast : Bool) (suf : List String) {pre : Location} (hloc : pre ++ suf = loc)
    (rest : List String) :
    t.descend followLast pre (suf ++ rest) = t.descend followLast loc rest ∨
      t.descend followLast pre (suf ++ rest) = .error .nameTooLong := by
  induction suf generalizing pre with
  | nil =>
    left
    rw [List.append_nil] at hloc
    rw [hloc, List.nil_append]
  | cons name suf ih =>
    have hhere : t.node? pre = some .directory :=
      h.leads pre ⟨name :: suf, hloc⟩
    have hnext : t.node? (pre ++ [name]) = some .directory :=
      h.leads (pre ++ [name]) ⟨suf, by rw [← hloc, List.append_assoc, List.singleton_append]⟩
    have hname := h.plain name (by rw [← hloc]; simp)
    rw [List.cons_append, descend]
    simp only [hhere, hname.1, hname.2, if_false, hnext]
    split
    · exact Or.inr rfl
    · exact ih (by rw [← hloc, List.append_assoc, List.singleton_append])

/-- A walk on from a place under an enclosed directory goes straight on: it ends at the node at the
end of the way, or at a free name there. -/
theorem Enclosed.descend_within {t : FileTree} {loc : Location} (h : t.Enclosed loc)
    {followLast : Bool} {rest : List String} (hr : Plain rest) {l : Location} (hl : loc <+: l)
    {halt : Halt} (hd : t.descend followLast l rest = .ok halt) :
    (∃ node, halt = .done (.node (l ++ rest) node) ∧ t.node? (l ++ rest) = some node) ∨
      ∃ parts name, rest = parts ++ [name] ∧ halt = .done (.free (l ++ parts) name) := by
  induction rest generalizing l with
  | nil =>
    obtain ⟨node, hnode, rfl⟩ := descend_nil_eq_ok hd
    rw [List.append_nil]
    exact Or.inl ⟨node, rfl, hnode⟩
  | cons name rest ih =>
    have hrest : Plain rest := fun other hother => hr other (List.mem_cons_of_mem _ hother)
    have hnext : loc <+: l ++ [name] := hl.trans (List.prefix_append l [name])
    obtain ⟨-, ⟨-, rfl, rfl⟩ | ⟨target, hlink⟩ | ⟨-, hd⟩⟩ :=
      descend_cons_eq_ok (hr name List.mem_cons_self) hd
    · exact Or.inr ⟨[], name, rfl, by rw [List.append_nil]⟩
    · exact absurd hlink (h.linkless _ _ hnext)
    · rcases ih hrest hnext hd with ⟨node, hhalt, hnode⟩ | ⟨parts, last, hparts, hhalt⟩
      · left
        rw [List.append_assoc, List.singleton_append] at hhalt hnode
        exact ⟨node, hhalt, hnode⟩
      · right
        refine ⟨name :: parts, last, by rw [hparts, List.cons_append], ?_⟩
        rw [hhalt, List.append_assoc, List.singleton_append]

/-- A path is refused for its characters or for its length, or its components are walked. -/
theorem walk_cases (t : FileTree) (cwd : Location) (followLast : Bool) (p : Path) :
    t.walk cwd followLast p = .error .nullByte ∨
      t.walk cwd followLast p = .error (.refused .nameTooLong p.text) ∨
      t.walk cwd followLast p =
        (t.walkFrom followLast linkLimit (if p.isAbsolute then [] else cwd) p.parts).mapError
          fun why => .refused why p.text := by
  rw [FileTree.walk]
  by_cases hnull : p.text.toList.contains '\x00' = true
  · exact Or.inl (if_pos hnull)
  · refine Or.inr ?_
    by_cases hlong : pathLimit ≤ p.text.utf8ByteSize
    · exact Or.inl ((if_neg hnull).trans (if_pos hlong))
    · refine Or.inr ((if_neg hnull).trans ((if_neg hlong).trans ?_))
      cases t.walkFrom followLast linkLimit (if p.isAbsolute then [] else cwd) p.parts <;> rfl

/-- A walk from an enclosed directory ends where the path says. -/
theorem Enclosed.walk {t : FileTree} {loc : Location} (h : t.Enclosed loc) {cwd : Location}
    {followLast : Bool} {rest : List String} (hr : Plain rest) {destination : Destination}
    (hw : t.walk cwd followLast (Path.ofLocation (loc ++ rest)) = .ok destination) :
    (∃ node, destination = .node (loc ++ rest) node ∧ t.node? (loc ++ rest) = some node) ∨
      ∃ parts name, rest = parts ++ [name] ∧ destination = .free (loc ++ parts) name := by
  have hfrom : t.walkFrom followLast linkLimit [] (loc ++ rest) = .ok destination :=
    (walk_eq_ok_iff_walkFrom.mp hw).2.2
  have hends : ∀ halt, t.descend followLast [] (loc ++ rest) = .ok halt →
      (∃ node, halt = .done (.node (loc ++ rest) node) ∧ t.node? (loc ++ rest) = some node) ∨
        ∃ parts name, rest = parts ++ [name] ∧ halt = .done (.free (loc ++ parts) name) := by
    intro halt hd
    rcases h.descend_along followLast loc (List.nil_append loc) rest with halong | halong
    · exact h.descend_within hr (List.prefix_refl loc) (halong.symm.trans hd)
    · cases halong.symm.trans hd
  rcases walkFrom_cases hfrom with hdone | ⟨_, _, _, _, -, hmet, -⟩
  · rcases hends _ hdone with ⟨node, hhalt, hnode⟩ | ⟨parts, name, hparts, hhalt⟩
    · cases hhalt
      exact Or.inl ⟨node, rfl, hnode⟩
    · cases hhalt
      exact Or.inr ⟨parts, name, hparts, rfl⟩
  · rcases hends _ hmet with ⟨_, hhalt, -⟩ | ⟨_, _, -, hhalt⟩ <;> cases hhalt

-- ════════════════════════════════════════════════════════════════════════
-- Single changes
-- ════════════════════════════════════════════════════════════════════════

theorem mem_putEntry {loc : Location} {node : Node} {entries : List (Location × Node)}
    {entry : Location × Node} (h : entry ∈ putEntry loc node entries) :
    entry ∈ entries ∨ entry = (loc, node) := by
  induction entries with
  | nil => exact Or.inr (List.mem_singleton.mp h)
  | cons first rest ih =>
    obtain ⟨other, old⟩ := first
    rw [putEntry] at h
    split at h
    · rcases List.mem_cons.mp h with rfl | hrest
      · exact Or.inr rfl
      · exact Or.inl (List.mem_cons_of_mem _ hrest)
    · rcases List.mem_cons.mp h with rfl | hrest
      · exact Or.inl List.mem_cons_self
      · exact (ih hrest).imp_left (List.mem_cons_of_mem _)

/-- Setting a node that is no link under an enclosed directory stays under it. -/
theorem Enclosed.put {t : FileTree} {loc : Location} (h : t.Enclosed loc) {rest : List String}
    (hr : Plain rest) (hne : rest ≠ []) {node : Node} (hlink : ∀ target, node ≠ .link target) :
    ChangedWithin loc t (t.put (loc ++ rest) node) := by
  have hempty : loc ++ rest ≠ [] := by simp [hne]
  refine ⟨⟨fun above habove => ?_, fun below target hbelow => ?_, h.plain, fun entry hmem => ?_⟩,
    removeBelow_put node (List.prefix_append loc rest)⟩
  · have hother : above ≠ loc ++ rest := by
      rintro rfl
      have := habove.length_le
      have := List.length_pos_iff.mpr hne
      rw [List.length_append] at *
      omega
    rw [node?_put_of_ne node hother, h.leads above habove]
  · by_cases hsame : below = loc ++ rest
    · rw [hsame, node?_put_self node hempty]
      simpa using hlink target
    · rw [node?_put_of_ne node hsame]
      exact h.linkless below target hbelow
  · rcases mem_putEntry hmem with hold | rfl
    · exact h.named entry hold
    · exact h.plain.append hr

/-- A file written under an enclosed directory stands where its path says. -/
theorem Enclosed.write {t t' : FileTree} {loc cwd : Location} (h : t.Enclosed loc)
    {rest : List String} (hr : Plain rest) {bytes : ByteArray}
    (hw : t.write cwd (Path.ofLocation (loc ++ rest)) bytes = .ok t') :
    ChangedWithin loc t t' := by
  rw [FileTree.write] at hw
  split at hw
  · next l old hwalk =>
    cases hw
    rcases h.walk hr hwalk with ⟨node, hdest, hnode⟩ | ⟨parts, name, _, hdest⟩
    · cases hdest
      have hne : rest ≠ [] := by
        rintro rfl
        rw [List.append_nil, h.leads loc (List.prefix_refl loc)] at hnode
        cases hnode
      exact h.put hr hne (by simp)
    · cases hdest
  · cases hw
  · next parent name hwalk =>
    cases hw
    rcases h.walk hr hwalk with ⟨node, hdest, _⟩ | ⟨parts, last, rfl, hdest⟩
    · cases hdest
    · cases hdest
      rw [List.append_assoc]
      exact h.put hr (by simp) (by simp)
  · cases hw

/-- A directory made under an enclosed directory stands where its path says. -/
theorem Enclosed.makeDirectory {t t' : FileTree} {loc cwd : Location} (h : t.Enclosed loc)
    {rest : List String} (hr : Plain rest)
    (hm : t.makeDirectory cwd (Path.ofLocation (loc ++ rest)) = .ok t') :
    ChangedWithin loc t t' := by
  obtain ⟨parent, name, hwalk, rfl⟩ := makeDirectory_eq_ok hm
  rcases h.walk hr hwalk with ⟨node, hdest, _⟩ | ⟨parts, last, rfl, hdest⟩
  · cases hdest
  · cases hdest
    rw [List.append_assoc]
    exact h.put hr (by simp) (by simp)

-- ════════════════════════════════════════════════════════════════════════
-- Directories with those above them
-- ════════════════════════════════════════════════════════════════════════

theorem Enclosed.ensureDirectory {t t' : FileTree} {loc cwd : Location} (h : t.Enclosed loc)
    {rest : List String} (hr : Plain rest)
    (hm : t.ensureDirectory cwd (Path.ofLocation (loc ++ rest)) = .ok t') :
    ChangedWithin loc t t' := by
  rcases ensureDirectory_eq_ok hm with hmade | ⟨-, rfl⟩
  · exact h.makeDirectory hr hmade
  · exact .refl h

/-- Nothing is missing on the way to an enclosed directory. -/
theorem Enclosed.makeDirectory_self_ne {t : FileTree} {loc cwd : Location} (h : t.Enclosed loc)
    (path : String) :
    t.makeDirectory cwd (Path.ofLocation loc) ≠ .error (.refused .noEntry path) := by
  have hhere : t.descend false loc [] = .ok (.done (.node loc .directory)) := by
    rw [descend, h.leads loc (List.prefix_refl loc)]
  have hfrom : t.walkFrom false linkLimit [] loc = .ok (.node loc .directory) ∨
      t.walkFrom false linkLimit [] loc = .error .nameTooLong := by
    have halong := h.descend_along false loc (List.nil_append loc) []
    rw [List.append_nil, hhere] at halong
    rw [walkFrom]
    rcases halong with hd | hd
    · exact Or.inl (by rw [hd])
    · exact Or.inr (by rw [hd])
  rw [FileTree.makeDirectory]
  rcases t.walk_cases cwd false (Path.ofLocation loc) with hc | hc | hc
  · rw [hc]
    simp
  · rw [hc]
    simp
  · rw [show (Path.ofLocation loc).isAbsolute = true from rfl, if_pos rfl,
      show (Path.ofLocation loc).parts = loc from rfl] at hc
    rcases hfrom with hd | hd
    · rw [hc, hd]
      simp [Except.mapError]
    · rw [hc, hd]
      simp [Except.mapError]

theorem Enclosed.orAsBefore {t : FileTree} {loc cwd : Location} (h : t.Enclosed loc)
    {rest : List String} (hr : Plain rest) :
    ChangedWithin loc t (makeDirectoriesFrom.orAsBefore t
      (t.ensureDirectory cwd (Path.ofLocation (loc ++ rest)))).1 := by
  cases hm : t.ensureDirectory cwd (Path.ofLocation (loc ++ rest)) with
  | ok made => exact h.ensureDirectory hr hm
  | error fault => exact .refl h

/-- Directories made under an enclosed directory, with those above them, stay under it, also where
one of them is refused: the climb to missing directories stops there at the latest. -/
theorem Enclosed.makeDirectoriesFrom {loc cwd : Location} (depth : Nat) {t : FileTree}
    (h : t.Enclosed loc) {rest : List String} (hr : Plain rest) :
    ChangedWithin loc t (t.makeDirectoriesFrom cwd depth (Path.ofLocation (loc ++ rest))).1 := by
  induction depth generalizing rest with
  | zero => exact h.orAsBefore hr
  | succ depth ih =>
    rw [FileTree.makeDirectoriesFrom]
    split
    · next path hmissing =>
      have hne : rest ≠ [] := by
        rintro rfl
        rw [List.append_nil] at hmissing
        exact h.makeDirectory_self_ne path hmissing
      rw [Path.parent_ofLocation hne]
      have hfirst := ih hr.dropLast
      split
      · next made hmade =>
        rw [hmade] at hfirst
        exact hfirst.trans (hfirst.enclosed.orAsBefore hr)
      · next made fault hmade =>
        rw [hmade] at hfirst
        exact hfirst
    · exact h.orAsBefore hr

theorem Enclosed.makeDirectoriesPartly {t : FileTree} {loc cwd : Location} (h : t.Enclosed loc)
    {rest : List String} (hr : Plain rest) :
    ChangedWithin loc t (t.makeDirectoriesPartly cwd (Path.ofLocation (loc ++ rest))).1 :=
  h.makeDirectoriesFrom _ hr

-- ════════════════════════════════════════════════════════════════════════
-- Copies
-- ════════════════════════════════════════════════════════════════════════

theorem Enclosed.copyFile {t t' : FileTree} {loc : Location} (h : t.Enclosed loc)
    {rest : List String} (hr : Plain rest) {source : Path}
    (hc : t.copyFile source (Path.ofLocation (loc ++ rest)) = .ok t') :
    ChangedWithin loc t t' := by
  rw [FileTree.copyFile] at hc
  split at hc
  · exact h.write hr hc
  · cases hc

/-- The names in a directory are names of its entries. -/
theorem Enclosed.plain_of_mem_listDirectory {t : FileTree} {loc : Location} (h : t.Enclosed loc)
    {source : Path} {name : String} (hname : name ∈ t.listDirectory source) : Plain [name] := by
  rw [listDirectory] at hname
  split at hname
  · obtain ⟨entry, hentry, hlast⟩ := List.mem_filterMap.mp hname
    split at hlast
    · have hmem : name ∈ entry.1 := List.mem_of_getLast? hlast
      intro other hother
      rw [List.mem_singleton.mp hother]
      exact h.named entry hentry name hmem
    · cases hlast
  · cases hname

/-- A directory copied to a place under an enclosed directory stays under it, at every level. -/
theorem Enclosed.copyDirectoryFrom {loc : Location} (skipped : List String) (depth : Nat)
    {t t' : FileTree} (h : t.Enclosed loc) {rest : List String} (hr : Plain rest) {source : Path}
    {failed : Bool}
    (hc : copyDirectoryFrom skipped depth t source (Path.ofLocation (loc ++ rest)) =
      .ok (t', failed)) :
    ChangedWithin loc t t' := by
  induction depth generalizing t t' rest source failed with
  | zero =>
    rw [FileTree.copyDirectoryFrom] at hc
    cases hc
  | succ depth ih =>
    rw [FileTree.copyDirectoryFrom] at hc
    split at hc
    · cases hc
    · next made hmade =>
      have hfirst := h.makeDirectory hr hmade
      obtain rfl : _ = t' := congrArg Prod.fst (Except.ok.inj hc)
      -- the names are copied one after the other; every tree on the way has changed within `loc`
      refine hfirst.trans (List.foldlRecOn
        (motive := fun acc : FileTree × Bool => ChangedWithin loc made acc.1) _ _
        (.refl hfirst.enclosed) ?_)
      rintro ⟨now, bad⟩ hnow name hname
      have hplain : Plain (rest ++ [name]) :=
        hr.append (h.plain_of_mem_listDirectory (List.mem_filter.mp hname).1)
      rw [Path.child_ofLocation, List.append_assoc]
      dsimp only
      split
      · exact hnow
      · split
        · next copied below hcopied => exact hnow.trans (ih hnow.enclosed hplain hcopied)
        · exact hnow
      · split
        · next copied hcopied => exact hnow.trans (hnow.enclosed.copyFile hplain hcopied)
        · exact hnow

/-- A directory copied to a place under an enclosed directory stays under it, also where something
could not be copied. -/
theorem Enclosed.copyDirectory {t : FileTree} {loc : Location} (h : t.Enclosed loc)
    (skipped : List String) {rest : List String} (hr : Plain rest) (source : Path) :
    ChangedWithin loc t (t.copyDirectory skipped source (Path.ofLocation (loc ++ rest))).1 := by
  rw [FileTree.copyDirectory]
  split
  · exact .refl h
  · next hcopied => exact h.copyDirectoryFrom skipped _ hr hcopied
  · next hcopied => exact h.copyDirectoryFrom skipped _ hr hcopied

end FileTree

end TwoStage

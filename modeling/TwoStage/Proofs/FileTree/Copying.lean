import TwoStage.Proofs.FileTree.Sound

/-!
# What copies leave

Work in an enclosed directory of a sound tree leaves a sound tree. Directories that are made stand
where their paths say and change nothing beside them; a file that is copied has the bytes of its
source; and a directory that is copied without a complaint has below it exactly what its source has,
but for the names that are skipped at every level.

## Main definitions

- `FileTree.Ground` — a sound tree with an enclosed directory
- `FileTree.LaidOut` — a directory that is made with those above it
- `FileTree.GrownAt` — a change that grows a directory where nothing stood
- `FileTree.Kept` — names that no copy skips
- `FileTree.Grafted` — a directory that was copied

## Main statements

- `FileTree.Ground.makeDirectoriesPartly_eq_ok` — what making directories leaves
- `FileTree.Ground.copyFile_eq_ok` — what the copy of a file leaves
- `FileTree.copyDirectoryFrom_induction` — what the copy of a directory keeps
- `FileTree.Ground.copyDirectoryFrom_grafted` — what the copy of a directory leaves
- `FileTree.Ground.copyDirectoryFrom_into_ne` — no directory is copied into itself
-/

namespace TwoStage.FileTree

/-- A sound tree with an enclosed directory. -/
structure Ground (t : FileTree) (loc : Location) : Prop where
  sound : t.Sound
  enclosed : t.Enclosed loc

-- ════════════════════════════════════════════════════════════════════════
-- Where walks end that find nothing
-- ════════════════════════════════════════════════════════════════════════

private theorem directory_of_descend_free {t : FileTree} {followLast : Bool} {parts : List String}
    {loc parent : Location} {name : String}
    (h : t.descend followLast loc parts = .ok (.done (.free parent name))) :
    t.node? parent = some .directory := by
  fun_induction descend t followLast loc parts with
  | case3 loc rest hhere ih => exact ih h
  | case4 loc rest hhere hdot ih => exact ih h
  | case6 loc first rest hhere =>
    cases h
    exact hhere
  | case10 loc first rest hhere hdot hup hshort node hnolink hnode ih => exact ih h
  | case1 | case2 | case5 | case7 | case8 | case9 | case11 | case12 => cases h

private theorem directory_of_walkFrom_free {t : FileTree} {followLast : Bool} {links : Nat}
    {parts : List String} {loc parent : Location} {name : String}
    (h : t.walkFrom followLast links loc parts = .ok (.free parent name)) :
    t.node? parent = some .directory :=
  walkFrom_induct (motive := fun _ _ _ => t.node? parent = some .directory)
    (fun _ _ _ hdone => directory_of_descend_free hdone) (fun _ _ _ _ _ _ _ ih => ih) h

/-- A walk finds a name free only in a directory. -/
theorem directory_of_walk_free {t : FileTree} {cwd : Location} {followLast : Bool} {p : Path}
    {parent : Location} {name : String}
    (h : t.walk cwd followLast p = .ok (.free parent name)) :
    t.node? parent = some .directory :=
  directory_of_walkFrom_free (walk_eq_ok_iff_walkFrom.mp h).2.2

-- ════════════════════════════════════════════════════════════════════════
-- Single changes
-- ════════════════════════════════════════════════════════════════════════

theorem dropLast_append {loc : Location} {rest : List String} (h : rest ≠ []) :
    (loc ++ rest).dropLast = loc ++ rest.dropLast := List.dropLast_append_of_ne_nil h

/-- Something always stands at the root. -/
theorem ne_nil_of_node? {t : FileTree} {loc : Location} (h : t.node? loc = none) : loc ≠ [] := by
  rintro rfl
  cases h

namespace Ground

variable {t t' : FileTree} {loc cwd : Location} (h : t.Ground loc) {rest : List String}

include h

theorem directory : t.node? loc = some .directory := h.enclosed.leads loc (List.prefix_refl loc)

/-- Setting a node that is no link leaves good ground, if nothing or a file stood there. -/
theorem put (hr : ∀ name ∈ rest, IsName name) (hne : rest ≠ [])
    (hparent : t.node? (loc ++ rest.dropLast) = some .directory) {node : Node}
    (hlink : ∀ target, node ≠ .link target)
    (hold : ∀ old, t.node? (loc ++ rest) = some old → ∃ bytes, old = .file bytes) :
    (t.put (loc ++ rest) node).Ground loc := by
  refine ⟨h.sound.put node (by simp [hne]) ?_ ?_ hold,
    (h.enclosed.put (plain_of_isName hr) hne hlink).enclosed⟩
  · rwa [dropLast_append hne]
  · intro name hname
    rcases List.mem_append.mp hname with hl | hrest
    · exact h.sound.isName_of_node? h.directory name hl
    · exact hr name hrest

/-- A directory is made only under a free name in a directory. -/
theorem makeDirectory_eq_ok (hr : ∀ name ∈ rest, IsName name)
    (hm : t.makeDirectory cwd (Path.ofLocation (loc ++ rest)) = .ok t') :
    t.node? (loc ++ rest) = none ∧ t' = t.put (loc ++ rest) .directory ∧ t'.Ground loc := by
  obtain ⟨parent, name, hwalk, rfl⟩ := FileTree.makeDirectory_eq_ok hm
  have hparent := directory_of_walk_free hwalk
  have hnone := node?_of_walk_free hwalk
  rcases h.enclosed.walk (plain_of_isName hr) hwalk with
    ⟨node, hdest, -⟩ | ⟨parts, last, rfl, hdest⟩
  · cases hdest
  · cases hdest
    rw [List.append_assoc] at hnone ⊢
    refine ⟨hnone, rfl, h.put hr (by simp) ?_ (by simp) fun old hold => ?_⟩
    · rwa [List.dropLast_concat]
    · rw [hnone] at hold
      cases hold

/-- A file is written where nothing or a file stood. -/
theorem write_eq_ok (hr : ∀ name ∈ rest, IsName name) {bytes : ByteArray}
    (hw : t.write cwd (Path.ofLocation (loc ++ rest)) bytes = .ok t') :
    (∀ old, t.node? (loc ++ rest) = some old → ∃ bytes, old = .file bytes) ∧
      t' = t.put (loc ++ rest) (.file bytes) ∧ t'.Ground loc := by
  obtain ⟨place, htakes, rfl⟩ := FileTree.write_eq_ok hw
  obtain rfl := h.enclosed.takesAt (plain_of_isName hr) htakes
  have hold := htakes.node?.2
  have hne : rest ≠ [] := by
    rintro rfl
    rw [List.append_nil] at hold
    obtain ⟨bytes, hbytes⟩ := hold _ h.directory
    cases hbytes
  refine ⟨hold, rfl, h.put hr hne ?_ (by simp) hold⟩
  obtain ⟨destination, hwalk, hat⟩ := htakes
  rcases h.enclosed.walk (plain_of_isName hr) hwalk with
    ⟨node, rfl, hnode⟩ | ⟨parts, last, rfl, rfl⟩
  · rw [← dropLast_append hne]
    exact (h.sound.based _ (mem_entries_of_node? (by simp [hne]) hnode)).2
  · rw [List.dropLast_concat]
    exact directory_of_walk_free hwalk

/-- What is asked about a path in an enclosed directory is answered from what stands there. -/
theorem isDirectory?_eq_true (hr : ∀ name ∈ rest, IsName name)
    (hd : t.isDirectory? cwd (Path.ofLocation (loc ++ rest)) = .ok true) :
    t.walk cwd true (Path.ofLocation (loc ++ rest)) = .ok (.node (loc ++ rest) .directory) ∧
      t.node? (loc ++ rest) = some .directory := by
  obtain ⟨place, hwalk⟩ := isDirectory?_eq_true_iff_walk.mp hd
  rcases h.enclosed.walk (plain_of_isName hr) hwalk with ⟨node, hdest, hnode⟩ | ⟨_, _, _, hdest⟩
  · cases hdest
    exact ⟨hwalk, hnode⟩
  · cases hdest

/-- The bytes that are read in an enclosed directory are those of the file that stands there. -/
theorem read_eq_ok (hr : ∀ name ∈ rest, IsName name) {bytes : ByteArray}
    (hread : t.read cwd (Path.ofLocation (loc ++ rest)) = .ok bytes) :
    t.node? (loc ++ rest) = some (.file bytes) := by
  obtain ⟨place, hwalk⟩ := read_eq_ok_iff_walk.mp hread
  rcases h.enclosed.walk (plain_of_isName hr) hwalk with ⟨node, hdest, hnode⟩ | ⟨_, _, _, hdest⟩
  · cases hdest
    exact hnode
  · cases hdest

end Ground

-- ════════════════════════════════════════════════════════════════════════
-- Directories with those above them
-- ════════════════════════════════════════════════════════════════════════

/-- A directory that is made with those above it: nothing else has changed. -/
structure LaidOut (t t' : FileTree) (loc place : Location) : Prop where
  ground : t'.Ground loc
  directory : t'.node? place = some .directory
  elsewhere : ∀ other, ¬ other <+: place → t'.node? other = t.node? other

theorem LaidOut.trans {t t' t'' : FileTree} {loc above place : Location}
    (h : LaidOut t t' loc above) (h' : LaidOut t' t'' loc place) (habove : above <+: place) :
    LaidOut t t'' loc place :=
  ⟨h'.ground, h'.directory, fun other hother => (h'.elsewhere other hother).trans
    (h.elsewhere other fun hbefore => hother (hbefore.trans habove))⟩

/-- All the way to a directory that is made stand directories. -/
theorem LaidOut.leads {t t' : FileTree} {loc place above : Location} (h : LaidOut t t' loc place)
    (habove : above <+: place) : t'.node? above = some .directory := by
  by_cases hsame : above = place
  · rw [hsame, h.directory]
  · exact h.ground.sound.leads habove hsame h.directory

namespace Ground

variable {t t' : FileTree} {loc cwd : Location} (h : t.Ground loc) {rest : List String}

include h

theorem ensureDirectory_eq_ok (hr : ∀ name ∈ rest, IsName name)
    (hm : t.ensureDirectory cwd (Path.ofLocation (loc ++ rest)) = .ok t') :
    LaidOut t t' loc (loc ++ rest) := by
  rcases FileTree.ensureDirectory_eq_ok hm with hmade | ⟨hthere, rfl⟩
  · obtain ⟨hnone, rfl, hground⟩ := h.makeDirectory_eq_ok hr hmade
    refine ⟨hground, node?_put_self _ (ne_nil_of_node? hnone),
      fun other hother => node?_put_of_ne _ ?_⟩
    rintro rfl
    exact hother (List.prefix_refl _)
  · exact ⟨h, (h.isDirectory?_eq_true hr hthere).2, fun _ _ => rfl⟩

theorem makeDirectoriesFrom_eq_ok (depth : Nat) (hr : ∀ name ∈ rest, IsName name)
    (hm : t.makeDirectoriesFrom cwd depth (Path.ofLocation (loc ++ rest)) = (t', none)) :
    LaidOut t t' loc (loc ++ rest) := by
  induction depth generalizing rest t' with
  | zero => exact h.ensureDirectory_eq_ok hr (orAsBefore_eq_none hm)
  | succ depth ih =>
    rw [makeDirectoriesFrom] at hm
    split at hm
    · next path hmissing =>
      have hne : rest ≠ [] := by
        rintro rfl
        rw [List.append_nil] at hmissing
        exact h.enclosed.makeDirectory_self_ne path hmissing
      rw [Path.parent_ofLocation hne] at hm
      split at hm
      · next made hmade =>
        have hfirst := ih (isName_dropLast hr) hmade
        exact hfirst.trans (hfirst.ground.ensureDirectory_eq_ok hr (orAsBefore_eq_none hm))
          ((List.prefix_append_right_inj loc).mpr (List.dropLast_prefix rest))
      · cases hm
    · exact h.ensureDirectory_eq_ok hr (orAsBefore_eq_none hm)

/-- Directories that are made in an enclosed directory stand where their path says. -/
theorem makeDirectoriesPartly_eq_ok (hr : ∀ name ∈ rest, IsName name)
    (hm : t.makeDirectoriesPartly cwd (Path.ofLocation (loc ++ rest)) = (t', none)) :
    LaidOut t t' loc (loc ++ rest) := h.makeDirectoriesFrom_eq_ok _ hr hm

end Ground

-- ════════════════════════════════════════════════════════════════════════
-- Directories that are copied
-- ════════════════════════════════════════════════════════════════════════

/-- The names at a location are those under which something stands there. -/
theorem mem_names_iff {t : FileTree} {loc : Location} {name : String} :
    name ∈ t.names loc ↔ ∃ node, t.node? (loc ++ [name]) = some node := by
  rw [names, List.mem_filterMap]
  constructor
  · rintro ⟨entry, hentry, hlast⟩
    split at hlast
    · next hparent =>
      have heq := List.dropLast_append_getLast? _ hlast
      rw [hparent] at heq
      rw [node?, if_neg (by simp), ← Option.isSome_iff_exists, Option.isSome_iff_ne_none, ne_eq,
        List.lookup_eq_none_iff]
      exact fun hnone => by simpa [heq] using hnone entry hentry
    · cases hlast
  · rintro ⟨node, hnode⟩
    exact ⟨(loc ++ [name], node), mem_entries_of_node? (by simp) hnode, by simp⟩

theorem Sound.nodup_names {t : FileTree} (h : t.Sound) (loc : Location) : (t.names loc).Nodup := by
  have hnames : t.names loc = (t.entries.map Prod.fst).filterMap fun place =>
      if place.dropLast = loc then place.getLast? else none := by
    rw [List.filterMap_map]
    rfl
  rw [hnames]
  refine h.distinct.filterMap fun first second name hfirst hsecond => ?_
  rw [Option.mem_def] at hfirst hsecond
  split at hfirst
  · next hone =>
    split at hsecond
    · next htwo =>
      rw [← List.dropLast_append_getLast? _ hfirst, ← List.dropLast_append_getLast? _ hsecond, hone,
        htwo]
    · cases hsecond
  · cases hfirst

theorem Sound.isName_of_mem_names {t : FileTree} (h : t.Sound) {loc : Location} {name : String}
    (hname : name ∈ t.names loc) : IsName name := by
  obtain ⟨node, hnode⟩ := mem_names_iff.mp hname
  exact h.isName_of_node? hnode name (by simp)

theorem Sound.isName_of_mem_listDirectory {t : FileTree} (h : t.Sound) {source : Path}
    {name : String} (hname : name ∈ t.listDirectory source) : IsName name := by
  rw [listDirectory] at hname
  split at hname
  · exact h.isName_of_mem_names hname
  · cases hname

/-- One step of the copy of a directory: a name in it. -/
def copyName (skipped : List String) (depth : Nat) (source target : Path)
    (done : FileTree × Bool) (name : String) : FileTree × Bool :=
  match done.1.isDirectory? [] (source.child name) with
  | .error _ => (done.1, true)
  | .ok true =>
    match copyDirectoryFrom skipped depth done.1 (source.child name) (target.child name) with
    | .ok (t, below) => (t, done.2 || below)
    | .error _ => (done.1, true)
  | .ok false =>
    match done.1.copyFile (source.child name) (target.child name) with
    | .ok t => (t, done.2)
    | .error _ => (done.1, true)

/-- The copy of a directory: the directory is made, and then its names are copied. -/
theorem copyDirectoryFrom_succ (skipped : List String) (depth : Nat) (t : FileTree)
    (source target : Path) :
    copyDirectoryFrom skipped (depth + 1) t source target =
      (t.makeDirectory [] target).map fun made =>
        (((t.listDirectory source).filter fun name => !skipped.contains name).foldl
          (copyName skipped depth source target) (made, false)) := by
  rw [copyDirectoryFrom]
  cases t.makeDirectory [] target <;> rfl

theorem copyDirectoryFrom_succ_eq_ok {skipped : List String} {depth : Nat} {t : FileTree}
    {source target : Path} {result : FileTree × Bool}
    (h : copyDirectoryFrom skipped (depth + 1) t source target = .ok result) :
    ∃ made, t.makeDirectory [] target = .ok made ∧
      ((t.listDirectory source).filter fun name => !skipped.contains name).foldl
        (copyName skipped depth source target) (made, false) = result := by
  rw [copyDirectoryFrom_succ] at h
  cases hmade : t.makeDirectory [] target with
  | error fault => simp [hmade, Except.map] at h
  | ok made =>
    rw [hmade] at h
    exact ⟨made, rfl, Except.ok.inj h⟩

/-- A step does nothing, or copies a directory, or copies a file. -/
theorem copyName_cases (skipped : List String) (depth : Nat) (source target : Path)
    (done : FileTree × Bool) (name : String) :
    copyName skipped depth source target done name = (done.1, true) ∨
      (∃ t below, done.1.isDirectory? [] (source.child name) = .ok true ∧
        copyDirectoryFrom skipped depth done.1 (source.child name) (target.child name) =
          .ok (t, below) ∧
        copyName skipped depth source target done name = (t, done.2 || below)) ∨
      ∃ t, done.1.isDirectory? [] (source.child name) = .ok false ∧
        done.1.copyFile (source.child name) (target.child name) = .ok t ∧
        copyName skipped depth source target done name = (t, done.2) := by
  unfold copyName
  cases hasked : done.1.isDirectory? [] (source.child name) with
  | error fault => exact Or.inl rfl
  | ok isDirectory =>
    cases isDirectory with
    | true =>
      cases hcopied : copyDirectoryFrom skipped depth done.1 (source.child name)
          (target.child name) with
      | error fault => exact Or.inl rfl
      | ok copied => exact Or.inr (Or.inl ⟨copied.1, copied.2, rfl, rfl, rfl⟩)
    | false =>
      cases hcopied : done.1.copyFile (source.child name) (target.child name) with
      | error fault => exact Or.inl rfl
      | ok copied => exact Or.inr (Or.inr ⟨copied, rfl, rfl, rfl⟩)

/-- A change that grows a directory where nothing stood, and leaves everything outside it. -/
structure GrownAt (t t' : FileTree) (loc target : Location) : Prop where
  ground : t'.Ground loc
  free : t.node? target = none
  directory : t'.node? target = some .directory
  outside : ∀ other, ¬ target <+: other → t'.node? other = t.node? other

/-- All the way to a grown directory stand directories. -/
theorem GrownAt.leads {t t' : FileTree} {loc target above : Location} (h : GrownAt t t' loc target)
    (habove : above <+: target) : t'.node? above = some .directory := by
  by_cases hsame : above = target
  · rw [hsame, h.directory]
  · exact h.ground.sound.leads habove hsame h.directory

theorem child_not_above (loc : Location) (name : String) : ¬ loc ++ [name] <+: loc := by
  intro h
  have hlength := h.length_le
  rw [List.length_append, List.length_singleton] at hlength
  omega

/-- What grows below a grown directory belongs to it. -/
theorem GrownAt.below {t t' t'' : FileTree} {loc target : Location}
    (h : GrownAt t t' loc target) (name : String) (hground : t''.Ground loc)
    (houtside : ∀ other, ¬ target ++ [name] <+: other → t''.node? other = t'.node? other) :
    GrownAt t t'' loc target := by
  refine ⟨hground, h.free, ?_, fun other hother => ?_⟩
  · rw [houtside _ (child_not_above target name), h.directory]
  · rw [houtside other fun hbelow => hother ((List.prefix_append _ _).trans hbelow),
      h.outside other hother]

namespace Ground

variable {t t' : FileTree} {loc : Location} (h : t.Ground loc) {rest : List String}

include h

/-- A file that is copied into an enclosed directory has the bytes of its source. -/
theorem copyFile_eq_ok (hr : ∀ name ∈ rest, IsName name) {source : Path}
    (hc : t.copyFile source (Path.ofLocation (loc ++ rest)) = .ok t') :
    ∃ bytes, t.read [] source = .ok bytes ∧
      (∀ old, t.node? (loc ++ rest) = some old → ∃ bytes, old = .file bytes) ∧
      t' = t.put (loc ++ rest) (.file bytes) ∧ t'.Ground loc := by
  rw [copyFile] at hc
  split at hc
  · next bytes hread => exact ⟨bytes, hread, h.write_eq_ok hr hc⟩
  · cases hc

/-- A directory that is made grows where nothing stood. -/
theorem makeDirectory_grownAt (hr : ∀ name ∈ rest, IsName name)
    (hm : t.makeDirectory [] (Path.ofLocation (loc ++ rest)) = .ok t') :
    GrownAt t t' loc (loc ++ rest) := by
  obtain ⟨hnone, rfl, hground⟩ := h.makeDirectory_eq_ok hr hm
  refine ⟨hground, hnone, node?_put_self _ (ne_nil_of_node? hnone),
    fun other hother => node?_put_of_ne _ ?_⟩
  rintro rfl
  exact hother (List.prefix_refl _)

end Ground

/-- Names that are copied one after the other grow the directory that they are copied to, if
directories at this depth do. -/
theorem GrownAt.copyNames {t : FileTree} {loc : Location} {rest skipped : List String} {depth : Nat}
    {source : Path} {done : FileTree × Bool} (h : GrownAt t done.1 loc (loc ++ rest))
    (hr : ∀ name ∈ rest, IsName name) {names : List String} (hnames : ∀ name ∈ names, IsName name)
    (hcopy : ∀ {u copied : FileTree} {more : List String} {below : Path} {failed : Bool},
      u.Ground loc → (∀ name ∈ more, IsName name) →
      copyDirectoryFrom skipped depth u below (Path.ofLocation (loc ++ more)) =
        .ok (copied, failed) → GrownAt u copied loc (loc ++ more)) :
    GrownAt t (names.foldl (copyName skipped depth source (Path.ofLocation (loc ++ rest))) done).1
      loc (loc ++ rest) := by
  refine List.foldlRecOn (motive := fun done : FileTree × Bool =>
    GrownAt t done.1 loc (loc ++ rest)) _ _ h ?_
  intro done hdone name hname
  have hall := isName_concat hr (hnames name hname)
  rcases copyName_cases skipped depth source (Path.ofLocation (loc ++ rest)) done name with
    hstep | ⟨copied, below, -, hcopied, hstep⟩ | ⟨copied, -, hcopied, hstep⟩
  · rw [hstep]
    exact hdone
  · rw [hstep]
    rw [Path.child_ofLocation, List.append_assoc] at hcopied
    have hgrown := hcopy hdone.ground hall hcopied
    rw [← List.append_assoc] at hgrown
    exact hdone.below name hgrown.ground hgrown.outside
  · rw [hstep]
    rw [Path.child_ofLocation, List.append_assoc] at hcopied
    obtain ⟨bytes, -, -, rfl, hground⟩ := hdone.ground.copyFile_eq_ok hall hcopied
    rw [← List.append_assoc] at hground ⊢
    refine hdone.below name hground fun other hother => node?_put_of_ne _ ?_
    rintro rfl
    exact hother (List.prefix_refl _)

/-- A directory that is copied into an enclosed directory grows where nothing stood. -/
theorem Ground.copyDirectoryFrom_grownAt {t t' : FileTree} {loc : Location} (h : t.Ground loc)
    {rest skipped : List String} (depth : Nat) (hr : ∀ name ∈ rest, IsName name) {source : Path}
    {failed : Bool}
    (hc : copyDirectoryFrom skipped depth t source (Path.ofLocation (loc ++ rest)) =
      .ok (t', failed)) :
    GrownAt t t' loc (loc ++ rest) := by
  induction depth generalizing t t' rest source failed with
  | zero => cases hc
  | succ depth ih =>
    obtain ⟨made, hmade, hfold⟩ := copyDirectoryFrom_succ_eq_ok hc
    obtain rfl : _ = t' := congrArg Prod.fst hfold
    exact GrownAt.copyNames (h.makeDirectory_grownAt hr hmade) hr
      (fun name hname => h.sound.isName_of_mem_listDirectory (List.mem_filter.mp hname).1)
      fun hu hmore hcopied => ih hu hmore hcopied

/-- The copy of a directory keeps what each directory that it makes and each file that it copies keep;
`admits` tells the places that it comes to, going down by names that are not skipped. -/
theorem copyDirectoryFrom_induction (keeps : FileTree → Prop) (admits : List String → Prop)
    {skipped : List String} {root loc : Location} (hsound : ∀ t, keeps t → t.Sound)
    (hdown : ∀ rest name, admits rest → IsName name → name ∉ skipped → admits (rest ++ [name]))
    (hmake : ∀ t t' rest, keeps t → admits rest →
      t.makeDirectory [] (Path.ofLocation (loc ++ rest)) = .ok t' → keeps t')
    (hcopy : ∀ t t' rest, keeps t → admits rest →
      t.copyFile (Path.ofLocation (root ++ rest)) (Path.ofLocation (loc ++ rest)) = .ok t' →
      keeps t')
    (depth : Nat) {t t' : FileTree} {rest : List String} {failed : Bool} (h : keeps t)
    (hrest : admits rest)
    (hc : copyDirectoryFrom skipped depth t (Path.ofLocation (root ++ rest))
      (Path.ofLocation (loc ++ rest)) = .ok (t', failed)) : keeps t' := by
  induction depth generalizing t t' rest failed with
  | zero => cases hc
  | succ depth ih =>
    obtain ⟨made, hmade, hfold⟩ := copyDirectoryFrom_succ_eq_ok hc
    obtain rfl : _ = t' := congrArg Prod.fst hfold
    refine List.foldlRecOn (motive := fun done : FileTree × Bool => keeps done.1) _ _
      (hmake _ _ _ h hrest hmade) ?_
    intro done hdone name hname
    obtain ⟨hlisted, hkept⟩ := List.mem_filter.mp hname
    have hbelow : admits (rest ++ [name]) :=
      hdown _ _ hrest ((hsound _ h).isName_of_mem_listDirectory hlisted) (by simpa using hkept)
    rcases copyName_cases skipped depth (Path.ofLocation (root ++ rest))
        (Path.ofLocation (loc ++ rest)) done name with
      hstep | ⟨copied, below, -, hcopied, hstep⟩ | ⟨copied, -, hcopied, hstep⟩
    · rw [hstep]
      exact hdone
    · rw [hstep]
      rw [Path.child_ofLocation, Path.child_ofLocation, List.append_assoc, List.append_assoc]
        at hcopied
      exact ih hdone hbelow hcopied
    · rw [hstep]
      rw [Path.child_ofLocation, Path.child_ofLocation, List.append_assoc, List.append_assoc]
        at hcopied
      exact hcopy _ _ _ hdone hbelow hcopied

-- ════════════════════════════════════════════════════════════════════════
-- What is below a copy
-- ════════════════════════════════════════════════════════════════════════

/-- Names of which a copy skips none. -/
def Kept (skipped rest : List String) : Prop := ∀ name ∈ rest, name ∉ skipped

instance (skipped rest : List String) : Decidable (Kept skipped rest) := by
  unfold Kept
  infer_instance

theorem kept_nil (skipped : List String) : Kept skipped [] := by simp [Kept]

theorem kept_cons_iff {skipped : List String} {name : String} {rest : List String} :
    Kept skipped (name :: rest) ↔ name ∉ skipped ∧ Kept skipped rest := List.forall_mem_cons

theorem kept_append_iff {skipped above rest : List String} :
    Kept skipped (above ++ rest) ↔ Kept skipped above ∧ Kept skipped rest :=
  List.forall_mem_append

/-- A directory that was copied: below it stands what stands below its source, but for what is
below a skipped name. -/
structure Grafted (t t' : FileTree) (loc : Location) (skipped : List String)
    (source target : Location) : Prop where
  grown : GrownAt t t' loc target
  kept : ∀ rest, Kept skipped rest → t'.node? (target ++ rest) = t.node? (source ++ rest)
  left : ∀ rest, ¬ Kept skipped rest → t'.node? (target ++ rest) = none

/-- A directory that is being copied: some of its names are done. -/
structure GraftedUpTo (t t' : FileTree) (loc : Location) (skipped : List String)
    (source target : Location) (names : List String) : Prop where
  grown : GrownAt t t' loc target
  kept : ∀ name rest, name ∈ names → Kept skipped rest →
    t'.node? (target ++ name :: rest) = t.node? (source ++ name :: rest)
  left : ∀ name rest, ¬ (name ∈ names ∧ Kept skipped rest) →
    t'.node? (target ++ name :: rest) = none

/-- No copy of the source reaches the target. -/
def Apart (skipped : List String) (source target : Location) : Prop :=
  ∀ rest, Kept skipped rest → ¬ target <+: source ++ rest

theorem Apart.child {skipped : List String} {source target : Location} {name : String}
    (h : Apart skipped source target) (hname : name ∉ skipped) :
    Apart skipped (source ++ [name]) (target ++ [name]) := by
  intro rest hrest hbelow
  rw [List.append_assoc, List.singleton_append] at hbelow
  exact h (name :: rest) (kept_cons_iff.mpr ⟨hname, hrest⟩) ((List.prefix_append _ _).trans hbelow)

theorem append_cons_eq (loc : Location) (name : String) (rest : List String) :
    loc ++ name :: rest = loc ++ [name] ++ rest := by simp

/-- What is above or at the end of a way that goes on is on its first part, or on its second. -/
theorem prefix_append_cases {above loc : Location} {rest : List String}
    (h : above <+: loc ++ rest) : above <+: loc ∨ ∃ more, above = loc ++ more ∧ more <+: rest := by
  rcases List.prefix_or_prefix_of_prefix h (List.prefix_append loc rest) with hbefore | ⟨more, rfl⟩
  · exact Or.inl hbefore
  · exact Or.inr ⟨more, rfl, (List.prefix_append_right_inj loc).mp h⟩

/-- A name beside another one is not below it. -/
theorem not_prefix_of_ne {name other : String} (h : other ≠ name) (loc : Location)
    (rest : List String) : ¬ loc ++ [name] <+: loc ++ other :: rest := by
  rw [List.prefix_append_right_inj, List.cons_prefix_cons]
  exact fun hbelow => h hbelow.1.symm

section

variable {t u u' : FileTree} {loc source target : Location} {skipped names : List String}
  {name : String}

/-- A directory that is just made has nothing below it. -/
theorem Ground.graftedUpTo_nil {t' : FileTree} {rest : List String} (h : t.Ground loc)
    (hr : ∀ other ∈ rest, IsName other)
    (hm : t.makeDirectory [] (Path.ofLocation (loc ++ rest)) = .ok t') (skipped : List String)
    (source : Location) : GraftedUpTo t t' loc skipped source (loc ++ rest) [] := by
  obtain ⟨hnone, rfl, -⟩ := h.makeDirectory_eq_ok hr hm
  refine ⟨h.makeDirectory_grownAt hr hm, fun other more hother => (List.not_mem_nil hother).elim,
    fun other more _ => ?_⟩
  rw [node?_put_of_ne _ (by simp), h.sound.below_free hnone]

/-- What is read for a copy is as it was before the copy began. -/
theorem GrownAt.node?_source (h : GrownAt t u loc target) (hapart : Apart skipped source target)
    {rest : List String} (hkept : Kept skipped rest) :
    u.node? (source ++ rest) = t.node? (source ++ rest) :=
  h.outside _ (hapart rest hkept)

/-- An enclosed directory stays one while something outside of it grows that holds no link. -/
theorem Enclosed.of_outside {root : Location} (h : t.Enclosed root) (hu : u.Sound)
    (houtside : ∀ other, ¬ target <+: other → u.node? other = t.node? other)
    (hlinkless : ∀ below link, target <+: below → u.node? below ≠ some (.link link))
    (hapart : ¬ target <+: root) : u.Enclosed root := by
  refine ⟨fun above habove => ?_, fun below link hbelow => ?_, h.plain,
    fun entry hentry => plain_of_isName (hu.named entry hentry)⟩
  · rw [houtside above fun htarget => hapart (htarget.trans habove), h.leads above habove]
  · by_cases htarget : target <+: below
    · exact hlinkless below link htarget
    · rw [houtside below htarget]
      exact h.linkless below link hbelow

theorem GrownAt.enclosed {root : Location} (h : GrownAt t u loc target) (hroot : t.Enclosed root)
    (hbelow : loc <+: target) (hapart : ¬ target <+: root) : u.Enclosed root :=
  hroot.of_outside h.ground.sound h.outside
    (fun below link htarget => h.ground.enclosed.linkless below link (hbelow.trans htarget)) hapart

/-- A directory among the names of a directory is done. -/
theorem GraftedUpTo.directory (h : GraftedUpTo t u loc skipped source target names)
    (hapart : Apart skipped source target) (hname : name ∉ skipped)
    (hgraft : Grafted u u' loc skipped (source ++ [name]) (target ++ [name])) :
    GraftedUpTo t u' loc skipped source target (names ++ [name]) := by
  refine ⟨h.grown.below name hgraft.grown.ground hgraft.grown.outside,
    fun other rest hother hrest => ?_, fun other rest hother => ?_⟩
  · by_cases hsame : other = name
    · rw [hsame, append_cons_eq target, hgraft.kept rest hrest, ← append_cons_eq source]
      exact h.grown.node?_source hapart (kept_cons_iff.mpr ⟨hname, hrest⟩)
    · rw [hgraft.grown.outside _ (not_prefix_of_ne hsame target rest)]
      exact h.kept other rest (by simpa [hsame] using hother) hrest
  · by_cases hsame : other = name
    · rw [hsame, append_cons_eq target]
      exact hgraft.left rest fun hrest => hother ⟨by simp [hsame], hrest⟩
    · rw [hgraft.grown.outside _ (not_prefix_of_ne hsame target rest)]
      exact h.left other rest fun hdone => hother ⟨by simp [hdone.1], hdone.2⟩

/-- A file among the names of a directory is done. -/
theorem GraftedUpTo.file (h : GraftedUpTo t u loc skipped source target names) (ht : t.Sound)
    (hapart : Apart skipped source target) (hname : name ∉ skipped) {bytes : ByteArray}
    (hfile : u.node? (source ++ [name]) = some (.file bytes))
    (hground : (u.put (target ++ [name]) (.file bytes)).Ground loc) :
    GraftedUpTo t (u.put (target ++ [name]) (.file bytes)) loc skipped source target
      (names ++ [name]) := by
  have hself : (u.put (target ++ [name]) (.file bytes)).node? (target ++ [name]) =
      some (.file bytes) := node?_put_self _ (by simp)
  have hsource : t.node? (source ++ [name]) = some (.file bytes) := by
    rw [← h.grown.node?_source hapart (kept_cons_iff.mpr ⟨hname, kept_nil _⟩), hfile]
  -- nothing is below a file, in the copy as in the source
  have hbelow : ∀ next more,
      (u.put (target ++ [name]) (.file bytes)).node? (target ++ [name] ++ next :: more) = none :=
    fun next more => hground.sound.below_none (by simp [hself]) (List.cons_ne_nil _ _)
  have hothers : ∀ other rest, other ≠ name →
      (u.put (target ++ [name]) (.file bytes)).node? (target ++ other :: rest) =
        u.node? (target ++ other :: rest) := by
    intro other rest hother
    refine node?_put_of_ne _ fun heq => ?_
    exact not_prefix_of_ne hother target rest (heq ▸ List.prefix_refl _)
  refine ⟨h.grown.below name hground fun other hother => node?_put_of_ne _ ?_,
    fun other rest hother hrest => ?_, fun other rest hother => ?_⟩
  · rintro rfl
    exact hother (List.prefix_refl _)
  · by_cases hsame : other = name
    · rw [hsame, append_cons_eq target name rest, append_cons_eq source name rest]
      cases rest with
      | nil => rw [List.append_nil (target ++ [name]), List.append_nil, hself, hsource]
      | cons next more =>
        rw [hbelow, ht.below_none (by simp [hsource]) (List.cons_ne_nil _ _)]
    · rw [hothers other rest hsame]
      exact h.kept other rest (by simpa [hsame] using hother) hrest
  · by_cases hsame : other = name
    · cases rest with
      | nil => exact absurd ⟨by simp [hsame], kept_nil _⟩ hother
      | cons next more => rw [hsame, append_cons_eq target name (next :: more), hbelow]
    · rw [hothers other rest hsame]
      exact h.left other rest fun hdone => hother ⟨by simp [hdone.1], hdone.2⟩

/-- A directory is copied when all of its names are done that no copy skips. -/
theorem GraftedUpTo.grafted (ht : t.Sound) (hsource : t.node? source = some .directory)
    (h : GraftedUpTo t u loc skipped source target
      ((t.names source).filter fun name => !skipped.contains name)) :
    Grafted t u loc skipped source target := by
  refine ⟨h.grown, fun rest hrest => ?_, fun rest hrest => ?_⟩
  · cases rest with
    | nil => rw [List.append_nil, List.append_nil, h.grown.directory, hsource]
    | cons name more =>
      obtain ⟨hname, hmore⟩ := kept_cons_iff.mp hrest
      by_cases hthere : name ∈ t.names source
      · exact h.kept name more (by simp [hthere, hname]) hmore
      · have hnone : t.node? (source ++ [name]) = none := by
          rw [← Option.not_isSome_iff_eq_none, Option.isSome_iff_exists]
          exact fun hsome => hthere (mem_names_iff.mpr hsome)
        rw [h.left name more fun hdone => hthere (List.mem_filter.mp hdone.1).1,
          append_cons_eq source, ht.below_free hnone]
  · cases rest with
    | nil => exact absurd (kept_nil skipped) hrest
    | cons name more =>
      refine h.left name more fun hdone => hrest (kept_cons_iff.mpr ⟨?_, hdone.2⟩)
      simpa using (List.mem_filter.mp hdone.1).2

end

/-- A name that is copied without a complaint is copied as a directory or as a file, and there was
no complaint before. -/
theorem copyName_eq_false {skipped : List String} {depth : Nat} {source target : Path}
    {done : FileTree × Bool} {name : String} {t' : FileTree}
    (h : copyName skipped depth source target done name = (t', false)) :
    done.2 = false ∧
      (done.1.isDirectory? [] (source.child name) = .ok true ∧
          copyDirectoryFrom skipped depth done.1 (source.child name) (target.child name) =
            .ok (t', false) ∨
        done.1.isDirectory? [] (source.child name) = .ok false ∧
          done.1.copyFile (source.child name) (target.child name) = .ok t') := by
  rcases copyName_cases skipped depth source target done name with
    hstep | ⟨copied, below, hasked, hcopied, hstep⟩ | ⟨copied, hasked, hcopied, hstep⟩
  · cases hstep.symm.trans h
  · obtain ⟨rfl, hcomplaint⟩ := Prod.mk.inj (hstep.symm.trans h)
    obtain ⟨hdone, rfl⟩ := Bool.or_eq_false_iff.mp hcomplaint
    exact ⟨hdone, Or.inl ⟨hasked, hcopied⟩⟩
  · obtain ⟨rfl, hdone⟩ := Prod.mk.inj (hstep.symm.trans h)
    exact ⟨hdone, Or.inr ⟨hasked, hcopied⟩⟩

/-- A copy that once complained goes on complaining. -/
theorem complains_foldl {skipped : List String} {depth : Nat} {source target : Path}
    {names : List String} {done : FileTree × Bool}
    (h : (names.foldl (copyName skipped depth source target) done).2 = false) :
    done.2 = false := by
  induction names generalizing done with
  | nil => exact h
  | cons name rest ih => exact (copyName_eq_false (Prod.ext rfl (ih h))).1

section

variable {t t' u u' : FileTree} {root loc : Location} {below rest skipped names : List String}
  {name : String} {depth : Nat}

/-- One name more is copied without a complaint, if directories at this depth are copied right. -/
theorem GraftedUpTo.step (h : GraftedUpTo t u loc skipped (root ++ below) (loc ++ rest) names)
    (ht : t.Sound) (hroot : u.Ground root) (hb : ∀ other ∈ below, IsName other)
    (hr : ∀ other ∈ rest, IsName other) (hname : IsName name) (hunskipped : name ∉ skipped)
    (hapart : Apart skipped (root ++ below) (loc ++ rest))
    (hcopy : ∀ {copied}, u.isDirectory? [] (Path.ofLocation (root ++ (below ++ [name]))) = .ok true →
      copyDirectoryFrom skipped depth u (Path.ofLocation (root ++ (below ++ [name])))
        (Path.ofLocation (loc ++ (rest ++ [name]))) = .ok (copied, false) →
      Grafted u copied loc skipped (root ++ (below ++ [name])) (loc ++ (rest ++ [name])))
    (hstep : copyName skipped depth (Path.ofLocation (root ++ below))
      (Path.ofLocation (loc ++ rest)) (u, false) name = (u', false)) :
    GraftedUpTo t u' loc skipped (root ++ below) (loc ++ rest) (names ++ [name]) := by
  have hb' := isName_concat hb hname
  have hr' := isName_concat hr hname
  rcases (copyName_eq_false hstep).2 with ⟨hasked, hcopied⟩ | ⟨-, hcopied⟩
  · rw [Path.child_ofLocation, List.append_assoc] at hasked
    rw [Path.child_ofLocation, Path.child_ofLocation, List.append_assoc, List.append_assoc]
      at hcopied
    have hgraft := hcopy hasked hcopied
    rw [← List.append_assoc, ← List.append_assoc] at hgraft
    exact h.directory hapart hunskipped hgraft
  · rw [Path.child_ofLocation, Path.child_ofLocation, List.append_assoc, List.append_assoc]
      at hcopied
    obtain ⟨bytes, hread, -, rfl, hground⟩ := h.grown.ground.copyFile_eq_ok hr' hcopied
    have hfile := hroot.read_eq_ok hb' hread
    rw [← List.append_assoc] at hfile hground ⊢
    exact h.file ht hapart hunskipped hfile hground

/-- A copy makes the directory, and then copies the names of its source one after the other. -/
theorem Ground.copyDirectoryFrom_eq_ok (hroot : t.Ground root) (hb : ∀ other ∈ below, IsName other)
    (hsource : t.isDirectory? [] (Path.ofLocation (root ++ below)) = .ok true) {target : Path}
    {result : FileTree × Bool}
    (hc : copyDirectoryFrom skipped (depth + 1) t (Path.ofLocation (root ++ below)) target =
      .ok result) :
    ∃ made, t.makeDirectory [] target = .ok made ∧
      ((t.names (root ++ below)).filter fun name => !skipped.contains name).foldl
        (copyName skipped depth (Path.ofLocation (root ++ below)) target) (made, false) = result := by
  obtain ⟨hwalk, -⟩ := hroot.isDirectory?_eq_true hb hsource
  obtain ⟨made, hmade, hfold⟩ := copyDirectoryFrom_succ_eq_ok hc
  rw [listDirectory, hwalk] at hfold
  exact ⟨made, hmade, hfold⟩

/-- A directory that is copied without a complaint has below it what its source has, but for what
no copy takes. -/
theorem Ground.copyDirectoryFrom_grafted (depth : Nat) (h : t.Ground loc) (hroot : t.Ground root)
    (hb : ∀ other ∈ below, IsName other) (hr : ∀ other ∈ rest, IsName other)
    (hsource : t.isDirectory? [] (Path.ofLocation (root ++ below)) = .ok true)
    (hapart : Apart skipped (root ++ below) (loc ++ rest))
    (hc : copyDirectoryFrom skipped depth t (Path.ofLocation (root ++ below))
      (Path.ofLocation (loc ++ rest)) = .ok (t', false)) :
    Grafted t t' loc skipped (root ++ below) (loc ++ rest) := by
  induction depth generalizing t t' below rest with
  | zero => cases hc
  | succ depth ih =>
    obtain ⟨-, hdirectory⟩ := hroot.isDirectory?_eq_true hb hsource
    obtain ⟨made, hmade, hfold⟩ := hroot.copyDirectoryFrom_eq_ok hb hsource hc
    have hstart := h.graftedUpTo_nil hr hmade skipped (root ++ below)
    -- the names are copied one after the other; with each of them one more is done
    have hrun : ∀ (todo names : List String) (u : FileTree),
        (∀ name ∈ todo, IsName name ∧ name ∉ skipped) →
        GraftedUpTo t u loc skipped (root ++ below) (loc ++ rest) names →
        todo.foldl (copyName skipped depth (Path.ofLocation (root ++ below))
          (Path.ofLocation (loc ++ rest))) (u, false) = (t', false) →
        GraftedUpTo t t' loc skipped (root ++ below) (loc ++ rest) (names ++ todo) := by
      intro todo
      induction todo with
      | nil =>
        intro names u _ hu hdone
        obtain rfl : u = t' := congrArg Prod.fst hdone
        rwa [List.append_nil]
      | cons name todo ihTodo =>
        intro names u hnames hu hdone
        obtain ⟨hname, hunskipped⟩ := hnames name List.mem_cons_self
        rw [List.foldl_cons] at hdone
        cases hstep : copyName skipped depth (Path.ofLocation (root ++ below))
            (Path.ofLocation (loc ++ rest)) (u, false) name with
        | mk copied complaint =>
          rw [hstep] at hdone
          obtain rfl : complaint = false := complains_foldl (congrArg Prod.snd hdone)
          have hroot' : u.Ground root :=
            ⟨hu.grown.ground.sound, hu.grown.enclosed hroot.enclosed (List.prefix_append _ _)
              fun hbelow => hapart [] (kept_nil _)
                ((hbelow.trans (List.prefix_append _ _)).trans (List.prefix_append _ _))⟩
          have hnext := hu.step h.sound hroot' hb hr hname hunskipped hapart
            (fun hasked hcopied => ih hu.grown.ground hroot' (isName_concat hb hname)
              (isName_concat hr hname) hasked
              (by simpa only [List.append_assoc] using hapart.child hunskipped) hcopied) hstep
          rw [append_cons_eq names]
          exact ihTodo _ _ (fun other hother => hnames other (List.mem_cons_of_mem _ hother))
            hnext hdone
    have hall := hrun _ [] made (fun name hname => ?_) hstart hfold
    · rw [List.nil_append] at hall
      exact hall.grafted h.sound hdirectory
    · obtain ⟨hlist, hunskipped⟩ := List.mem_filter.mp hname
      exact ⟨h.sound.isName_of_mem_names hlist, by simpa using hunskipped⟩

/-- Where a copy comes to a name without a complaint, the directory has grown that is copied to, and
the name is copied without a complaint. -/
theorem Ground.copyName_of_mem (h : t.Ground loc) (hr : ∀ other ∈ rest, IsName other)
    {source : Path} (hlisted : name ∈ t.listDirectory source) (hunskipped : name ∉ skipped)
    (hc : copyDirectoryFrom skipped (depth + 1) t source (Path.ofLocation (loc ++ rest)) =
      .ok (t', false)) :
    ∃ done copied, GrownAt t done.1 loc (loc ++ rest) ∧
      copyName skipped depth source (Path.ofLocation (loc ++ rest)) done name =
        (copied, false) := by
  obtain ⟨made, hmade, hfold⟩ := copyDirectoryFrom_succ_eq_ok hc
  have hmem : name ∈ (t.listDirectory source).filter fun other => !skipped.contains other :=
    List.mem_filter.mpr ⟨hlisted, by simpa using hunskipped⟩
  obtain ⟨before, after, hsplit⟩ := List.append_of_mem hmem
  have hbefore : ∀ other ∈ before, IsName other := by
    intro other hother
    have hnamed : other ∈ before ++ name :: after := List.mem_append_left _ hother
    rw [← hsplit] at hnamed
    exact h.sound.isName_of_mem_listDirectory (List.mem_filter.mp hnamed).1
  rw [hsplit, List.foldl_append, List.foldl_cons] at hfold
  exact ⟨_, _, .copyNames (h.makeDirectory_grownAt hr hmade) hr hbefore
      fun hu hother hcopied => hu.copyDirectoryFrom_grownAt depth hother hcopied,
    Prod.ext rfl (complains_foldl (congrArg Prod.snd hfold))⟩

/-- No directory is copied without a complaint into a directory below it that the copy reaches: at
each level the copy goes on into what it has just made. -/
theorem Ground.copyDirectoryFrom_into_ne (depth : Nat) {name : String} {more : List String}
    (h : t.Ground loc) (hroot : t.Ground root) (hb : ∀ other ∈ below, IsName other)
    (hr : ∀ other ∈ rest, IsName other)
    (hsource : t.isDirectory? [] (Path.ofLocation (root ++ below)) = .ok true)
    (hinto : loc ++ rest = root ++ below ++ name :: more) (hkept : Kept skipped (name :: more))
    (hnext : ∃ node, t.node? (root ++ below ++ [name]) = some node) :
    copyDirectoryFrom skipped depth t (Path.ofLocation (root ++ below))
      (Path.ofLocation (loc ++ rest)) ≠ .ok (t', false) := by
  induction depth generalizing t t' below rest name more with
  | zero =>
    intro hc
    cases hc
  | succ depth ih =>
    intro hc
    obtain ⟨hunskipped, hmore⟩ := kept_cons_iff.mp hkept
    have hlisted : name ∈ t.listDirectory (Path.ofLocation (root ++ below)) := by
      rw [listDirectory, (hroot.isDirectory?_eq_true hb hsource).1]
      exact mem_names_iff.mpr hnext
    obtain ⟨done, copied, hgrown, hstep⟩ := h.copyName_of_mem hr hlisted hunskipped hc
    -- the target stands by now, and the name leads towards it
    have hsourceName : done.1.node? (root ++ (below ++ [name])) = some .directory :=
      hgrown.leads ⟨more, by rw [hinto]; simp⟩
    have hname := hgrown.ground.sound.isName_of_node? hsourceName name (by simp)
    have hb' := isName_concat hb hname
    have hr' := isName_concat hr hname
    have hroot' : done.1.Ground root := by
      refine ⟨hgrown.ground.sound, hgrown.enclosed hroot.enclosed (List.prefix_append _ _) ?_⟩
      intro hbelow
      have hlength := hbelow.length_le
      rw [hinto] at hlength
      simp only [List.length_append, List.length_cons] at hlength
      omega
    rcases (copyName_eq_false hstep).2 with ⟨hasked, hcopied⟩ | ⟨-, hcopied⟩
    · rw [Path.child_ofLocation, List.append_assoc] at hasked
      rw [Path.child_ofLocation, Path.child_ofLocation, List.append_assoc, List.append_assoc]
        at hcopied
      cases more with
      | nil =>
        obtain ⟨node, hnode⟩ := hnext
        rw [← hinto, hgrown.free] at hnode
        cases hnode
      | cons next more =>
        obtain ⟨hnextUnskipped, hmore⟩ := kept_cons_iff.mp hmore
        have hinto' : loc ++ (rest ++ [name]) =
            root ++ (below ++ [name]) ++ next :: (more ++ [name]) := by
          rw [← List.append_assoc, hinto]
          simp
        refine ih hgrown.ground hroot' hb' hr' hasked hinto' ?_ ?_ hcopied
        · exact kept_cons_iff.mpr ⟨hnextUnskipped, kept_append_iff.mpr
            ⟨hmore, kept_cons_iff.mpr ⟨hunskipped, kept_nil skipped⟩⟩⟩
        · exact ⟨.directory, hgrown.leads ⟨more, by rw [hinto]; simp⟩⟩
    · rw [Path.child_ofLocation, Path.child_ofLocation, List.append_assoc, List.append_assoc]
        at hcopied
      obtain ⟨bytes, hread, -⟩ := hgrown.ground.copyFile_eq_ok hr' hcopied
      have hfile := hroot'.read_eq_ok hb' hread
      rw [hsourceName] at hfile
      cases hfile

end

end TwoStage.FileTree

import TwoStage.Proofs.FileTree.Copying

/-!
# Where nothing is refused

In a sound tree the file system refuses nothing that is asked of a path without links, as long as
the path is not too long, what should be there is there, and nothing else is in the way.

## Main statements

- `FileTree.Sound.find?_eq` — questions about a node are answered from it
- `FileTree.Sound.exists_write` — where a file can be written
- `FileTree.Ground.exists_makeDirectories` — where directories can be made with those above them
-/

namespace TwoStage.FileTree

-- ════════════════════════════════════════════════════════════════════════
-- Single operations
-- ════════════════════════════════════════════════════════════════════════

namespace Sound

variable {t : FileTree} (h : t.Sound) {cwd loc : Location}

include h

/-- A question about a node that is no link is answered from it. -/
theorem find?_eq {node : Node} (hnode : t.node? loc = some node)
    (hlink : ∀ target, node ≠ .link target) (hwalkable : Walkable loc) :
    t.find? cwd (Path.ofLocation loc) = .ok (some node) := by
  rw [find?, h.walk_node hnode hlink hwalkable]

theorem exists?_eq {node : Node} (hnode : t.node? loc = some node)
    (hlink : ∀ target, node ≠ .link target) (hwalkable : Walkable loc) :
    t.exists? cwd (Path.ofLocation loc) = .ok true := by
  rw [exists?, h.find?_eq hnode hlink hwalkable]
  rfl

theorem isDirectory?_of_directory (hnode : t.node? loc = some .directory)
    (hwalkable : Walkable loc) : t.isDirectory? cwd (Path.ofLocation loc) = .ok true := by
  rw [isDirectory?, h.find?_eq hnode (by simp) hwalkable]
  rfl

theorem isDirectory?_of_file {bytes : ByteArray} (hnode : t.node? loc = some (.file bytes))
    (hwalkable : Walkable loc) : t.isDirectory? cwd (Path.ofLocation loc) = .ok false := by
  rw [isDirectory?, h.find?_eq hnode (by simp) hwalkable]
  rfl

theorem read_of_file {bytes : ByteArray} (hnode : t.node? loc = some (.file bytes))
    (hwalkable : Walkable loc) : t.read cwd (Path.ofLocation loc) = .ok bytes := by
  rw [read, h.walk_node hnode (by simp) hwalkable]

/-- A file can be written in a directory where nothing or a file stands. -/
theorem exists_write {name : String} (hdirectory : t.node? loc = some .directory)
    (hname : IsName name)
    (hold : ∀ node, t.node? (loc ++ [name]) = some node → ∃ bytes, node = .file bytes)
    (hwalkable : Walkable (loc ++ [name])) (bytes : ByteArray) :
    ∃ t', t.write cwd (Path.ofLocation (loc ++ [name])) bytes = .ok t' := by
  cases hnode : t.node? (loc ++ [name]) with
  | none =>
    refine ⟨t.put (loc ++ [name]) (.file bytes), ?_⟩
    rw [write, h.walk_free hdirectory hname hnode hwalkable]
  | some node =>
    obtain ⟨old, rfl⟩ := hold node hnode
    refine ⟨t.put (loc ++ [name]) (.file bytes), ?_⟩
    rw [write, h.walk_node hnode (by simp) hwalkable]

/-- A directory can be made in a directory where nothing stands. -/
theorem makeDirectory_of_free {name : String} (hdirectory : t.node? loc = some .directory)
    (hname : IsName name) (hnone : t.node? (loc ++ [name]) = none)
    (hwalkable : Walkable (loc ++ [name])) :
    t.makeDirectory cwd (Path.ofLocation (loc ++ [name])) =
      .ok (t.put (loc ++ [name]) .directory) := by
  rw [makeDirectory, h.walk_free hdirectory hname hnone hwalkable]

theorem makeDirectory_of_taken (hnode : t.node? loc = some .directory) (hwalkable : Walkable loc) :
    t.makeDirectory cwd (Path.ofLocation loc) =
      .error (.refused .taken (Path.ofLocation loc).text) := by
  rw [makeDirectory, h.walk_node hnode (by simp) hwalkable]

end Sound

-- ════════════════════════════════════════════════════════════════════════
-- Directories with those above them
-- ════════════════════════════════════════════════════════════════════════

/-- Nothing but directories stands on the way down from a location. -/
def ClearWay (t : FileTree) (loc : Location) (rest : List String) : Prop :=
  ∀ above, above <+: rest → ∀ node, t.node? (loc ++ above) = some node → node = .directory

/-- A directory is made where the one above it is missing, unless that is missing too. -/
theorem Ground.makeDirectory_of_missing {t : FileTree} {loc cwd : Location} (h : t.Ground loc)
    {rest : List String} (hr : ∀ name ∈ rest, IsName name) (hclear : ClearWay t loc rest)
    (hmissing : t.node? (loc ++ rest.dropLast) = none) (hwalkable : Walkable (loc ++ rest)) :
    t.makeDirectory cwd (Path.ofLocation (loc ++ rest)) =
      .error (.refused .noEntry (Path.ofLocation (loc ++ rest)).text) := by
  have hne : rest ≠ [] := by
    rintro rfl
    rw [List.dropLast_nil, List.append_nil, h.directory] at hmissing
    cases hmissing
  have hdescend : t.descend false [] (loc ++ rest) = .error .noEntry := by
    refine descend_missing rfl (fun above habove node hnode => ?_) ?_ ?_ hwalkable.narrow
    · rw [List.nil_append] at hnode
      rcases prefix_append_cases habove with hbefore | ⟨more, rfl, hmore⟩
      · rw [h.enclosed.leads above hbefore] at hnode
        exact (Option.some.inj hnode).symm
      · exact hclear more hmore node hnode
    · rwa [List.nil_append, dropLast_append hne]
    · exact List.forall_mem_append.mpr ⟨h.sound.isName_of_node? h.directory, hr⟩
  rw [makeDirectory, walk_eq hwalkable, walkFrom, hdescend]
  rfl

namespace Sound

variable {t : FileTree} (h : t.Sound) {cwd loc : Location} {rest : List String}

include h

theorem ensureDirectory_of_directory (hnode : t.node? loc = some .directory)
    (hwalkable : Walkable loc) : t.ensureDirectory cwd (Path.ofLocation loc) = .ok t := by
  rw [ensureDirectory, h.makeDirectory_of_taken hnode hwalkable]
  dsimp only
  rw [h.isDirectory?_of_directory hnode hwalkable]

theorem makeDirectory_below (hr : ∀ name ∈ rest, IsName name) (hne : rest ≠ [])
    (hparent : t.node? (loc ++ rest.dropLast) = some .directory)
    (hnone : t.node? (loc ++ rest) = none) (hwalkable : Walkable (loc ++ rest)) :
    t.makeDirectory cwd (Path.ofLocation (loc ++ rest)) =
      .ok (t.put (loc ++ rest) .directory) := by
  have hlast := hr _ (List.getLast_mem hne)
  rw [← List.dropLast_append_getLast hne, ← List.append_assoc] at hnone hwalkable ⊢
  exact h.makeDirectory_of_free hparent hlast hnone hwalkable

end Sound

/-- Directories can be made with those above them where nothing but directories is on the way. The
climb goes up to a directory that is there, and each step down finds the one above it made. -/
theorem Ground.exists_makeDirectoriesFrom {t : FileTree} {loc cwd : Location} (h : t.Ground loc)
    (depth : Nat) {rest : List String} (hdepth : rest.length ≤ depth)
    (hr : ∀ name ∈ rest, IsName name) (hclear : ClearWay t loc rest)
    (hwalkable : Walkable (loc ++ rest)) :
    ∃ t', t.makeDirectoriesFrom cwd depth (Path.ofLocation (loc ++ rest)) = (t', none) := by
  induction depth generalizing rest with
  | zero =>
    obtain rfl := List.length_eq_zero_iff.mp (Nat.le_zero.mp hdepth)
    refine ⟨t, ?_⟩
    rw [makeDirectoriesFrom, h.sound.ensureDirectory_of_directory _ hwalkable]
    · rfl
    · rw [List.append_nil, h.directory]
  | succ depth ih =>
    rw [makeDirectoriesFrom]
    cases hnode : t.node? (loc ++ rest) with
    | some node =>
      obtain rfl := hclear rest (List.prefix_refl rest) node hnode
      refine ⟨t, ?_⟩
      rw [h.sound.makeDirectory_of_taken hnode hwalkable]
      dsimp only
      rw [h.sound.ensureDirectory_of_directory hnode hwalkable]
      rfl
    | none =>
      have hne : rest ≠ [] := by
        rintro rfl
        rw [List.append_nil, h.directory] at hnode
        cases hnode
      cases hparent : t.node? (loc ++ rest.dropLast) with
      | some node =>
        obtain rfl := hclear _ (List.dropLast_prefix rest) node hparent
        have hmake : t.makeDirectory cwd (Path.ofLocation (loc ++ rest)) =
            .ok (t.put (loc ++ rest) .directory) :=
          h.sound.makeDirectory_below hr hne hparent hnode hwalkable
        refine ⟨t.put (loc ++ rest) .directory, ?_⟩
        rw [hmake]
        dsimp only
        rw [ensureDirectory, hmake]
        rfl
      | none =>
        have hbefore : rest.dropLast.length ≤ depth := by
          rw [List.length_dropLast]
          omega
        have habove : loc ++ rest.dropLast <+: loc ++ rest :=
          (List.prefix_append_right_inj loc).mpr (List.dropLast_prefix rest)
        have hnames : ∀ name ∈ rest.dropLast, IsName name := isName_dropLast hr
        obtain ⟨made, hmade⟩ := ih hbefore hnames
          (fun above h' => hclear above (h'.trans (List.dropLast_prefix rest)))
          (hwalkable.above habove)
        have hlaid := h.makeDirectoriesFrom_eq_ok depth hnames hmade
        have hfree : made.node? (loc ++ rest) = none := by
          rw [hlaid.elsewhere _ fun hback => ?_, hnode]
          have hlength := ((List.prefix_append_right_inj loc).mp hback).length_le
          have hpos := List.length_pos_iff.mpr hne
          rw [List.length_dropLast] at hlength
          omega
        refine ⟨made.put (loc ++ rest) .directory, ?_⟩
        rw [h.makeDirectory_of_missing hr hclear hparent hwalkable]
        dsimp only
        rw [Path.parent_ofLocation hne, hmade]
        dsimp only
        rw [ensureDirectory,
          hlaid.ground.sound.makeDirectory_below hr hne hlaid.directory hfree hwalkable]
        rfl

/-- Directories can be made with those above them where nothing but directories is on the way. -/
theorem Ground.exists_makeDirectories {t : FileTree} {loc cwd : Location} (h : t.Ground loc)
    {rest : List String} (hr : ∀ name ∈ rest, IsName name) (hclear : ClearWay t loc rest)
    (hwalkable : Walkable (loc ++ rest)) :
    ∃ t', t.makeDirectoriesPartly cwd (Path.ofLocation (loc ++ rest)) = (t', none) := by
  refine h.exists_makeDirectoriesFrom _ ?_ hr hclear hwalkable
  show rest.length ≤ (loc ++ rest).length
  rw [List.length_append]
  omega

end TwoStage.FileTree

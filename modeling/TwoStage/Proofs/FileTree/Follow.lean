import TwoStage.Proofs.FileTree.Fitting
import TwoStage.Proofs.FileTree.Sight

/-!
# Copies that follow links

A directory is copied to a location out of its sight exactly where all that it shows can be read and
finds room below the target, and the copy then holds what the directory shows, with links replaced by
what they lead to. So copies of paths that show the same succeed together, and hold the same.

## Main definitions

- `FileTree.Readable` — all names that are shown below a path lead to directories or to files
- `FileTree.HasRoom` — what is shown below a path finds room below a location
- `FileTree.Follows` — a copy of what a tree shows below a path

## Main statements

- `FileTree.Follows.of_copyDirectoryFrom` — what a copy without a complaint leaves
- `FileTree.exists_copyDirectoryFrom` — when a directory is copied without a complaint
-/

namespace TwoStage.FileTree

/-- A path leads to a directory or to a file. -/
def Opens (t : FileTree) (path : List String) : Prop :=
  t.look path = some .directory ∨ ∃ bytes, t.look path = some (.file bytes)

/-- All names that are shown below a path lead to directories or to files. -/
def Readable (t : FileTree) (skipped path : List String) : Prop :=
  ∀ rest, t.Shows skipped path rest .directory →
    ∀ name ∈ t.listDirectory (Path.ofLocation (path ++ rest)), name ∉ skipped →
      t.Opens (path ++ rest ++ [name])

/-- What a tree shows below a path finds room below a location. -/
def HasRoom (t : FileTree) (skipped path : List String) (target : Location) : Prop :=
  ∀ rest node, t.Shows skipped path rest node → Walkable (target ++ rest)

/-- The names that a copy takes from the directory that a path leads to. -/
def taken (t : FileTree) (skipped path : List String) : List String :=
  (t.listDirectory (Path.ofLocation path)).filter fun name => !skipped.contains name

/-- What stands at and below a location is what a tree shows below a path. -/
structure Follows (t u : FileTree) (skipped path : List String) (target : Location) : Prop where
  opens : t.Opens path
  readable : t.Readable skipped path
  room : t.HasRoom skipped path target
  same : ∀ rest node, u.node? (target ++ rest) = some node ↔ t.Shows skipped path rest node

-- ════════════════════════════════════════════════════════════════════════
-- What can be read
-- ════════════════════════════════════════════════════════════════════════

section

variable {t : FileTree} {skipped path : List String}

theorem Opens.exists_look (h : t.Opens path) : ∃ node, t.look path = some node := by
  rcases h with hlook | ⟨bytes, hlook⟩ <;> exact ⟨_, hlook⟩

theorem Readable.child (h : t.Readable skipped path) {name : String} (hname : IsName name)
    (hunskipped : name ∉ skipped) : t.Readable skipped (path ++ [name]) := by
  intro rest hrest
  rw [← append_cons_eq]
  exact h _ (shows_cons.mpr ⟨hname, hunskipped, hrest⟩)

theorem HasRoom.child {target : Location} (h : t.HasRoom skipped path target) {name : String}
    (hname : IsName name) (hunskipped : name ∉ skipped) :
    t.HasRoom skipped (path ++ [name]) (target ++ [name]) := by
  intro rest node hrest
  rw [← append_cons_eq]
  exact h _ node (shows_cons.mpr ⟨hname, hunskipped, hrest⟩)

/-- Below a file nothing is shown. -/
theorem Shows.of_file {bytes : ByteArray} (hlook : t.look path = some (.file bytes))
    {rest : List String} {node : Node} (h : t.Shows skipped path rest node) :
    rest = [] ∧ node = .file bytes := by
  cases rest with
  | nil =>
    have hself := shows_nil.mp h
    rw [hlook] at hself
    exact ⟨rfl, (Option.some.inj hself).symm⟩
  | cons name more =>
    have hdirectory := (listed_of_look (h.names name List.mem_cons_self) h.look).1
    rw [hlook] at hdirectory
    cases hdirectory

/-- Trees that show the same show nothing else, where all that is shown can be read. -/
theorem StillShows.shows_iff {t' : FileTree} {path' : List String}
    (h : t.StillShows t' skipped path path') (hopens : t.Opens path)
    (hreadable : t.Readable skipped path) {rest : List String} {node : Node} :
    t'.Shows skipped path' rest node ↔ t.Shows skipped path rest node := by
  have hthose : ∀ rest node, t'.Shows skipped path' rest node →
      ∃ node, t.Shows skipped path rest node := by
    intro rest
    induction rest using List.reverseRecOn with
    | nil =>
      intro _ _
      obtain ⟨node, hlook⟩ := hopens.exists_look
      exact ⟨node, shows_nil.mpr hlook⟩
    | append_singleton rest name ih =>
      intro node hshown
      obtain ⟨hnames, hname⟩ := List.forall_mem_append.mp hshown.names
      obtain ⟨hkept, hunskipped⟩ := kept_append_iff.mp hshown.kept
      have hlook := hshown.look
      rw [← List.append_assoc] at hlook
      obtain ⟨hdirectory, hlisted⟩ := listed_of_look (hname name (by simp)) hlook
      -- the directory is shown in both trees, so that the name is listed in both
      obtain ⟨before, hbefore⟩ := ih .directory ⟨hnames, hkept, hdirectory⟩
      have hsame := (h.shown rest before hbefore).look
      rw [hdirectory] at hsame
      obtain rfl : Node.directory = before := Option.some.inj hsame
      have hlisted' := (h.listed rest hbefore name (hunskipped name (by simp))).mp hlisted
      obtain ⟨found, hfound⟩ :=
        (hreadable rest hbefore name hlisted' (hunskipped name (by simp))).exists_look
      exact ⟨found, hshown.names, hshown.kept, by rw [← List.append_assoc, hfound]⟩
  refine ⟨fun hshown => ?_, h.shown rest node⟩
  obtain ⟨other, hother⟩ := hthose rest node hshown
  have hsame := (h.shown rest other hother).look
  rw [hshown.look] at hsame
  obtain rfl : node = other := Option.some.inj hsame
  exact hother

/-- What can be read still can where the same is shown. -/
theorem StillShows.readable {t' : FileTree} {path' : List String}
    (h : t.StillShows t' skipped path path') (ht : t.Sound) (hopens : t.Opens path)
    (hreadable : t.Readable skipped path) :
    t'.Opens path' ∧ t'.Readable skipped path' := by
  have hopens' : ∀ rest, (∀ name ∈ rest, IsName name) → Kept skipped rest →
      t.Opens (path ++ rest) → t'.Opens (path' ++ rest) := by
    intro rest hnames hkept hopened
    rcases hopened with hlook | ⟨bytes, hlook⟩
    · exact Or.inl (h.shown rest _ ⟨hnames, hkept, hlook⟩).look
    · exact Or.inr ⟨bytes, (h.shown rest _ ⟨hnames, hkept, hlook⟩).look⟩
  constructor
  · have hself := hopens' [] (by simp) (kept_nil skipped)
    rw [List.append_nil, List.append_nil] at hself
    exact hself hopens
  · intro rest hrest name hlisted hunskipped
    have hrest := (h.shows_iff hopens hreadable).mp hrest
    have hlisted₀ := (h.listed rest hrest name hunskipped).mp hlisted
    have hname := ht.isName_of_mem_listDirectory hlisted₀
    rw [List.append_assoc]
    refine hopens' _ ?_ ?_ ?_
    · exact List.forall_mem_append.mpr ⟨hrest.names, by simpa using hname⟩
    · exact kept_append_iff.mpr ⟨hrest.kept, kept_cons_iff.mpr ⟨hunskipped, kept_nil skipped⟩⟩
    · rw [← List.append_assoc]
      exact hreadable rest hrest name hlisted₀ hunskipped

end

-- ════════════════════════════════════════════════════════════════════════
-- What copies hold
-- ════════════════════════════════════════════════════════════════════════

section

variable {t u : FileTree} {skipped path : List String} {target : Location}

/-- A copy stays one as long as nothing changes at or below it. -/
theorem Follows.congr {u' : FileTree} (h : t.Follows u skipped path target)
    (hsame : ∀ rest, u'.node? (target ++ rest) = u.node? (target ++ rest)) :
    t.Follows u' skipped path target :=
  ⟨h.opens, h.readable, h.room, fun rest node => by rw [hsame, h.same]⟩

/-- A file is a copy of what leads to a file with its bytes. -/
theorem follows_file (hu : u.Sound) {bytes : ByteArray} (hlook : t.look path = some (.file bytes))
    (hnode : u.node? target = some (.file bytes)) (hwalkable : Walkable target) :
    t.Follows u skipped path target := by
  refine ⟨Or.inr ⟨_, hlook⟩, fun rest hrest => ?_, fun rest node hrest => ?_,
    fun rest node => ?_⟩
  · cases (hrest.of_file hlook).2
  · rwa [(hrest.of_file hlook).1, List.append_nil]
  · constructor
    · intro hstands
      cases rest with
      | nil =>
        rw [List.append_nil, hnode] at hstands
        exact shows_nil.mpr (hlook.trans hstands)
      | cons name more =>
        rw [hu.below_none (by simp [hnode]) (List.cons_ne_nil _ _)] at hstands
        cases hstands
    · intro hrest
      obtain ⟨rfl, rfl⟩ := hrest.of_file hlook
      rw [List.append_nil, hnode]

/-- A directory is a copy of what leads to a directory, if what stands in it are copies of what is
shown there under their names. -/
theorem follows_directory (hlook : t.look path = some .directory)
    (hnode : u.node? target = some .directory) (hwalkable : Walkable target)
    (hnames : ∀ name ∈ t.listDirectory (Path.ofLocation path), name ∉ skipped →
      IsName name ∧ t.Follows u skipped (path ++ [name]) (target ++ [name]))
    (hothers : ∀ name rest, ¬ (name ∈ t.listDirectory (Path.ofLocation path) ∧ name ∉ skipped) →
      u.node? (target ++ name :: rest) = none) :
    t.Follows u skipped path target := by
  have hcons : ∀ {name rest node}, t.Shows skipped path (name :: rest) node →
      t.Shows skipped (path ++ [name]) rest node ∧
        t.Follows u skipped (path ++ [name]) (target ++ [name]) := by
    intro name rest node hshown
    obtain ⟨hname, hunskipped, hrest⟩ := shows_cons.mp hshown
    exact ⟨hrest, (hnames name (listed_of_look hname hshown.look).2 hunskipped).2⟩
  refine ⟨Or.inl hlook, fun rest hrest => ?_, fun rest node hrest => ?_, fun rest node => ?_⟩
  · cases rest with
    | nil =>
      intro name hlisted hunskipped
      rw [List.append_nil] at hlisted ⊢
      exact (hnames name hlisted hunskipped).2.opens
    | cons name more =>
      obtain ⟨hmore, hfollows⟩ := hcons hrest
      rw [append_cons_eq]
      exact hfollows.readable more hmore
  · cases rest with
    | nil => rwa [List.append_nil]
    | cons name more =>
      obtain ⟨hmore, hfollows⟩ := hcons hrest
      rw [append_cons_eq]
      exact hfollows.room more node hmore
  · cases rest with
    | nil => rw [List.append_nil, shows_nil, hnode, hlook]
    | cons name more =>
      constructor
      · intro hstands
        have hlisted : name ∈ t.listDirectory (Path.ofLocation path) ∧ name ∉ skipped := by
          by_contra hnot
          rw [hothers name more hnot] at hstands
          cases hstands
        obtain ⟨hname, hfollows⟩ := hnames name hlisted.1 hlisted.2
        rw [append_cons_eq, hfollows.same] at hstands
        exact shows_cons.mpr ⟨hname, hlisted.2, hstands⟩
      · intro hshown
        obtain ⟨hmore, hfollows⟩ := hcons hshown
        rw [append_cons_eq, hfollows.same]
        exact hmore

end

/-- What can be done in an enclosed directory has a path that is not too long. -/
theorem Ground.walkable {t : FileTree} {loc cwd : Location} (h : t.Ground loc) {rest : List String}
    (hr : ∀ name ∈ rest, IsName name) {followLast : Bool} {destination : Destination}
    (hw : t.walk cwd followLast (Path.ofLocation (loc ++ rest)) = .ok destination) :
    Walkable (loc ++ rest) := by
  have hlinkless : t.Linkless (loc ++ rest) :=
    (h.sound.linkless h.directory).append
      (fun below target => h.enclosed.linkless _ target (List.prefix_append loc below))
      (plain_of_isName hr)
  exact hlinkless.walkable hw

-- ════════════════════════════════════════════════════════════════════════
-- Copies without a complaint
-- ════════════════════════════════════════════════════════════════════════

section

variable {t₀ t : FileTree} {loc : Location} {skipped path : List String}

theorem copyDirectoryFrom_eq_taken (depth : Nat) (target : Path) :
    copyDirectoryFrom skipped (depth + 1) t (Path.ofLocation path) target =
      (t.makeDirectory [] target).map fun made =>
        (t.taken skipped path).foldl (copyName skipped depth (Path.ofLocation path) target)
          (made, false) := copyDirectoryFrom_succ skipped depth t _ target

theorem Sound.nodup_taken (h : t.Sound) (skipped path : List String) :
    (t.taken skipped path).Nodup := (h.nodup_listDirectory _).filter _

theorem Sound.isName_of_mem_taken (h : t.Sound) {name : String}
    (hname : name ∈ t.taken skipped path) : IsName name :=
  h.isName_of_mem_listDirectory (List.mem_filter.mp hname).1

/-- While a location out of sight is filled, a copy takes the names that were there before. -/
theorem FilledAt.mem_taken_iff (h : t₀.FilledAt t loc) (hsight : t₀.OutOfSight loc skipped path)
    (hlook : t₀.look path = some .directory) {name : String} :
    name ∈ t.taken skipped path ↔
      name ∈ t₀.listDirectory (Path.ofLocation path) ∧ name ∉ skipped := by
  rw [taken, List.mem_filter, Bool.not_eq_true', Bool.eq_false_iff, ne_eq, List.contains_iff_mem]
  exact and_congr_left fun hname => h.mem_listDirectory_iff hsight hlook hname

end

section

variable {t₀ t u u' : FileTree} {loc : Location} {skipped path rest : List String} {depth : Nat}

/-- What a file is copied from is shown, and the copy stands where it is told. -/
theorem Follows.of_copyFile (h : t₀.FilledAt u loc)
    (hsight : t₀.OutOfSight loc skipped path) (hr : ∀ name ∈ rest, IsName name)
    (hc : u.copyFile (Path.ofLocation path) (Path.ofLocation (loc ++ rest)) = .ok u') :
    t₀.Follows u' skipped path (loc ++ rest) ∧
      ∀ other, ¬ loc ++ rest <+: other → u'.node? other = u.node? other := by
  obtain ⟨bytes, hread, -, hput, hground⟩ := h.ground.copyFile_eq_ok hr hc
  have hlook : t₀.look path = some (.file bytes) :=
    shows_nil.mp ((h.shows_iff hsight).mp (shows_nil.mpr (read_eq_ok_iff_look.mp hread)))
  rw [copyFile, hread] at hc
  obtain ⟨place, htakes, -⟩ := write_eq_ok hc
  obtain rfl := h.ground.enclosed.takesAt (plain_of_isName hr) htakes
  have hne := htakes.node?.1
  obtain ⟨destination, hwalk, -⟩ := htakes
  have hwalkable := h.ground.walkable hr hwalk
  refine ⟨follows_file hground.sound hlook ?_ hwalkable, fun other hother => ?_⟩
  · rw [hput, node?_put_self _ hne]
  · rw [hput, node?_put_of_ne]
    rintro rfl
    exact hother (List.prefix_refl _)

/-- One name is copied without a complaint, if directories at this depth are copied right. -/
theorem Follows.of_copyName (h : t₀.FilledAt u loc)
    (hsight : t₀.OutOfSight loc skipped path) (hr : ∀ name ∈ rest, IsName name) {name : String}
    (hname : IsName name) (hunskipped : name ∉ skipped)
    (hcopy : ∀ {copied}, t₀.look (path ++ [name]) = some .directory →
      copyDirectoryFrom skipped depth u (Path.ofLocation (path ++ [name]))
        (Path.ofLocation (loc ++ (rest ++ [name]))) = .ok (copied, false) →
      t₀.Follows copied skipped (path ++ [name]) (loc ++ (rest ++ [name])))
    (hstep : copyName skipped depth (Path.ofLocation path) (Path.ofLocation (loc ++ rest))
      (u, false) name = (u', false)) :
    t₀.FilledAt u' loc ∧ t₀.Follows u' skipped (path ++ [name]) (loc ++ rest ++ [name]) ∧
      ∀ other, ¬ loc ++ rest ++ [name] <+: other → u'.node? other = u.node? other := by
  have hr' := isName_concat hr hname
  have hsight' := hsight.child hname hunskipped
  rw [List.append_assoc]
  rcases (copyName_eq_false hstep).2 with ⟨hasked, hcopied⟩ | ⟨-, hcopied⟩
  · rw [Path.child_ofLocation] at hasked
    rw [Path.child_ofLocation, Path.child_ofLocation, List.append_assoc] at hcopied
    have hlook : t₀.look (path ++ [name]) = some .directory :=
      shows_nil.mp ((h.shows_iff hsight').mp (shows_nil.mpr (isDirectory?_eq_true_iff.mp hasked)))
    exact ⟨h.copyDirectoryFrom hr' hcopied, hcopy hlook hcopied,
      (h.ground.copyDirectoryFrom_grownAt depth hr' hcopied).outside⟩
  · rw [Path.child_ofLocation, Path.child_ofLocation, List.append_assoc] at hcopied
    exact ⟨h.copyFile hr' hcopied, of_copyFile h hsight' hr' hcopied⟩

/-- Names that are copied one after the other without a complaint: each copy stays as it was made,
and nothing changes beside them. -/
theorem Follows.of_copyNames {target : Location} {source : Path} {names : List String}
    (hnodup : names.Nodup)
    (hstep : ∀ name ∈ names, ∀ u u', t₀.FilledAt u loc →
      copyName skipped depth source (Path.ofLocation target) (u, false) name = (u', false) →
      t₀.FilledAt u' loc ∧ t₀.Follows u' skipped (path ++ [name]) (target ++ [name]) ∧
        ∀ other, ¬ target ++ [name] <+: other → u'.node? other = u.node? other)
    (h : t₀.FilledAt u loc)
    (hfold : names.foldl (copyName skipped depth source (Path.ofLocation target)) (u, false) =
      (u', false)) :
    (∀ name ∈ names, t₀.Follows u' skipped (path ++ [name]) (target ++ [name])) ∧
      ∀ other, (∀ name ∈ names, ¬ target ++ [name] <+: other) → u'.node? other = u.node? other := by
  induction names generalizing u with
  | nil =>
    obtain rfl : u = u' := congrArg Prod.fst hfold
    exact ⟨by simp, fun _ _ => rfl⟩
  | cons name names ih =>
    obtain ⟨hnew, hnodup⟩ := List.nodup_cons.mp hnodup
    rw [List.foldl_cons] at hfold
    cases hfirst : copyName skipped depth source (Path.ofLocation target) (u, false) name with
    | mk copied complaint =>
      rw [hfirst] at hfold
      obtain rfl : complaint = false := complains_foldl (congrArg Prod.snd hfold)
      obtain ⟨hfilled, hfollows, hbeside⟩ := hstep name List.mem_cons_self u copied h hfirst
      obtain ⟨hothers, houtside⟩ := ih hnodup
        (fun other hother => hstep other (List.mem_cons_of_mem _ hother)) hfilled hfold
      refine ⟨List.forall_mem_cons.mpr ⟨hfollows.congr fun more => ?_, hothers⟩,
        fun other hother => ?_⟩
      · refine houtside _ fun other hother => ?_
        rw [← append_cons_eq]
        refine not_prefix_of_ne ?_ target more
        rintro rfl
        exact hnew hother
      · obtain ⟨hhere, hrest⟩ := List.forall_mem_cons.mp hother
        rw [houtside other hrest, hbeside other hhere]

/-- A directory that is copied without a complaint, to a location out of its sight, is followed: all
that it shows could be read and found room, and stands in the copy. -/
theorem Follows.of_copyDirectoryFrom (depth : Nat) (h : t₀.FilledAt t loc)
    (hsight : t₀.OutOfSight loc skipped path) (hr : ∀ name ∈ rest, IsName name)
    (hlook : t₀.look path = some .directory)
    (hc : copyDirectoryFrom skipped depth t (Path.ofLocation path) (Path.ofLocation (loc ++ rest)) =
      .ok (u, false)) :
    t₀.Follows u skipped path (loc ++ rest) := by
  induction depth generalizing t u path rest with
  | zero => cases hc
  | succ depth ih =>
    have hgrown := h.ground.copyDirectoryFrom_grownAt _ hr hc
    obtain ⟨made, hmade, hfold⟩ := copyDirectoryFrom_succ_eq_ok hc
    have hmem : ∀ {name}, name ∈ t.taken skipped path ↔
        name ∈ t₀.listDirectory (Path.ofLocation path) ∧ name ∉ skipped :=
      h.mem_taken_iff hsight hlook
    have hstep : ∀ name ∈ t.taken skipped path, ∀ v v', t₀.FilledAt v loc →
        copyName skipped depth (Path.ofLocation path) (Path.ofLocation (loc ++ rest))
          (v, false) name = (v', false) →
        t₀.FilledAt v' loc ∧ t₀.Follows v' skipped (path ++ [name]) (loc ++ rest ++ [name]) ∧
          ∀ other, ¬ loc ++ rest ++ [name] <+: other → v'.node? other = v.node? other := by
      intro name htaken v v' hv hcopied
      have hname := h.ground.sound.isName_of_mem_taken htaken
      have hunskipped := (hmem.mp htaken).2
      refine of_copyName hv hsight hr hname hunskipped (fun hdirectory hbelow => ?_) hcopied
      exact ih hv (hsight.child hname hunskipped) (isName_concat hr hname) hdirectory hbelow
    obtain ⟨hcopies, hbeside⟩ := of_copyNames (h.ground.sound.nodup_taken skipped path) hstep
      (h.makeDirectory hr hmade) hfold
    have hwalkable : Walkable (loc ++ rest) := by
      obtain ⟨_, _, hwalk, -⟩ := makeDirectory_eq_ok hmade
      exact h.ground.walkable hr hwalk
    refine follows_directory hlook hgrown.directory hwalkable (fun name hlisted hunskipped => ?_)
      fun name more hnot => ?_
    · have htaken := hmem.mpr ⟨hlisted, hunskipped⟩
      exact ⟨h.ground.sound.isName_of_mem_taken htaken, hcopies name htaken⟩
    · rw [hbeside _ fun other hother => ?_,
        (h.ground.graftedUpTo_nil hr hmade skipped []).left name more (by simp)]
      refine not_prefix_of_ne ?_ _ more
      rintro rfl
      exact hnot (hmem.mp hother)

end

-- ════════════════════════════════════════════════════════════════════════
-- When nothing is complained of
-- ════════════════════════════════════════════════════════════════════════

section

variable {t₀ t u : FileTree} {loc : Location} {skipped path rest : List String} {depth : Nat}

/-- A name that leads to a directory or to a file is copied to where nothing stands, if directories
at this depth are. -/
theorem exists_copyName (h : t₀.FilledAt u loc) (hsight : t₀.OutOfSight loc skipped path)
    (hr : ∀ name ∈ rest, IsName name) {name : String} (hname : IsName name)
    (hunskipped : name ∉ skipped) (hopens : t₀.Opens (path ++ [name]))
    (hwalkable : Walkable (loc ++ rest ++ [name]))
    (hdirectory : u.node? (loc ++ rest) = some .directory)
    (hfree : u.node? (loc ++ rest ++ [name]) = none)
    (hcopy : t₀.look (path ++ [name]) = some .directory →
      ∃ u', copyDirectoryFrom skipped depth u (Path.ofLocation (path ++ [name]))
        (Path.ofLocation (loc ++ (rest ++ [name]))) = .ok (u', false)) :
    ∃ u', copyName skipped depth (Path.ofLocation path) (Path.ofLocation (loc ++ rest)) (u, false)
        name = (u', false) ∧ t₀.FilledAt u' loc ∧
      ∀ other, ¬ loc ++ rest ++ [name] <+: other → u'.node? other = u.node? other := by
  have hr' := isName_concat hr hname
  have hshown : ∀ {node}, t₀.look (path ++ [name]) = some node →
      u.look (path ++ [name]) = some node := fun hlook => h.extends.look hlook
  rcases hopens with hlook | ⟨bytes, hlook⟩
  · obtain ⟨u', hcopied⟩ := hcopy hlook
    have hasked : u.isDirectory? [] (Path.ofLocation (path ++ [name])) = .ok true :=
      isDirectory?_eq_true_iff.mpr (hshown hlook)
    have hgrown := h.ground.copyDirectoryFrom_grownAt depth hr' hcopied
    refine ⟨u', ?_, h.copyDirectoryFrom hr' hcopied, ?_⟩
    · rw [copyName, Path.child_ofLocation, hasked]
      dsimp only
      rw [Path.child_ofLocation, List.append_assoc, hcopied]
      rfl
    · rw [List.append_assoc]
      exact hgrown.outside
  · obtain ⟨u', hwritten⟩ : ∃ u',
        u.write [] (Path.ofLocation (loc ++ rest ++ [name])) bytes = .ok u' :=
      h.ground.sound.exists_write hdirectory hname
        (fun node hnode => by rw [hfree] at hnode; cases hnode) hwalkable bytes
    have hasked : u.isDirectory? [] (Path.ofLocation (path ++ [name])) = .ok false :=
      isDirectory?_of_look_file (hshown hlook)
    have hcopied : u.copyFile (Path.ofLocation (path ++ [name]))
        (Path.ofLocation (loc ++ (rest ++ [name]))) = .ok u' := by
      rw [copyFile, read_eq_ok_iff_look.mpr (hshown hlook), ← List.append_assoc]
      exact hwritten
    refine ⟨u', ?_, h.copyFile hr' hcopied, ?_⟩
    · rw [copyName, Path.child_ofLocation, hasked]
      dsimp only
      rw [Path.child_ofLocation, List.append_assoc, hcopied]
    · rw [List.append_assoc]
      exact (Follows.of_copyFile h (hsight.child hname hunskipped) hr' hcopied).2

/-- Names are copied one after the other to where nothing stands. -/
theorem exists_copyNames {target : Location} {source : Path} {names : List String}
    (hnodup : names.Nodup)
    (hstep : ∀ name ∈ names, ∀ u, t₀.FilledAt u loc → u.node? target = some .directory →
      u.node? (target ++ [name]) = none →
      ∃ u', copyName skipped depth source (Path.ofLocation target) (u, false) name = (u', false) ∧
        t₀.FilledAt u' loc ∧
        ∀ other, ¬ target ++ [name] <+: other → u'.node? other = u.node? other)
    (h : t₀.FilledAt u loc) (hdirectory : u.node? target = some .directory)
    (hfree : ∀ name ∈ names, u.node? (target ++ [name]) = none) :
    ∃ u', names.foldl (copyName skipped depth source (Path.ofLocation target)) (u, false) =
      (u', false) := by
  induction names generalizing u with
  | nil => exact ⟨u, rfl⟩
  | cons name names ih =>
    obtain ⟨hnew, hnodup⟩ := List.nodup_cons.mp hnodup
    obtain ⟨u₁, hfirst, hfilled, hbeside⟩ :=
      hstep name List.mem_cons_self u h hdirectory (hfree name List.mem_cons_self)
    rw [List.foldl_cons, hfirst]
    refine ih hnodup (fun other hother => hstep other (List.mem_cons_of_mem _ hother)) hfilled ?_
      fun other hother => ?_
    · rw [hbeside _ (child_not_above target name), hdirectory]
    · rw [hbeside, hfree other (List.mem_cons_of_mem _ hother)]
      refine not_prefix_of_ne ?_ target []
      rintro rfl
      exact hnew hother

/-- A directory is copied without a complaint, to a free location out of its sight, if all that it
shows can be read and finds room. What finds room is not too deep either. -/
theorem exists_copyDirectoryFrom (depth : Nat) (h : t₀.FilledAt t loc)
    (hsight : t₀.OutOfSight loc skipped path) (hr : ∀ name ∈ rest, IsName name)
    (hne : rest ≠ []) (hlook : t₀.look path = some .directory)
    (hreadable : t₀.Readable skipped path) (hroom : t₀.HasRoom skipped path (loc ++ rest))
    (hparent : t.node? (loc ++ rest.dropLast) = some .directory)
    (hfree : t.node? (loc ++ rest) = none)
    (hdepth : pathLimit / 2 ≤ depth + (loc ++ rest).length) :
    ∃ u, copyDirectoryFrom skipped depth t (Path.ofLocation path)
      (Path.ofLocation (loc ++ rest)) = .ok (u, false) := by
  have hwalkable : ∀ {rest path}, t₀.HasRoom skipped path (loc ++ rest) →
      t₀.look path = some .directory → Walkable (loc ++ rest) := by
    intro rest path hroom hlook
    have hself := hroom [] _ (shows_nil.mpr hlook)
    rwa [List.append_nil] at hself
  induction depth generalizing t path rest with
  | zero =>
    have hshort := (hwalkable hroom hlook).length_lt (List.forall_mem_append.mpr
      ⟨h.ground.sound.isName_of_node? h.ground.directory, hr⟩)
    omega
  | succ depth ih =>
    have hmade : t.makeDirectory [] (Path.ofLocation (loc ++ rest)) =
        .ok (t.put (loc ++ rest) .directory) :=
      h.ground.sound.makeDirectory_below hr hne hparent hfree (hwalkable hroom hlook)
    have hstart := h.ground.makeDirectory_grownAt hr hmade
    have hstep : ∀ name ∈ t.taken skipped path, ∀ v, t₀.FilledAt v loc →
        v.node? (loc ++ rest) = some .directory → v.node? (loc ++ rest ++ [name]) = none →
        ∃ v', copyName skipped depth (Path.ofLocation path) (Path.ofLocation (loc ++ rest))
            (v, false) name = (v', false) ∧ t₀.FilledAt v' loc ∧
          ∀ other, ¬ loc ++ rest ++ [name] <+: other → v'.node? other = v.node? other := by
      intro name htaken v hv hdirectory hnone
      obtain ⟨hlisted, hunskipped⟩ := (h.mem_taken_iff hsight hlook).mp htaken
      have hname := h.ground.sound.isName_of_mem_taken htaken
      have hopens : t₀.Opens (path ++ [name]) := by
        have hread := hreadable [] (shows_nil.mpr hlook) name
        rw [List.append_nil] at hread
        exact hread hlisted hunskipped
      have hroom' : t₀.HasRoom skipped (path ++ [name]) (loc ++ (rest ++ [name])) := by
        rw [← List.append_assoc]
        exact hroom.child hname hunskipped
      refine exists_copyName hv hsight hr hname hunskipped hopens ?_ hdirectory hnone
        fun hbelow => ?_
      · obtain ⟨node, hnode⟩ := hopens.exists_look
        have hself := hroom' [] node (shows_nil.mpr hnode)
        rwa [List.append_nil, ← List.append_assoc] at hself
      · refine ih hv (hsight.child hname hunskipped) (isName_concat hr hname) (by simp) hbelow
          (hreadable.child hname hunskipped) hroom' ?_ ?_ ?_
        · rwa [List.dropLast_concat]
        · rwa [← List.append_assoc]
        · rw [← List.append_assoc, List.length_append, List.length_singleton]
          omega
    obtain ⟨u, hu⟩ := exists_copyNames (h.ground.sound.nodup_taken skipped path) hstep
      (h.makeDirectory hr hmade) hstart.directory fun name _ =>
        (h.ground.graftedUpTo_nil hr hmade skipped []).left name [] (by simp)
    refine ⟨u, ?_⟩
    rw [copyDirectoryFrom_eq_taken, hmade]
    exact congrArg Except.ok hu

end

end TwoStage.FileTree

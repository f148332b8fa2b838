import TwoStage.Proofs.FileTree.Mirror
import TwoStage.Proofs.Pipeline.Staging

/-!
# What staging copies

In a sound world whose sources hold no links, the sources alone leave an image of the source tree:
in the scratch directory stands, at every name that a declared path reaches, what stands there below
the source root, and nothing else.

## Main definitions

- `World.Sound` — worlds with a sound file tree
- `SourceInput.placeOf` — the components of a declared path
- `Reached` — the names that declared paths reach
- `Spec.Stageable` — a world with sources that hold no links

## Main statements

- `StagedContext.copySources_induction` — what copying the sources keeps
- `StagedContext.mirrors_copySource`, `StagedContext.mirrors_copySources` — one source, all sources
- `Spec.mirrors_of_stageSources` — the sources alone
-/

namespace TwoStage

open FileTree StagedContext

/-- A world in which directories stand where the program works and where it makes others, in a sound
tree. -/
structure World.Sound (host : Host) (w : World) : Prop where
  files : w.files.Sound
  cwd : w.files.node? host.cwd = some .directory
  scratch : w.files.node? host.scratch = some .directory

instance (host : Host) (w : World) : Decidable (w.Sound host) :=
  decidable_of_iff
    (w.files.Sound ∧ w.files.node? host.cwd = some .directory ∧
      w.files.node? host.scratch = some .directory)
    ⟨fun h => ⟨h.1, h.2.1, h.2.2⟩, fun h => ⟨h.files, h.cwd, h.scratch⟩⟩

/-- The components of a declared path. -/
def SourceInput.placeOf (path : String) : List String := (Path.ofText path).parts

open SourceInput (placeOf)

/-- The places of the declared paths. -/
def Spec.places (spec : Spec) : List (List String) := spec.build.sources.paths.map placeOf

/-- The names that the copies of places reach. -/
def Reached (places : List (List String)) (rel : List String) : Prop :=
  rel = [] ∨ ∃ place ∈ places, ReachedFrom skippedNames place rel

/-- A sound world with a source root that no link stands on the way to, and none below. Scratch
directories are not made below a source to which a name leads that copies skip. -/
structure Spec.Stageable (spec : Spec) (host : Host) (w : World) (sourceRoot : Path)
    (root : Location) : Prop where
  sound : w.Sound host
  resolves : w.files.resolve host.cwd sourceRoot = .ok root
  reached : w.files.Linkless root
  linkless : ∀ rest target, w.files.node? (root ++ rest) ≠ some (.link target)
  aside : ∀ place ∈ spec.places, Kept skippedNames place ∨ ¬ root ++ place <+: host.scratch

-- ════════════════════════════════════════════════════════════════════════
-- Declared paths
-- ════════════════════════════════════════════════════════════════════════

theorem reached_append_iff {places : List (List String)} {place rel : List String} :
    Reached (places ++ [place]) rel ↔ Reached places rel ∨ ReachedFrom skippedNames place rel := by
  simp only [Reached, List.mem_append, List.mem_singleton, or_and_right, exists_or,
    exists_eq_left, or_assoc]

/-- What is above a name that is reached is reached. -/
theorem Reached.above {places : List (List String)} {rel above : List String}
    (h : Reached places rel) (habove : above <+: rel) : Reached places above := by
  rcases h with rfl | ⟨place, hplace, hrel⟩
  · exact Or.inl (List.prefix_nil.mp habove)
  · exact Or.inr ⟨place, hplace, hrel.above habove⟩

/-- A declared path leads to its place below the root. -/
theorem SourceInput.pathUnder_eq (root : Location) {path : String} (h : staysInside path = true) :
    pathUnder root path = Path.ofLocation (root ++ placeOf path) := by
  simp only [staysInside, Bool.and_eq_true, Bool.not_eq_true'] at h
  rw [pathUnder, Path.join, h.1.1]
  rfl

theorem SourceInput.drop_pathUnder (root : Location) {path : String}
    (h : staysInside path = true) :
    (pathUnder root path).parts.drop root.length = placeOf path := (parts_pathUnder root h).1

theorem SourceInput.plain_placeOf {path : String} (h : staysInside path = true) :
    Plain (placeOf path) := (parts_pathUnder [] h).2.1

theorem SourceInput.placeOf_ne_nil {path : String} (h : staysInside path = true) :
    placeOf path ≠ [] := (parts_pathUnder [] h).2.2

theorem Spec.StaysInside.plain {spec : Spec} (h : spec.StaysInside) {place : List String}
    (hplace : place ∈ spec.places) : Plain place := by
  obtain ⟨path, hpath, rfl⟩ := List.mem_map.mp hplace
  exact SourceInput.plain_placeOf (h path hpath)

-- ════════════════════════════════════════════════════════════════════════
-- Sound worlds
-- ════════════════════════════════════════════════════════════════════════

/-- The names of scratch directories are names of components. -/
theorem isName_scratch {stem : String} (hstem : 2 < stem.length) (hslash : '/' ∉ stem.toList)
    (n : Nat) : IsName (stem ++ toString n) := by
  have hne : ∀ other : String, other.length ≤ 2 → stem ++ toString n ≠ other := by
    rintro _ hshort rfl
    rw [String.length_append] at hshort
    omega
  refine ⟨hne "" (by decide), hne "." (by decide), hne ".." (by decide), ?_⟩
  rw [mem_toList_append, not_or]
  exact ⟨hslash, not_mem_toString (by decide) n⟩

namespace World.Sound

variable {host : Host} {w : World} (h : w.Sound host)

include h

theorem grounded : w.Grounded host := by
  refine ⟨fun above habove => ?_, (h.files.linkless h.scratch).plain,
    fun entry hentry => plain_of_isName (h.files.named entry hentry)⟩
  by_cases hsame : above = host.scratch
  · rw [hsame, h.scratch]
  · exact h.files.leads habove hsame h.scratch

/-- A scratch directory that is made is good ground. -/
theorem ground {n : Nat}
    (hfree : w.files.isFree (Act.scratchPlace host "lspib-context-" n) = true) :
    (w.files.put (Act.scratchPlace host "lspib-context-" n) .directory).Ground
      (Act.scratchPlace host "lspib-context-" n) := by
  have hne : Act.scratchPlace host "lspib-context-" n ≠ [] := by simp [Act.scratchPlace]
  refine ⟨h.files.put .directory hne ?_ ?_ fun old hold => ?_,
    h.grounded.enclosed (by decide) hfree⟩
  · rw [Act.scratchPlace, List.dropLast_concat, h.scratch]
  · refine List.forall_mem_append.mpr ⟨h.files.isName_of_node? h.scratch, ?_⟩
    simpa using isName_scratch (by decide) (by decide) n
  · rw [FileTree.node?_of_isFree hfree hne (List.prefix_refl _)] at hold
    cases hold

end World.Sound

-- ════════════════════════════════════════════════════════════════════════
-- Copies
-- ════════════════════════════════════════════════════════════════════════

/-- A source is copied into the directories that are made for it, as a directory or as a file. -/
theorem StagedContext.copySource_eq_ok {source : Path} {loc : Location} {place : List String}
    (hne : place ≠ []) {host : Host} {w w' : World}
    (h : copySource source (Path.ofLocation (loc ++ place)) host w = (.ok (), w')) :
    ∃ made, w.files.makeDirectoriesPartly host.cwd (Path.ofLocation (loc ++ place.dropLast)) =
        (made, none) ∧
      (made.isDirectory? host.cwd source = .ok true ∧
          made.copyDirectory skippedNames source (Path.ofLocation (loc ++ place)) =
            (w'.files, none) ∨
        made.isDirectory? host.cwd source = .ok false ∧
          made.copyFile source (Path.ofLocation (loc ++ place)) = .ok w'.files) := by
  rw [copySource] at h
  obtain ⟨⟨⟩, w₁, hmake, hasking⟩ := Act.bind_eq_ok h
  have hmade := Act.changeFilesPartly_eq_ok hmake
  rw [Path.parent_ofLocation hne] at hmade
  obtain ⟨isDirectory, w₂, hasked, hcopying⟩ := Act.bind_eq_ok hasking
  obtain ⟨rfl, hanswer⟩ := Act.ask_eq_ok hasked
  refine ⟨w₂.files, hmade, ?_⟩
  cases isDirectory with
  | true =>
    rw [if_pos rfl] at hcopying
    exact Or.inl ⟨hanswer, Act.changeFilesPartly_eq_ok hcopying⟩
  | false =>
    rw [if_neg Bool.false_ne_true] at hcopying
    exact Or.inr ⟨hanswer, Act.changeFiles_eq_ok hcopying⟩

theorem not_prefix_dropLast {place : List String} (hne : place ≠ []) :
    ¬ place <+: place.dropLast := by
  intro hbefore
  have hlength := hbefore.length_le
  have hpos := List.length_pos_iff.mpr hne
  rw [List.length_dropLast] at hlength
  omega

section

variable {t₀ : FileTree} {root loc : Location} {host : Host} {reached : List String → Prop}
  {place : List String} {w w' : World} (h : Mirrors t₀ w.files root loc reached)
  (hroot : t₀.Ground root) (hs : IsSource t₀ root loc skippedNames place)

include h hroot hs

/-- The directories for a source are made as part of the image. -/
theorem FileTree.Mirrors.makeDirectories {made : FileTree}
    (hmade : w.files.makeDirectoriesPartly host.cwd (Path.ofLocation (loc ++ place.dropLast)) =
      (made, none)) :
    LaidOut w.files made loc (loc ++ place.dropLast) ∧
      Mirrors t₀ made root loc fun rel => reached rel ∨ rel <+: place.dropLast := by
  have hlaid := h.ground.makeDirectoriesPartly_eq_ok (isName_dropLast (hs.isName hroot.sound)) hmade
  exact ⟨hlaid, h.laidOut hroot.sound hs hlaid⟩

/-- A source that is copied is added to the image. -/
theorem StagedContext.mirrors_copySource (hclosed : ∀ rest, reached (place ++ rest) → reached place)
    (hc : copySource (Path.ofLocation (root ++ place)) (Path.ofLocation (loc ++ place)) host w =
      (.ok (), w')) :
    Mirrors t₀ w'.files root loc fun rel => reached rel ∨ ReachedFrom skippedNames place rel := by
  obtain ⟨made, hmade, hcopying⟩ := copySource_eq_ok hs.ne hc
  obtain ⟨-, hstart⟩ := h.makeDirectories hroot hs hmade
  have hcopied : Mirrors t₀ w'.files root loc fun rel =>
      (reached rel ∨ rel <+: place.dropLast) ∨
        ∃ rest, Kept skippedNames rest ∧ rel = place ++ rest := by
    rcases hcopying with ⟨hanswer, hcopied⟩ | ⟨-, hcopied⟩
    · refine hstart.copyDirectory hroot hs (fun rest hrest => ?_) hanswer hcopied
      exact Or.inl (hclosed rest (hrest.resolve_right fun hbefore =>
        not_prefix_dropLast hs.ne ((List.prefix_append _ _).trans hbefore)))
    · exact hstart.copyFile hroot hs hcopied
  refine hcopied.congr fun rel => ?_
  rw [or_assoc]
  refine or_congr_right ⟨fun hrel => hrel.imp_left fun hbefore =>
    hbefore.trans (List.dropLast_prefix place), fun hrel => ?_⟩
  rcases hrel with hbefore | hbelow
  · rw [← List.dropLast_append_getLast hs.ne] at hbefore
    rcases List.prefix_concat_iff.mp hbefore with heq | hway
    · rw [List.dropLast_append_getLast] at heq
      exact Or.inr ⟨[], kept_nil _, by rw [heq, List.append_nil]⟩
    · exact Or.inl hway
  · exact Or.inr hbelow

/-- A directory is copied only where nothing has reached its place before. -/
theorem StagedContext.not_reached_of_copySource
    (hdirectory : t₀.node? (root ++ place) = some .directory)
    (hc : copySource (Path.ofLocation (root ++ place)) (Path.ofLocation (loc ++ place)) host w =
      (.ok (), w')) : ¬ reached place := by
  intro hreached
  have hnames := hs.isName hroot.sound
  obtain ⟨made, hmade, hcopying⟩ := copySource_eq_ok hs.ne hc
  obtain ⟨-, hstart⟩ := h.makeDirectories hroot hs hmade
  rcases hcopying with ⟨-, hcopied⟩ | ⟨-, hcopied⟩
  · have hgrown := hstart.ground.copyDirectoryFrom_grownAt _ hnames (copyDirectory_eq_none hcopied)
    have hsame := hstart.same place (Or.inl hreached)
    rw [hgrown.free, hdirectory] at hsame
    cases hsame
  · obtain ⟨bytes, hread, -⟩ := hstart.ground.copyFile_eq_ok hnames hcopied
    have hfile := (hstart.ground_root hroot hs.root_apart).read_eq_ok hnames hread
    rw [hstart.outside _ hs.apart, hdirectory] at hfile
    cases hfile

end

section

variable {t₀ : FileTree} {root loc : Location} {host : Host}

/-- What each source keeps that is copied, said of the paths that were copied before it, holds of all
paths in the end. -/
theorem StagedContext.copySources_induction (keeps : List String → World → Prop)
    {paths : List String} (hinside : ∀ path ∈ paths, SourceInput.staysInside path = true)
    (hcopy : ∀ done path w w', path ∈ paths → keeps done w →
      copySource (Path.ofLocation (root ++ placeOf path)) (Path.ofLocation (loc ++ placeOf path))
        host w = (.ok (), w') → keeps (done ++ [path]) w')
    {w w' : World} (h : keeps [] w)
    (hc : copySources root loc (paths.map (SourceInput.pathUnder root)) host w = (.ok (), w')) :
    keeps paths w' := by
  suffices hall : ∀ done rest w, keeps done w → rest ⊆ paths →
      copySources root loc (rest.map (SourceInput.pathUnder root)) host w = (.ok (), w') →
        keeps (done ++ rest) w' from
    hall [] paths w h (List.Subset.refl _) hc
  intro done rest w h hrest hc
  induction rest generalizing done w with
  | nil =>
    cases hc
    rwa [List.append_nil]
  | cons path rest ih =>
    obtain ⟨hpath, hothers⟩ := List.cons_subset.mp hrest
    obtain ⟨⟨⟩, w₁, hfirst, hcopies⟩ := Act.bind_eq_ok hc
    rw [SourceInput.drop_pathUnder root (hinside path hpath),
      SourceInput.pathUnder_eq root (hinside path hpath)] at hfirst
    have hend := ih (done ++ [path]) w₁ (hcopy _ _ _ _ hpath h hfirst) hothers hcopies
    rwa [List.append_assoc] at hend

/-- Sources that are copied one after the other leave the image of all of them. -/
theorem StagedContext.mirrors_copySources (hroot : t₀.Ground root) {paths : List String}
    (hpaths : ∀ path ∈ paths, SourceInput.staysInside path = true ∧
      IsSource t₀ root loc skippedNames (placeOf path)) {done : List (List String)}
    {w w' : World} (h : Mirrors t₀ w.files root loc (Reached done))
    (hc : copySources root loc (paths.map (SourceInput.pathUnder root)) host w = (.ok (), w')) :
    Mirrors t₀ w'.files root loc (Reached (done ++ paths.map placeOf)) := by
  refine copySources_induction
    (fun copied w => Mirrors t₀ w.files root loc (Reached (done ++ copied.map placeOf)))
    (fun path hpath => (hpaths path hpath).1) ?_ (by rwa [List.map_nil, List.append_nil]) hc
  intro copied path w w' hpath hmirrors hfirst
  have hnext := mirrors_copySource hmirrors hroot (hpaths path hpath).2
    (fun rest hreached => hreached.above (List.prefix_append _ rest)) hfirst
  rw [List.map_append, ← List.append_assoc]
  exact hnext.congr fun rel => reached_append_iff.symm

end

-- ════════════════════════════════════════════════════════════════════════
-- The sources alone
-- ════════════════════════════════════════════════════════════════════════

/-- Staging the sources looks for them, makes a scratch directory and copies them there. -/
theorem Spec.stageSources_eq_ok {spec : Spec} {sourceRoot : Path} {host : Host} {w w' : World}
    {loc : Location} (h : spec.stageSources sourceRoot host w = (.ok loc, w')) :
    ∃ root n, w.files.resolve host.cwd sourceRoot = .ok root ∧
      (∀ path ∈ spec.build.sources.paths,
        w.files.exists? host.cwd (SourceInput.pathUnder root path) = .ok true) ∧
      loc = Act.scratchPlace host "lspib-context-" n ∧ w.files.isFree loc = true ∧
      copySources root loc (spec.build.sources.paths.map (SourceInput.pathUnder root)) host
        { w with files := w.files.put loc .directory, scratchCount := n + 1 } = (.ok (), w') := by
  rw [stageSources] at h
  obtain ⟨root, w₁, hasked, hresolved⟩ := Act.bind_eq_ok h
  obtain ⟨rfl, hroot⟩ := Act.ask_eq_ok hasked
  obtain ⟨sources, w₂, hlocate, hlocated⟩ := Act.bind_eq_ok hresolved
  obtain rfl := SourceInput.world_of_locate hlocate
  obtain ⟨rfl, hthere⟩ := SourceInput.locate_eq_ok hlocate
  obtain ⟨n, hfree, hmake⟩ := Act.makeScratch_apply "lspib-context-" host w₁
  rw [Act.bind_apply, hmake] at hlocated
  obtain ⟨⟨⟩, w₃, hcopied, hend⟩ := Act.bind_eq_ok hlocated
  cases hend
  exact ⟨root, n, hroot, hthere, rfl, hfree, hcopied⟩

namespace Spec.Stageable

variable {spec : Spec} {host : Host} {w : World} {sourceRoot : Path} {root : Location}
  (h : spec.Stageable host w sourceRoot root) (hspec : spec.StaysInside)

include h

theorem stageSources_eq_ok {w' : World} {loc : Location}
    (hs : spec.stageSources sourceRoot host w = (.ok loc, w')) :
    ∃ n, (∀ path ∈ spec.build.sources.paths,
        w.files.exists? host.cwd (SourceInput.pathUnder root path) = .ok true) ∧
      loc = Act.scratchPlace host "lspib-context-" n ∧ w.files.isFree loc = true ∧
      copySources root loc (spec.build.sources.paths.map (SourceInput.pathUnder root)) host
        { w with files := w.files.put loc .directory, scratchCount := n + 1 } = (.ok (), w') := by
  obtain ⟨root', n, hresolves, hall⟩ := Spec.stageSources_eq_ok hs
  obtain rfl : root' = root := Except.ok.inj (hresolves.symm.trans h.resolves)
  exact ⟨n, hall⟩

include hspec

/-- The way to a declared path meets no link. -/
theorem linkless_place {place : List String} (hplace : place ∈ spec.places) :
    w.files.Linkless (root ++ place) :=
  h.reached.append h.linkless (hspec.plain hplace)

/-- Something stands at a declared path that leads to something. -/
theorem exists_node {path : String} (hpath : path ∈ spec.build.sources.paths)
    (hthere : w.files.exists? host.cwd (SourceInput.pathUnder root path) = .ok true) :
    ∃ node, w.files.node? (root ++ placeOf path) = some node := by
  rw [SourceInput.pathUnder_eq root (hspec path hpath)] at hthere
  exact (h.linkless_place hspec (List.mem_map_of_mem hpath)).exists?_eq_true hthere

end Spec.Stageable

/-- The tree in which the copies start: the scratch directory is good ground, as is the root, and
the declared paths can be copied. -/
structure Spec.StartsFrom (spec : Spec) (t₀ : FileTree) (root loc : Location) : Prop where
  ground : t₀.Ground loc
  groundRoot : t₀.Ground root
  sources : ∀ place ∈ spec.places, IsSource t₀ root loc skippedNames place

theorem Spec.Stageable.startsFrom {spec : Spec} {host : Host} {w : World} {sourceRoot : Path}
    {root : Location} (h : spec.Stageable host w sourceRoot root) (hspec : spec.StaysInside)
    (hpaths : spec.build.sources.paths ≠ [])
    (hthere : ∀ place ∈ spec.places, ∃ node, w.files.node? (root ++ place) = some node) {n : Nat}
    (hfree : w.files.isFree (Act.scratchPlace host "lspib-context-" n) = true) :
    spec.StartsFrom (w.files.put (Act.scratchPlace host "lspib-context-" n) .directory) root
      (Act.scratchPlace host "lspib-context-" n) := by
  have hground := h.sound.ground hfree
  have hloc : ∀ other, ¬ Act.scratchPlace host "lspib-context-" n <+: other →
      (w.files.put (Act.scratchPlace host "lspib-context-" n) .directory).node? other =
        w.files.node? other := by
    intro other hother
    refine node?_put_of_ne _ ?_
    rintro rfl
    exact hother (List.prefix_refl _)
  -- what stands below the root does not stand in the scratch directory
  have hapart : ∀ rest node, w.files.node? (root ++ rest) = some node →
      ¬ Act.scratchPlace host "lspib-context-" n <+: root ++ rest := by
    intro rest node hnode hbelow
    rw [node?_of_isFree hfree ?_ hbelow] at hnode
    · cases hnode
    · intro hempty
      rw [hempty] at hbelow
      exact absurd (List.prefix_nil.mp hbelow) (by simp [Act.scratchPlace])
  have henclosed : w.files.Enclosed root := by
    obtain ⟨path, hpath⟩ := List.exists_mem_of_ne_nil _ hpaths
    obtain ⟨node, hnode⟩ := hthere (placeOf path) (List.mem_map_of_mem hpath)
    exact h.reached.enclosed h.sound.files h.linkless
      (SourceInput.placeOf_ne_nil (hspec path hpath)) hnode
  have hroot : w.files.node? (root ++ []) = some .directory := by
    rw [List.append_nil]
    exact henclosed.leads root (List.prefix_refl root)
  refine ⟨hground, ⟨hground.sound, henclosed.of_outside hground.sound hloc
    (fun below link => hground.enclosed.linkless below link)
    (by simpa using hapart [] _ hroot)⟩, fun place hplace => ?_⟩
  obtain ⟨node, hnode⟩ := hthere place hplace
  have hfar := hapart place node hnode
  refine ⟨?_, ⟨node, by rw [hloc _ hfar, hnode]⟩, hfar, ?_⟩
  · obtain ⟨path, hpath, rfl⟩ := List.mem_map.mp hplace
    exact SourceInput.placeOf_ne_nil (hspec path hpath)
  · refine (h.aside place hplace).imp_right fun hscratch habove => ?_
    rcases List.prefix_concat_iff.mp habove with heq | hbefore
    · exact hfar ⟨[], by rw [heq, List.append_nil, Act.scratchPlace]⟩
    · exact hscratch hbefore

/-- An empty directory is the image of no place. -/
theorem Spec.StartsFrom.mirrors {spec : Spec} {t : FileTree} {root loc : Location}
    (h : spec.StartsFrom (t.put loc .directory) root loc)
    (hfree : t.isFree loc = true) (hne : loc ≠ []) :
    Mirrors (t.put loc .directory) (t.put loc .directory) root loc (Reached []) := by
  refine ⟨h.ground, fun _ _ => rfl, fun rel hrel => ?_, fun rel hrel => ?_⟩
  · obtain rfl : rel = [] := by simpa [Reached] using hrel
    rw [List.append_nil, List.append_nil, h.ground.directory, h.groundRoot.directory]
  · have hrest : rel ≠ [] := by simpa [Reached] using hrel
    rw [node?_put_directory hfree hne, if_neg hrest]

/-- The sources alone: in the scratch directory stands the image of what stands below the root. -/
theorem Spec.mirrors_of_stageSources {spec : Spec} (hspec : spec.StaysInside)
    (hpaths : spec.build.sources.paths ≠ []) {sourceRoot : Path} {host : Host} {w w' : World}
    {root loc : Location} (h : spec.Stageable host w sourceRoot root)
    (hs : spec.stageSources sourceRoot host w = (.ok loc, w')) :
    spec.StartsFrom (w.files.put loc .directory) root loc ∧
      Mirrors (w.files.put loc .directory) w'.files root loc (Reached spec.places) := by
  obtain ⟨n, hthere, rfl, hfree, hcopied⟩ := h.stageSources_eq_ok hs
  have hstart := h.startsFrom hspec hpaths (fun place hplace => ?_) hfree
  · have hempty := hstart.mirrors hfree (by simp [Act.scratchPlace])
    have hall := mirrors_copySources hstart.groundRoot (fun path hpath =>
      ⟨hspec path hpath, hstart.sources _ (List.mem_map_of_mem hpath)⟩) hempty hcopied
    exact ⟨hstart, hall⟩
  · obtain ⟨path, hpath, rfl⟩ := List.mem_map.mp hplace
    exact h.exists_node hspec hpath (hthere path hpath)

/-- The files for the engine are written where nothing or a file stood. -/
theorem StagedContext.Filled.old {context : StagedContext} {spec : Spec} {cwd : Location}
    {sources t : FileTree} (h : context.Filled spec cwd sources t)
    (hground : sources.Ground context.location) {name : String}
    (hname : name ∈ [Dockerfile.fileName, ignoreFileName]) {node : Node}
    (hnode : sources.node? (context.location ++ [name]) = some node) :
    ∃ bytes, node = .file bytes := by
  obtain ⟨marked, hfirst, hsecond⟩ := h.written
  obtain ⟨hold, hput, hmark⟩ := hground.write_eq_ok (by decide) hfirst
  obtain ⟨hold', -⟩ := hmark.write_eq_ok (by decide) hsecond
  rw [List.mem_cons, List.mem_singleton] at hname
  rcases hname with rfl | rfl
  · exact hold node hnode
  · refine hold' node ?_
    rw [hput, node?_put_of_ne _ (by simp [Dockerfile.fileName, ignoreFileName]), hnode]

end TwoStage

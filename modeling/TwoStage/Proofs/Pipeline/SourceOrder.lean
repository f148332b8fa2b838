import TwoStage.Proofs.FileTree.Fitting
import TwoStage.Proofs.Pipeline.Declared

/-!
# The order of the declared paths

Whatever the order in which paths are declared, and how often, what staging yields is the same. But
it does not yield anything for all orders and repetitions: a directory is copied only to a place
that no earlier path has reached, while a file is copied also over itself. So all orders and
repetitions are staged exactly where all declared paths are files.

## Main definitions

- `Spec.withPaths`, `Spec.Restates` — the same specification with its paths stated otherwise
- `Spec.Fits` — no path of staging is too long
- `Spec.OnlyFiles` — all declared paths are files, and none is in the way of those for the engine

## Main statements

- `Spec.exists_contextFiles` — staging yields a context where all declared paths are files
- `Spec.orderless_iff` — when order and repetition make no difference
-/

namespace TwoStage

open FileTree StagedContext SourceInput

/-- The same specification with other source paths. -/
def Spec.withPaths (spec : Spec) (paths : List String) : Spec :=
  { spec with build := { spec.build with sources := { spec.build.sources with paths } } }

/-- The same paths in some order, each of them once or more often. -/
def Spec.Restates (spec : Spec) (paths : List String) : Prop :=
  ∀ path, path ∈ paths ↔ path ∈ spec.build.sources.paths

/-- The paths of the sources, seen from the root and from the context, and those of the files for
the engine are not too long. -/
structure Spec.Fits (spec : Spec) (root loc : Location) : Prop where
  sources : ∀ place ∈ spec.places, Walkable (root ++ place) ∧ Walkable (loc ++ place)
  dockerfile : Walkable (loc ++ [Dockerfile.fileName])
  ignoreFile : Walkable (loc ++ [ignoreFileName])

/-- All declared paths are files, and none leads through a directory with the name of one of the
files for the engine, or is such a file. -/
def Spec.OnlyFiles (spec : Spec) (t : FileTree) (root : Location) : Prop :=
  ∀ place ∈ spec.places, (∃ bytes, t.node? (root ++ place) = some (.file bytes)) ∧
    place.head? ≠ some Dockerfile.fileName ∧ place.head? ≠ some ignoreFileName

/-- Every declared path leads to something, none is a file for the engine, and none is too long. -/
structure Spec.Ready (spec : Spec) (host : Host) (w : World) (root : Location) : Prop where
  there : ∀ place ∈ spec.places, ∃ node, w.files.node? (root ++ place) = some node
  unreserved : ∀ place ∈ spec.places, place ≠ [Dockerfile.fileName] ∧ place ≠ [ignoreFileName]
  fits : ∀ loc, (Act.makeScratch "lspib-context-" host w).1 = .ok loc → spec.Fits root loc

/-- However the paths are stated, staging yields a context, with one digest and the same files but
for those that are written for the engine. -/
def Spec.Orderless (spec : Spec) (sourceRoot : Path) (host : Host) (w : World) : Prop :=
  ∃ (digest : String) (files : List String → Option ByteArray),
    ∀ paths, spec.Restates paths → ∃ context t,
      ((spec.withPaths paths).contextFiles sourceRoot host w).1 = .ok (context, t) ∧
      context.sourceDigest = digest ∧
      ∀ rel, rel ≠ [Dockerfile.fileName] → rel ≠ [ignoreFileName] →
        t.file? (context.location ++ rel) = files rel

-- ════════════════════════════════════════════════════════════════════════
-- Copies of files
-- ════════════════════════════════════════════════════════════════════════

section

variable {t₀ : FileTree} {root loc : Location} {host : Host}

/-- A file is copied, also where it stands already. -/
theorem StagedContext.exists_copySource {reached : List String → Prop} {place : List String}
    {w : World} (h : Mirrors t₀ w.files root loc reached) (hroot : t₀.Ground root)
    (hs : IsSource t₀ root loc skippedNames place) {bytes : ByteArray}
    (hfile : t₀.node? (root ++ place) = some (.file bytes))
    (hfits : Walkable (root ++ place) ∧ Walkable (loc ++ place)) :
    ∃ w', copySource (Path.ofLocation (root ++ place)) (Path.ofLocation (loc ++ place)) host w =
      (.ok (), w') := by
  have hnames := hs.isName hroot.sound
  have hclear : ClearWay w.files loc place.dropLast := by
    intro above habove node hnode
    by_cases hreached : reached above
    · rw [h.same above hreached, hs.way hroot.sound habove] at hnode
      exact (Option.some.inj hnode).symm
    · rw [h.beyond above hreached] at hnode
      cases hnode
  have hshort : Walkable (loc ++ place.dropLast) :=
    hfits.2.above ((List.prefix_append_right_inj loc).mpr (List.dropLast_prefix place))
  obtain ⟨made, hmade⟩ : ∃ made, w.files.makeDirectoriesPartly host.cwd
      (Path.ofLocation (loc ++ place.dropLast)) = (made, none) :=
    h.ground.exists_makeDirectories (isName_dropLast hnames) hclear hshort
  obtain ⟨hlaid, hstart⟩ := h.makeDirectories hroot hs hmade
  have hsource : made.node? (root ++ place) = some (.file bytes) := by
    rw [hstart.outside _ hs.apart, hfile]
  have hold : ∀ node, made.node? (loc ++ place) = some node → ∃ bytes, node = .file bytes := by
    intro node hnode
    by_cases hreached : reached place ∨ place <+: place.dropLast
    · rw [hstart.same place hreached, hfile] at hnode
      exact ⟨bytes, (Option.some.inj hnode).symm⟩
    · rw [hstart.beyond place hreached] at hnode
      cases hnode
  obtain ⟨copied, hcopied⟩ : ∃ copied, made.write [] (Path.ofLocation (loc ++ place)) bytes =
      .ok copied := by
    have hend : loc ++ place = loc ++ place.dropLast ++ [place.getLast hs.ne] := by
      rw [List.append_assoc, List.dropLast_append_getLast hs.ne]
    have hwalkable := hfits.2
    rw [hend] at hold hwalkable ⊢
    exact hstart.ground.sound.exists_write hlaid.directory (hnames _ (List.getLast_mem hs.ne)) hold
      hwalkable bytes
  refine ⟨{ w with files := copied }, ?_⟩
  have hasked : made.isDirectory? host.cwd (Path.ofLocation (root ++ place)) = .ok false :=
    hstart.ground.sound.isDirectory?_of_file hsource hfits.1
  have hread : made.read [] (Path.ofLocation (root ++ place)) = .ok bytes :=
    hstart.ground.sound.read_of_file hsource hfits.1
  have hmakes : Act.makeDirectories (Path.ofLocation (loc ++ place.dropLast)) host w =
      (.ok (), { w with files := made }) := Act.changeFilesPartly_of_ok hmade
  rw [copySource, Path.parent_ofLocation hs.ne, Act.bind_of_ok hmakes,
    Act.bind_of_ok (Act.ask_of_ok hasked), if_neg Bool.false_ne_true]
  refine Act.changeFiles_of_ok (w := { w with files := made }) ?_
  rw [FileTree.copyFile, hread]
  exact hcopied

/-- Files are copied one after the other, in any order and however often. -/
theorem StagedContext.exists_copySources (hroot : t₀.Ground root) {paths : List String}
    (hpaths : ∀ path ∈ paths, SourceInput.staysInside path = true ∧
      IsSource t₀ root loc skippedNames (placeOf path) ∧
      (∃ bytes, t₀.node? (root ++ placeOf path) = some (.file bytes)) ∧
      Walkable (root ++ placeOf path) ∧ Walkable (loc ++ placeOf path))
    {done : List (List String)} {w : World} (h : Mirrors t₀ w.files root loc (Reached done)) :
    ∃ w', copySources root loc (paths.map (pathUnder root)) host w = (.ok (), w') := by
  induction paths generalizing done w with
  | nil => exact ⟨w, rfl⟩
  | cons path paths ih =>
    obtain ⟨hinside, hs, ⟨bytes, hfile⟩, hfits⟩ := hpaths path List.mem_cons_self
    obtain ⟨w₁, hfirst⟩ : ∃ w₁, copySource (Path.ofLocation (root ++ placeOf path))
        (Path.ofLocation (loc ++ placeOf path)) host w = (.ok (), w₁) :=
      exists_copySource h hroot hs hfile hfits
    have hnext := mirrors_copySource h hroot hs
      (fun rest hreached => hreached.above (List.prefix_append _ rest)) hfirst
    obtain ⟨w', hrest⟩ := ih (fun other hother => hpaths other (List.mem_cons_of_mem _ hother))
      (hnext.congr fun rel => reached_append_iff.symm)
    refine ⟨w', ?_⟩
    rw [List.map_cons, copySources, drop_pathUnder root hinside, pathUnder_eq root hinside,
      Act.bind_of_ok hfirst]
    exact hrest

end

-- ════════════════════════════════════════════════════════════════════════
-- Staging files
-- ════════════════════════════════════════════════════════════════════════

/-- A context can be filled where nothing but files is in the way of those for the engine, and the
environment variables can be written. -/
theorem StagedContext.exists_fill {spec : Spec} (hwritable : spec.build.env.isWritable = true)
    {root loc : Location} {sources : List Path}
    {host : Host} {w staged : World}
    (hcopied : copySources root loc sources host w = (.ok (), staged))
    (hground : staged.files.Ground loc)
    (hold : ∀ name ∈ [Dockerfile.fileName, ignoreFileName], ∀ node,
      staged.files.node? (loc ++ [name]) = some node → ∃ bytes, node = .file bytes)
    (hfirst : Walkable (loc ++ [Dockerfile.fileName]))
    (hsecond : Walkable (loc ++ [ignoreFileName])) :
    ∃ context w', fill spec root loc sources host w = (.ok context, w') := by
  have hnames : ∀ name ∈ [Dockerfile.fileName], IsName name := by decide
  obtain ⟨marked, hmarked⟩ : ∃ marked, staged.files.write host.cwd
      ((Path.ofLocation loc).child Dockerfile.fileName)
      (utf8Bytes (Dockerfile.text (Dockerfile.twoStage spec))) = .ok marked :=
    hground.sound.exists_write hground.directory (by decide) (hold _ (by simp)) hfirst _
  obtain ⟨-, hput, hmark⟩ := hground.write_eq_ok hnames hmarked
  have hsame : marked.node? (loc ++ [ignoreFileName]) =
      staged.files.node? (loc ++ [ignoreFileName]) := by
    rw [hput, node?_put_of_ne _ (by simp [Dockerfile.fileName, ignoreFileName])]
  obtain ⟨filled, hfilled⟩ : ∃ filled, marked.write host.cwd
      ((Path.ofLocation loc).child ignoreFileName) (utf8Bytes ignoreText) = .ok filled :=
    hmark.sound.exists_write hmark.directory (by decide)
      (fun node hnode => hold _ (by simp) node (hsame ▸ hnode)) hsecond _
  have hwriteFirst : Act.writeText ((Path.ofLocation loc).child Dockerfile.fileName)
      (Dockerfile.text (Dockerfile.twoStage spec)) host staged =
        (.ok (), { staged with files := marked }) := Act.changeFiles_of_ok hmarked
  have hwriteSecond : Act.writeText ((Path.ofLocation loc).child ignoreFileName) ignoreText host
      { staged with files := marked } = (.ok (), { staged with files := filled }) :=
    Act.changeFiles_of_ok hfilled
  obtain ⟨records, hreport⟩ := Act.report_apply (.plain .info "package.context"
    ("staged build context " ++ (Path.ofLocation loc).text ++ " (sources sha256:" ++
      staged.files.digest loc ++ ")")) host { staged with files := filled }
  refine ⟨⟨loc, staged.files.digest loc⟩, { staged with files := filled, records }, ?_⟩
  have hworld : Act.world host staged = (.ok staged, staged) := rfl
  have hrender : Act.ofExcept ((Dockerfile.render spec).mapError .config) host staged =
      (.ok (Dockerfile.text (Dockerfile.twoStage spec)), staged) := by
    rw [Dockerfile.render, if_pos hwritable]
    rfl
  rw [fill, Act.bind_of_ok hcopied, Act.bind_of_ok hworld, Act.bind_of_ok hrender,
    StagedContext.root, Act.bind_of_ok hwriteFirst, Act.bind_of_ok hwriteSecond,
    Act.bind_of_ok hreport]
  rfl

/-- The sources are located where each of the declared paths leads to something. -/
theorem SourceInput.locate_of_exists {input : SourceInput} {root : Location} {host : Host}
    {w : World} (h : ∀ path ∈ input.paths,
      w.files.exists? host.cwd (pathUnder root path) = .ok true) :
    input.locate root host w = (.ok (input.paths.map (pathUnder root)), w) := by
  have hsift : ∀ paths, (∀ path ∈ paths, w.files.exists? host.cwd (pathUnder root path) = .ok true) →
      sift root paths host w = (.ok (paths, []), w) := by
    intro paths hpaths
    induction paths with
    | nil => rfl
    | cons path paths ih =>
      obtain ⟨hpath, hrest⟩ := List.forall_mem_cons.mp hpaths
      rw [sift, Act.bind_of_ok (Act.ask_of_ok hpath), Act.bind_of_ok (ih hrest)]
      rfl
  rw [locate, Act.bind_of_ok (hsift _ h)]
  rfl

theorem head?_of_reached {places : List (List String)} (hne : ∀ place ∈ places, place ≠ [])
    {name : String} (h : Reached places [name]) : ∃ place ∈ places, place.head? = some name := by
  rcases h with h | ⟨place, hplace, ⟨rest, rfl⟩ | ⟨rest, -, heq⟩⟩
  · cases h
  · exact ⟨_, hplace, rfl⟩
  · refine ⟨place, hplace, ?_⟩
    have hpos := hne place hplace
    cases place with
    | nil => exact absurd rfl hpos
    | cons first more =>
      rw [List.cons_append, List.cons.injEq] at heq
      rw [List.head?_cons, heq.1]

/-- Staging yields a context where all declared paths are files and the environment variables can be
written. -/
theorem Spec.exists_contextFiles {spec : Spec} (hspec : spec.StaysInside)
    (hpaths : spec.build.sources.paths ≠ []) (hwritable : spec.build.env.isWritable = true)
    {sourceRoot : Path} {host : Host} {w : World} {root : Location}
    (h : spec.Stageable host w sourceRoot root)
    (honly : spec.OnlyFiles w.files root)
    (hfits : ∀ loc, (Act.makeScratch "lspib-context-" host w).1 = .ok loc → spec.Fits root loc) :
    ∃ made, (spec.contextFiles sourceRoot host w).1 = .ok made := by
  obtain ⟨n, hfree, hmake⟩ := Act.makeScratch_apply "lspib-context-" host w
  have hroom := hfits _ (congrArg Prod.fst hmake)
  have hthere : ∀ place ∈ spec.places, ∃ node, w.files.node? (root ++ place) = some node := by
    intro place hplace
    obtain ⟨bytes, hfile⟩ := (honly place hplace).1
    exact ⟨_, hfile⟩
  have hstart := h.startsFrom hspec hpaths hthere hfree
  have hempty := hstart.mirrors hfree (by simp [Act.scratchPlace])
  generalize Act.scratchPlace host "lspib-context-" n = loc at hmake hroom hfree hstart hempty
  have hlocated : spec.build.sources.locate root host w =
      (.ok (spec.build.sources.paths.map (pathUnder root)), w) := by
    refine locate_of_exists fun path hpath => ?_
    obtain ⟨bytes, hfile⟩ := (honly _ (List.mem_map_of_mem hpath)).1
    rw [pathUnder_eq root (hspec path hpath)]
    exact h.sound.files.exists?_eq hfile (by simp) (hroom.sources _ (List.mem_map_of_mem hpath)).1
  have hsources : ∀ path ∈ spec.build.sources.paths, staysInside path = true ∧
      IsSource (w.files.put loc .directory) root loc skippedNames (placeOf path) ∧
      (∃ bytes, (w.files.put loc .directory).node? (root ++ placeOf path) = some (.file bytes)) ∧
      Walkable (root ++ placeOf path) ∧ Walkable (loc ++ placeOf path) := by
    intro path hpath
    have hplace := List.mem_map_of_mem (f := placeOf) hpath
    have hs := hstart.sources _ hplace
    obtain ⟨bytes, hfile⟩ := (honly _ hplace).1
    refine ⟨hspec path hpath, hs, ⟨bytes, ?_⟩, hroom.sources _ hplace⟩
    rw [node?_put_of_ne _ hs.ne_loc, hfile]
  obtain ⟨staged, hcopied⟩ : ∃ staged, copySources root loc
      (spec.build.sources.paths.map (pathUnder root)) host
      { w with files := w.files.put loc .directory, scratchCount := n + 1 } = (.ok (), staged) :=
    exists_copySources hstart.groundRoot hsources hempty
  have hmirror := mirrors_copySources hstart.groundRoot
    (fun path hpath => ⟨(hsources path hpath).1, (hsources path hpath).2.1⟩) hempty hcopied
  have hreserved : ∀ name ∈ [Dockerfile.fileName, ignoreFileName],
      staged.files.node? (loc ++ [name]) = none := by
    intro name hname
    refine hmirror.beyond [name] fun hreached => ?_
    obtain ⟨place, hplace, hhead⟩ :=
      head?_of_reached (fun place hplace => (hstart.sources place hplace).ne) hreached
    rw [List.mem_cons, List.mem_singleton] at hname
    rcases hname with rfl | rfl
    · exact (honly place hplace).2.1 hhead
    · exact (honly place hplace).2.2 hhead
  obtain ⟨context, filled, hfilled⟩ := exists_fill hwritable hcopied hmirror.ground
    (fun name hname node hnode => by rw [hreserved name hname] at hnode; cases hnode)
    hroom.dockerfile hroom.ignoreFile
  exact ⟨(context, filled.files), contextFiles_eq_ok_iff.mpr
    ⟨filled, stage_of_fill h.resolves hlocated hmake hfilled, rfl⟩⟩

-- ════════════════════════════════════════════════════════════════════════
-- Restated paths
-- ════════════════════════════════════════════════════════════════════════

section

variable {spec : Spec} {paths : List String} (hsame : spec.Restates paths)

include hsame

theorem Spec.Restates.mem_places_iff {place : List String} :
    place ∈ (spec.withPaths paths).places ↔ place ∈ spec.places := by
  simp only [places, withPaths, List.mem_map, hsame _]

theorem Spec.Restates.staysInside (hspec : spec.StaysInside) :
    (spec.withPaths paths).StaysInside := fun path hpath => hspec path ((hsame path).mp hpath)

theorem Spec.Restates.ne_nil (hpaths : spec.build.sources.paths ≠ []) : paths ≠ [] := by
  obtain ⟨path, hpath⟩ := List.exists_mem_of_ne_nil _ hpaths
  exact List.ne_nil_of_mem ((hsame path).mpr hpath)

theorem Spec.Restates.stageable {host : Host} {w : World} {sourceRoot : Path} {root : Location}
    (h : spec.Stageable host w sourceRoot root) :
    (spec.withPaths paths).Stageable host w sourceRoot root :=
  { h with aside := fun place hplace => h.aside place (hsame.mem_places_iff.mp hplace) }

/-- The declared files do not depend on how the paths are stated. -/
theorem Spec.Restates.declares_eq (t : FileTree) (root : Location) :
    (spec.withPaths paths).build.sources.Declares t root =
      spec.build.sources.Declares t root := by
  funext rel bytes
  refine propext ⟨?_, ?_⟩
  · rintro (⟨hpath, hfile⟩ | ⟨hpath, hdirectory, hkept, hfile⟩)
    · exact .file ((hsame _).mp hpath) hfile
    · exact .below ((hsame _).mp hpath) hdirectory hkept hfile
  · rintro (⟨hpath, hfile⟩ | ⟨hpath, hdirectory, hkept, hfile⟩)
    · exact .file ((hsame _).mpr hpath) hfile
    · exact .below ((hsame _).mpr hpath) hdirectory hkept hfile

end

-- ════════════════════════════════════════════════════════════════════════
-- Where staging yields nothing
-- ════════════════════════════════════════════════════════════════════════

section

variable {spec : Spec} (hspec : spec.StaysInside) {sourceRoot : Path} {host : Host} {w : World}
  {root : Location} (h : spec.Stageable host w sourceRoot root) {context : StagedContext}
  {t : FileTree} (hyield : (spec.contextFiles sourceRoot host w).1 = .ok (context, t))

include hspec h hyield

/-- No directory is staged twice. -/
theorem Spec.not_directory_of_repeated {path : String} {rest : List String}
    (hpaths : spec.build.sources.paths = path :: path :: rest) :
    w.files.node? (root ++ placeOf path) ≠ some .directory := by
  intro hdirectory
  obtain ⟨w', hstage, -⟩ := contextFiles_eq_ok_iff.mp hyield
  obtain ⟨-, staged, hsources, -⟩ := stage_eq_ok hspec h.sound.grounded hstage
  have hne : spec.build.sources.paths ≠ [] := by simp [hpaths]
  obtain ⟨hstart, -⟩ := mirrors_of_stageSources hspec hne h hsources
  obtain ⟨n, -, hloc, hfree, hcopied⟩ := h.stageSources_eq_ok hsources
  have hempty := hstart.mirrors hfree (by simp [hloc, Act.scratchPlace])
  have hpath : path ∈ spec.build.sources.paths := by simp [hpaths]
  have hs := hstart.sources _ (List.mem_map_of_mem hpath)
  have hthere : (w.files.put context.location .directory).node? (root ++ placeOf path) =
      some .directory := by
    rw [node?_put_of_ne _ hs.ne_loc, hdirectory]
  rw [hpaths, List.map_cons, List.map_cons, copySources] at hcopied
  obtain ⟨⟨⟩, w₁, hfirst, hcopied⟩ := Act.bind_eq_ok hcopied
  rw [copySources] at hcopied
  obtain ⟨⟨⟩, w₂, hsecond, -⟩ := Act.bind_eq_ok hcopied
  rw [drop_pathUnder root (hspec path hpath), pathUnder_eq root (hspec path hpath)]
    at hfirst hsecond
  have hnext := mirrors_copySource hempty hstart.groundRoot hs
    (fun more hreached => hreached.above (List.prefix_append _ more)) hfirst
  exact not_reached_of_copySource hnext hstart.groundRoot hs hthere hsecond
    (Or.inr (Or.inl (List.prefix_refl _)))

/-- No source leads through a directory with the name of a file for the engine. -/
theorem Spec.head?_ne_of_contextFiles (hpaths : spec.build.sources.paths ≠ [])
    {place : List String} (hplace : place ∈ spec.places) {name : String}
    (hname : name ∈ [Dockerfile.fileName, ignoreFileName]) (hne : place ≠ [name]) :
    place.head? ≠ some name := by
  intro hhead
  obtain ⟨w', hstage, -⟩ := contextFiles_eq_ok_iff.mp hyield
  obtain ⟨-, staged, hsources, hfilled⟩ := stage_eq_ok hspec h.sound.grounded hstage
  obtain ⟨hstart, hmirror⟩ := mirrors_of_stageSources hspec hpaths h hsources
  have hway : [name] <+: place.dropLast := by
    cases place with
    | nil => cases hhead
    | cons first more =>
      cases hhead
      cases more with
      | nil => exact absurd rfl hne
      | cons next more => exact ⟨(next :: more).dropLast, rfl⟩
  have hreached : Reached spec.places [name] :=
    Or.inr ⟨place, hplace, Or.inl (hway.trans (List.dropLast_prefix place))⟩
  have hdirectory := hmirror.same [name] hreached
  rw [(hstart.sources place hplace).way hstart.groundRoot.sound hway] at hdirectory
  obtain ⟨bytes, hbytes⟩ := hfilled.old hmirror.ground hname hdirectory
  cases hbytes

end

-- ════════════════════════════════════════════════════════════════════════
-- When order and repetition make no difference
-- ════════════════════════════════════════════════════════════════════════

/-- The environment variables of what is staged can be written. -/
theorem Spec.isWritable_of_contextFiles {spec : Spec} (hspec : spec.StaysInside)
    {sourceRoot : Path} {host : Host} {w : World} (hw : w.Grounded host) {context : StagedContext}
    {t : FileTree} (h : (spec.contextFiles sourceRoot host w).1 = .ok (context, t)) :
    spec.build.env.isWritable = true := by
  obtain ⟨w', hstage, -⟩ := contextFiles_eq_ok_iff.mp h
  obtain ⟨-, staged, -, hfilled⟩ := stage_eq_ok hspec hw hstage
  exact hfilled.writable

/-- Where all statements of the paths are staged, all of them are files. -/
theorem Spec.onlyFiles_of_yields {spec : Spec} (hspec : spec.Accepted) {sourceRoot : Path}
    {host : Host} {w : World} {root : Location} (h : spec.Stageable host w sourceRoot root)
    (hready : spec.Ready host w root)
    (hyields : ∀ paths, spec.Restates paths → ∃ context t,
      ((spec.withPaths paths).contextFiles sourceRoot host w).1 = .ok (context, t)) :
    spec.OnlyFiles w.files root := by
  have hself : spec.Restates spec.build.sources.paths := fun _ => Iff.rfl
  obtain ⟨context, t, hyield⟩ := hyields _ hself
  intro place hplace
  refine ⟨?_, head?_ne_of_contextFiles hspec.staysInside h hyield hspec.paths_ne_nil hplace
    (by simp) (hready.unreserved place hplace).1, head?_ne_of_contextFiles hspec.staysInside h
    hyield hspec.paths_ne_nil hplace (by simp) (hready.unreserved place hplace).2⟩
  obtain ⟨node, hnode⟩ := hready.there place hplace
  cases node with
  | file bytes => exact ⟨bytes, hnode⟩
  | link target => exact absurd hnode (h.linkless place target)
  | directory =>
    -- a directory that is stated twice is not staged
    obtain ⟨path, hpath, rfl⟩ := List.mem_map.mp hplace
    have hrepeated : spec.Restates (path :: path :: spec.build.sources.paths) := by
      intro other
      rw [List.mem_cons, List.mem_cons]
      exact ⟨fun hother => hother.elim (· ▸ hpath) (·.elim (· ▸ hpath) id),
        fun hother => Or.inr (Or.inr hother)⟩
    obtain ⟨context', t', hyield'⟩ := hyields _ hrepeated
    exact absurd hnode (not_directory_of_repeated (hrepeated.staysInside hspec.staysInside)
      (hrepeated.stageable h) hyield' rfl)

/-- However the paths are stated, what staging yields is the same. But it yields something for all
statements of the paths exactly where all of them are files; and nothing for any of them where the
number of attempts is too long to be written. -/
theorem Spec.orderless_iff {spec : Spec} (hspec : spec.Accepted) {sourceRoot : Path} {host : Host}
    {w : World} {root : Location} (h : spec.Stageable host w sourceRoot root) :
    (∀ paths paths' context context' t t', spec.Restates paths → spec.Restates paths' →
      ((spec.withPaths paths).contextFiles sourceRoot host w).1 = .ok (context, t) →
      ((spec.withPaths paths').contextFiles sourceRoot host w).1 = .ok (context', t') →
      context'.sourceDigest = context.sourceDigest ∧
        ∀ rel, rel ≠ [Dockerfile.fileName] → rel ≠ [ignoreFileName] →
          t'.file? (context'.location ++ rel) = t.file? (context.location ++ rel)) ∧
    (spec.Ready host w root →
      (spec.Orderless sourceRoot host w ↔
        spec.OnlyFiles w.files root ∧ spec.build.env.isWritable = true)) := by
  have hexact : ∀ paths, spec.Restates paths → ∀ context t,
      ((spec.withPaths paths).contextFiles sourceRoot host w).1 = .ok (context, t) →
      context.Exact t (spec.withPaths paths) (spec.build.sources.Declares w.files root) := by
    intro paths hsame context t hyield
    rw [← hsame.declares_eq]
    exact exact_of_contextFiles (hsame.staysInside hspec.staysInside)
      (hsame.ne_nil hspec.paths_ne_nil) (hsame.stageable h) hyield
  have hself : spec.Restates spec.build.sources.paths := fun _ => Iff.rfl
  constructor
  · intro paths paths' context context' t t' hsame hsame' hyield hyield'
    have hfirst := hexact paths hsame context t hyield
    have hsecond := hexact paths' hsame' context' t' hyield'
    exact ⟨hfirst.digest_eq hsecond fun _ _ => Iff.rfl,
      fun rel => hfirst.file?_eq hsecond fun _ _ => Iff.rfl⟩
  · intro hready
    constructor
    · rintro ⟨digest, files, hyields⟩
      refine ⟨onlyFiles_of_yields hspec h hready fun paths hsame => ?_, ?_⟩
      · obtain ⟨context, t, hyield, -⟩ := hyields paths hsame
        exact ⟨context, t, hyield⟩
      · obtain ⟨context, t, hyield, -⟩ := hyields _ hself
        exact isWritable_of_contextFiles hspec.staysInside h.sound.grounded hyield
    · rintro ⟨honly, hwritable⟩
      have hyields : ∀ paths, spec.Restates paths → ∃ context t,
          ((spec.withPaths paths).contextFiles sourceRoot host w).1 = .ok (context, t) := by
        intro paths hsame
        have hfits : ∀ loc, (Act.makeScratch "lspib-context-" host w).1 = .ok loc →
            (spec.withPaths paths).Fits root loc := fun loc hloc =>
          ⟨fun place hplace => (hready.fits loc hloc).sources place (hsame.mem_places_iff.mp hplace),
            (hready.fits loc hloc).dockerfile, (hready.fits loc hloc).ignoreFile⟩
        obtain ⟨⟨context, t⟩, hmade⟩ := exists_contextFiles (hsame.staysInside hspec.staysInside)
          (hsame.ne_nil hspec.paths_ne_nil) hwritable (hsame.stageable h)
          (fun place hplace => honly place (hsame.mem_places_iff.mp hplace)) hfits
        exact ⟨context, t, hmade⟩
      obtain ⟨context, t, hyield⟩ := hyields _ hself
      refine ⟨context.sourceDigest, fun rel => t.file? (context.location ++ rel),
        fun paths hsame => ?_⟩
      obtain ⟨context', t', hyield'⟩ := hyields paths hsame
      have hfirst := hexact _ hself context t hyield
      have hsecond := hexact paths hsame context' t' hyield'
      exact ⟨context', t', hyield', hfirst.digest_eq hsecond fun _ _ => Iff.rfl,
        fun rel => hfirst.file?_eq hsecond fun _ _ => Iff.rfl⟩

-- ════════════════════════════════════════════════════════════════════════
-- Files in any order, and a directory behind one of its files
-- ════════════════════════════════════════════════════════════════════════

/-- In the small worlds the first scratch directory is the one with the number zero. -/
theorem Spec.fits_of_walkable {spec : Spec} {reply : Command → Reply} {w : World} {root : Location}
    (hmake : (Act.makeScratch "lspib-context-" (.replying reply) w).1 =
      .ok ["tmp", "lspib-context-0"])
    (h : ∀ place ∈ spec.places,
      Walkable (root ++ place) ∧ Walkable (["tmp", "lspib-context-0"] ++ place)) (loc : Location)
    (hloc : (Act.makeScratch "lspib-context-" (.replying reply) w).1 = .ok loc) :
    spec.Fits root loc := by
  cases hmake.symm.trans hloc
  exact ⟨h, by decide, by decide⟩

theorem World.sound_stocked (reply : Command → Reply) : World.stocked.Sound (.replying reply) := by
  refine ⟨⟨by decide +kernel, ?_, by decide +kernel⟩, rfl, rfl⟩
  intro entry hentry
  fin_cases hentry <;> exact ⟨by simp, rfl⟩

/-- The stock sources are files here, so that their order makes no difference. -/
theorem Spec.orderless_standard :
    Spec.standard.Accepted ∧
    Spec.standard.Stageable (.replying fun _ => .quiet 0 none) World.stocked (.ofText ".") ["work"] ∧
    Spec.standard.Ready (.replying fun _ => .quiet 0 none) World.stocked ["work"] ∧
    Spec.standard.Orderless (.ofText ".") (.replying fun _ => .quiet 0 none) World.stocked := by
  have hstageable : Spec.standard.Stageable (.replying fun _ => .quiet 0 none) World.stocked
      (.ofText ".") ["work"] := by
    refine stageable_of_sound (World.sound_stocked _) fun entry hentry target => ?_
    fin_cases hentry <;> simp
  have hfiles : ∀ place ∈ Spec.standard.places,
      World.stocked.files.node? (["work"] ++ place) = some (.file .empty) := by
    intro place hplace
    fin_cases hplace <;> rfl
  have hready : Spec.standard.Ready (.replying fun _ => .quiet 0 none) World.stocked ["work"] :=
    ⟨fun place hplace => ⟨_, hfiles place hplace⟩, by decide +kernel,
      fits_of_walkable rfl (by decide +kernel)⟩
  have hheads : ∀ place ∈ Spec.standard.places, place.head? ≠ some Dockerfile.fileName ∧
      place.head? ≠ some ignoreFileName := by decide +kernel
  refine ⟨Spec.accepted_standard, hstageable, hready, ?_⟩
  exact ((orderless_iff Spec.accepted_standard hstageable).2 hready).mpr
    ⟨fun place hplace => ⟨⟨_, hfiles place hplace⟩, hheads place hplace⟩, rfl⟩

/-- A specification that states a file before the directory that holds it. -/
def nestedSpec : Spec := Spec.standard.withPaths ["src/main.rs", "src"]

/-- Such a directory is not staged, while it is when it is stated before the file. -/
theorem Spec.not_orderless_of_nested :
    nestedSpec.Accepted ∧
    nestedSpec.Stageable (.replying fun _ => .quiet 0 none) World.nested (.ofText ".") ["work"] ∧
    nestedSpec.Ready (.replying fun _ => .quiet 0 none) World.nested ["work"] ∧
    nestedSpec.Restates ["src", "src/main.rs"] ∧
    ((nestedSpec.withPaths ["src", "src/main.rs"]).contextFiles (.ofText ".")
      (.replying fun _ => .quiet 0 none) World.nested).1.isOk = true ∧
    (nestedSpec.contextFiles (.ofText ".")
      (.replying fun _ => .quiet 0 none) World.nested).1.isOk = false ∧
    ¬ nestedSpec.Orderless (.ofText ".") (.replying fun _ => .quiet 0 none) World.nested := by
  have haccepted : nestedSpec.Accepted :=
    Spec.accepted_of_parse
      (.obj [("build", .obj [("sources", .obj
        [("paths", .arr [.str "src/main.rs", .str "src"])])])])
      (by decide +kernel)
  have hready : nestedSpec.Ready (.replying fun _ => .quiet 0 none) World.nested ["work"] := by
    refine ⟨fun place hplace => ?_, by decide +kernel, fits_of_walkable rfl (by decide +kernel)⟩
    fin_cases hplace <;> exact ⟨_, rfl⟩
  have hfails : (nestedSpec.contextFiles (.ofText ".")
      (.replying fun _ => .quiet 0 none) World.nested).1.isOk = false := by decide +kernel
  refine ⟨haccepted, stageable_nested _ _, hready, ?_, by decide +kernel, hfails, ?_⟩
  · intro path
    simp [nestedSpec, withPaths, or_comm]
  · rintro ⟨digest, files, hyields⟩
    obtain ⟨context, t, hyield, -⟩ := hyields nestedSpec.build.sources.paths fun _ => Iff.rfl
    rw [show nestedSpec.withPaths nestedSpec.build.sources.paths = nestedSpec from rfl] at hyield
    rw [hyield] at hfails
    cases hfails

end TwoStage

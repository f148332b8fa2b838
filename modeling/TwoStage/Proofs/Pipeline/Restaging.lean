import TwoStage.Proofs.FileTree.Follow
import TwoStage.Proofs.Pipeline.Delivery
import TwoStage.Proofs.Pipeline.SourceOrder

/-!
# Staging again

Where all declared paths still show what they showed, staging that succeeded succeeds again, and
finds the same digest: the two stagings are followed step by step, and hold the same below their
scratch directories all the time. The scratch directories must be out of sight of the declared
paths, and the path of the second one no longer than that of the first one.

## Main definitions

- `FileTree.Alike` — trees that hold the same below the locations that are being filled
- `FileTree.SameSource` — paths that show the same, out of sight of what is filled

## Main statements

- `StagedContext.copySource_again`, `StagedContext.copySources_again` — sources are copied again
- `Spec.stage_again` — the sources are staged again, with the same digest
-/

namespace TwoStage

open FileTree StagedContext SourceInput

/-- Two trees in which locations are being filled, with the same nodes below these. -/
structure FileTree.Alike (t₀ t t₀' t' : FileTree) (loc loc' : Location) : Prop where
  first : t₀.FilledAt t loc
  second : t₀'.FilledAt t' loc'
  same : ∀ rel, t'.node? (loc' ++ rel) = t.node? (loc ++ rel)

/-- Paths in two trees that show the same, whatever is filled into two locations. -/
structure FileTree.SameSource (t₀ t₀' : FileTree) (loc loc' : Location) (path path' : List String) :
    Prop where
  still : t₀.StillShows t₀' skippedNames path path'
  hidden : t₀.OutOfSight loc skippedNames path
  hidden' : t₀'.OutOfSight loc' skippedNames path'

-- ════════════════════════════════════════════════════════════════════════
-- One copy
-- ════════════════════════════════════════════════════════════════════════

section

variable {t₀ : FileTree} {loc : Location} {path place : List String} {host : Host} {w w' : World}
  (h : t₀.FilledAt w.files loc) (hsight : t₀.OutOfSight loc skippedNames path)
  (hnames : ∀ name ∈ place, IsName name) (hne : place ≠ [])

include h hsight hnames hne

/-- A source that is copied is followed; a directory is copied to where nothing stands, a file also
over another one. -/
theorem StagedContext.follows_copySource
    (hc : copySource (Path.ofLocation path) (Path.ofLocation (loc ++ place)) host w =
      (.ok (), w')) :
    ∃ made, w.files.makeDirectoriesPartly host.cwd (Path.ofLocation (loc ++ place.dropLast)) =
        (made, none) ∧
      t₀.Follows w'.files skippedNames path (loc ++ place) ∧
      (∀ other, ¬ loc ++ place <+: other → w'.files.node? other = made.node? other) ∧
      (t₀.look path = some .directory → made.node? (loc ++ place) = none) ∧
      ∀ node, made.node? (loc ++ place) = some node → ∃ bytes, node = .file bytes := by
  obtain ⟨made, hmade, hcopying⟩ := copySource_eq_ok hne hc
  have hstart := h.makeDirectories hnames hmade
  have hshown : ∀ {node}, made.look path = some node → t₀.look path = some node := fun hlook =>
    shows_nil.mp ((hstart.shows_iff hsight).mp (shows_nil.mpr hlook))
  refine ⟨made, hmade, ?_⟩
  rcases hcopying with ⟨hasked, hcopied⟩ | ⟨hasked, hcopied⟩
  · have hcopied' := copyDirectory_eq_none hcopied
    have hgrown := hstart.ground.copyDirectoryFrom_grownAt _ hnames hcopied'
    have hlook := hshown (isDirectory?_eq_true_iff.mp hasked)
    refine ⟨.of_copyDirectoryFrom _ hstart hsight hnames hlook hcopied', hgrown.outside,
      fun _ => hgrown.free, fun node hnode => ?_⟩
    rw [hgrown.free] at hnode
    cases hnode
  · obtain ⟨hfollows, hbeside⟩ := Follows.of_copyFile hstart hsight hnames hcopied
    obtain ⟨bytes, hread, hold, -⟩ := hstart.ground.copyFile_eq_ok hnames hcopied
    refine ⟨hfollows, hbeside, fun hlook => ?_, hold⟩
    rw [hshown (read_eq_ok_iff_look.mp hread)] at hlook
    cases hlook

/-- A source is copied if all that it shows can be read and finds room. -/
theorem StagedContext.exists_copySource_of_opens {made : FileTree}
    (hmade : w.files.makeDirectoriesPartly host.cwd (Path.ofLocation (loc ++ place.dropLast)) =
      (made, none))
    (hopens : t₀.Opens path) (hreadable : t₀.Readable skippedNames path)
    (hroom : t₀.HasRoom skippedNames path (loc ++ place))
    (hfree : t₀.look path = some .directory → made.node? (loc ++ place) = none)
    (hold : ∀ node, made.node? (loc ++ place) = some node → ∃ bytes, node = .file bytes) :
    ∃ w', copySource (Path.ofLocation path) (Path.ofLocation (loc ++ place)) host w =
      (.ok (), w') := by
  have hstart := h.makeDirectories hnames hmade
  have hlaid := h.ground.makeDirectoriesPartly_eq_ok (isName_dropLast hnames) hmade
  have hmakes : Act.makeDirectories (Path.ofLocation (loc ++ place.dropLast)) host w =
      (.ok (), { w with files := made }) := Act.changeFilesPartly_of_ok hmade
  rcases hopens with hlook | ⟨bytes, hlook⟩
  · have hasked : made.isDirectory? host.cwd (Path.ofLocation path) = .ok true :=
      isDirectory?_eq_true_iff.mpr (hstart.extends.look hlook)
    obtain ⟨copied, hcopied⟩ := exists_copyDirectoryFrom (pathLimit / 2) hstart hsight hnames hne
      hlook hreadable hroom hlaid.directory (hfree hlook) (Nat.le_add_right _ _)
    refine ⟨{ w with files := copied }, ?_⟩
    rw [copySource, Path.parent_ofLocation hne, Act.bind_of_ok hmakes,
      Act.bind_of_ok (Act.ask_of_ok hasked), if_pos rfl]
    refine Act.changeFilesPartly_of_ok (w := { w with files := made }) ?_
    rw [copyDirectory, hcopied]
  · have hasked : made.isDirectory? host.cwd (Path.ofLocation path) = .ok false :=
      isDirectory?_of_look_file (hstart.extends.look hlook)
    have hwalkable := hroom [] _ (shows_nil.mpr hlook)
    have hend : loc ++ place = loc ++ place.dropLast ++ [place.getLast hne] := by
      rw [List.append_assoc, List.dropLast_append_getLast hne]
    obtain ⟨copied, hcopied⟩ : ∃ copied, made.write [] (Path.ofLocation (loc ++ place)) bytes =
        .ok copied := by
      rw [List.append_nil] at hwalkable
      rw [hend] at hold hwalkable ⊢
      exact hstart.ground.sound.exists_write hlaid.directory (hnames _ (List.getLast_mem hne)) hold
        hwalkable bytes
    refine ⟨{ w with files := copied }, ?_⟩
    rw [copySource, Path.parent_ofLocation hne, Act.bind_of_ok hmakes,
      Act.bind_of_ok (Act.ask_of_ok hasked), if_neg Bool.false_ne_true]
    refine Act.changeFiles_of_ok (w := { w with files := made }) ?_
    rw [FileTree.copyFile, read_eq_ok_iff_look.mpr (hstart.extends.look hlook)]
    exact hcopied

end

-- ════════════════════════════════════════════════════════════════════════
-- The same copy again
-- ════════════════════════════════════════════════════════════════════════

section

variable {t₀ t u t₀' t' u' : FileTree} {loc loc' : Location}

/-- The directories that were made are made again. -/
theorem FileTree.Alike.makeDirectories (h : Alike t₀ t t₀' t' loc loc') {cwd cwd' : Location}
    {place : List String} (hnames : ∀ name ∈ place, IsName name) {made : FileTree}
    (hmade : t.makeDirectoriesPartly cwd (Path.ofLocation (loc ++ place)) = (made, none))
    (hroom : Walkable (loc' ++ place)) :
    ∃ made', t'.makeDirectoriesPartly cwd' (Path.ofLocation (loc' ++ place)) = (made', none) ∧
      Alike t₀ made t₀' made' loc loc' := by
  have hlaid := h.first.ground.makeDirectoriesPartly_eq_ok hnames hmade
  have hextends := extends_makeDirectoriesPartly t cwd (Path.ofLocation (loc ++ place))
  rw [hmade] at hextends
  have hclear : ClearWay t' loc' place := by
    intro above habove node hnode
    rw [h.same] at hnode
    have hthere := hlaid.leads ((List.prefix_append_right_inj loc).mpr habove)
    rw [hextends _ node hnode] at hthere
    exact Option.some.inj hthere
  obtain ⟨made', hmade'⟩ : ∃ made',
      t'.makeDirectoriesPartly cwd' (Path.ofLocation (loc' ++ place)) = (made', none) :=
    h.second.ground.exists_makeDirectories hnames hclear hroom
  have hlaid' := h.second.ground.makeDirectoriesPartly_eq_ok hnames hmade'
  refine ⟨made', hmade', h.first.makeDirectoriesPartly hnames hmade,
    h.second.makeDirectoriesPartly hnames hmade', fun rel => ?_⟩
  by_cases hway : rel <+: place
  · rw [hlaid.leads ((List.prefix_append_right_inj loc).mpr hway),
      hlaid'.leads ((List.prefix_append_right_inj loc').mpr hway)]
  · rw [hlaid.elsewhere _ fun hbefore => hway ((List.prefix_append_right_inj loc).mp hbefore),
      hlaid'.elsewhere _ fun hbefore => hway ((List.prefix_append_right_inj loc').mp hbefore),
      h.same]

/-- Copies of paths that show the same hold the same. -/
theorem FileTree.Alike.copied (h : Alike t₀ t t₀' t' loc loc') {path path' place : List String}
    (hfollows : t₀.Follows u skippedNames path (loc ++ place))
    (hfollows' : t₀'.Follows u' skippedNames path' (loc' ++ place))
    (hshows : ∀ rest node, t₀'.Shows skippedNames path' rest node ↔
      t₀.Shows skippedNames path rest node)
    (hbeside : ∀ other, ¬ loc ++ place <+: other → u.node? other = t.node? other)
    (hbeside' : ∀ other, ¬ loc' ++ place <+: other → u'.node? other = t'.node? other)
    (rel : List String) : u'.node? (loc' ++ rel) = u.node? (loc ++ rel) := by
  by_cases hbelow : place <+: rel
  · obtain ⟨rest, rfl⟩ := hbelow
    ext node
    rw [← List.append_assoc, ← List.append_assoc, hfollows.same, hfollows'.same, hshows]
  · rw [hbeside _ fun hunder => hbelow ((List.prefix_append_right_inj loc).mp hunder),
      hbeside' _ fun hunder => hbelow ((List.prefix_append_right_inj loc').mp hunder), h.same]

end

section

variable {t₀ t₀' : FileTree} {root root' loc loc' : Location} {host host' : Host} {w w' u : World}

/-- A source that was copied is copied again. -/
theorem StagedContext.copySource_again (h : Alike t₀ w.files t₀' w'.files loc loc')
    (ht₀ : t₀.Sound) (hroom : ∀ rel, Walkable (loc ++ rel) → Walkable (loc' ++ rel))
    {path path' place : List String} (hs : SameSource t₀ t₀' loc loc' path path')
    (hnames : ∀ name ∈ place, IsName name) (hne : place ≠ [])
    (hc : copySource (Path.ofLocation path) (Path.ofLocation (loc ++ place)) host w =
      (.ok (), u)) :
    ∃ u', copySource (Path.ofLocation path') (Path.ofLocation (loc' ++ place)) host' w' =
        (.ok (), u') ∧ Alike t₀ u.files t₀' u'.files loc loc' := by
  obtain ⟨made, hmade, hfollows, hbeside, hfree, hold⟩ :=
    follows_copySource h.first hs.hidden hnames hne hc
  have hshows : ∀ rest node, t₀'.Shows skippedNames path' rest node ↔
      t₀.Shows skippedNames path rest node :=
    fun _ _ => hs.still.shows_iff hfollows.opens hfollows.readable
  obtain ⟨hopens', hreadable'⟩ := hs.still.readable ht₀ hfollows.opens hfollows.readable
  have hroom' : t₀'.HasRoom skippedNames path' (loc' ++ place) := by
    intro rest node hrest
    have hwalkable := hfollows.room rest node ((hshows rest node).mp hrest)
    rw [List.append_assoc] at hwalkable ⊢
    exact hroom _ hwalkable
  have hway : Walkable (loc' ++ place.dropLast) := by
    obtain ⟨node, hnode⟩ := hopens'.exists_look
    have hself := hroom' [] node (shows_nil.mpr hnode)
    rw [List.append_nil] at hself
    exact hself.above ((List.prefix_append_right_inj loc').mpr (List.dropLast_prefix place))
  obtain ⟨made', hmade', halike⟩ : ∃ made', w'.files.makeDirectoriesPartly host'.cwd
      (Path.ofLocation (loc' ++ place.dropLast)) = (made', none) ∧
        Alike t₀ made t₀' made' loc loc' :=
    h.makeDirectories (isName_dropLast hnames) hmade hway
  obtain ⟨u', hu'⟩ := exists_copySource_of_opens h.second hs.hidden' hnames hne hmade' hopens'
    hreadable' hroom'
    (fun hlook => by
      rw [halike.same]
      exact hfree (shows_nil.mp ((hshows [] _).mp (shows_nil.mpr hlook))))
    (fun node hnode => hold node (by rw [← halike.same, hnode]))
  obtain ⟨other, hother, hfollows', hbeside', -⟩ :=
    follows_copySource h.second hs.hidden' hnames hne hu'
  obtain rfl : made' = other := congrArg Prod.fst (hmade'.symm.trans hother)
  exact ⟨u', hu', filledAt_copySource h.first hnames hne hc,
    filledAt_copySource h.second hnames hne hu',
    halike.copied hfollows hfollows' hshows hbeside hbeside'⟩

/-- Sources that were copied one after the other are copied again. -/
theorem StagedContext.copySources_again {paths : List String}
    (hpaths : ∀ path ∈ paths, staysInside path = true ∧
      SameSource t₀ t₀' loc loc' (root ++ placeOf path) (root' ++ placeOf path))
    (ht₀ : t₀.Sound) (hroom : ∀ rel, Walkable (loc ++ rel) → Walkable (loc' ++ rel))
    (h : Alike t₀ w.files t₀' w'.files loc loc')
    (hc : copySources root loc (paths.map (pathUnder root)) host w = (.ok (), u)) :
    ∃ u', copySources root' loc' (paths.map (pathUnder root')) host' w' = (.ok (), u') ∧
      Alike t₀ u.files t₀' u'.files loc loc' := by
  induction paths generalizing w w' with
  | nil =>
    cases hc
    exact ⟨w', rfl, h⟩
  | cons path paths ih =>
    obtain ⟨hinside, hs⟩ := hpaths path List.mem_cons_self
    obtain ⟨⟨⟩, w₁, hfirst, hrest⟩ := Act.bind_eq_ok hc
    rw [drop_pathUnder root hinside, pathUnder_eq root hinside] at hfirst
    obtain ⟨w₁', hfirst', h₁⟩ : ∃ w₁', copySource (Path.ofLocation (root' ++ placeOf path))
        (Path.ofLocation (loc' ++ placeOf path)) host' w' = (.ok (), w₁') ∧
          Alike t₀ w₁.files t₀' w₁'.files loc loc' :=
      copySource_again h ht₀ hroom hs (isName_placeOf hinside) (placeOf_ne_nil hinside) hfirst
    obtain ⟨u', hrest', hu'⟩ :=
      ih (fun other hother => hpaths other (List.mem_cons_of_mem _ hother)) h₁ hrest
    refine ⟨u', ?_, hu'⟩
    rw [List.map_cons, copySources, drop_pathUnder root' hinside, pathUnder_eq root' hinside,
      Act.bind_of_ok hfirst']
    exact hrest'

end

-- ════════════════════════════════════════════════════════════════════════
-- The same staging again
-- ════════════════════════════════════════════════════════════════════════

/-- Locations below which the same stands have the same digest. -/
theorem FileTree.Alike.digest_eq {t₀ t t₀' t' : FileTree} {loc loc' : Location}
    (h : Alike t₀ t t₀' t' loc loc') : t'.digest loc' = t.digest loc := by
  have hlists := h.first.ground.sound.lists h.first.ground.directory
  have hlists' := h.second.ground.sound.lists h.second.ground.directory
  rw [digest, digest, hlists'.unique hlists fun rel bytes => by rw [h.same]]

/-- Names that find room below one scratch directory find room below another one, if its path is no
longer. -/
theorem Act.walkable_scratchPlace {host host' : Host} (hscratch : host'.scratch = host.scratch)
    {stem : String} (hstem : '\x00' ∉ stem.toList) {m n : Nat}
    (hshort : (Path.ofLocation (scratchPlace host' stem m)).text.utf8ByteSize ≤
      (Path.ofLocation (scratchPlace host stem n)).text.utf8ByteSize) {rel : List String}
    (h : Walkable (scratchPlace host stem n ++ rel)) :
    Walkable (scratchPlace host' stem m ++ rel) := by
  have hnull : '\x00' ∉ (stem ++ toString m).toList := by
    rw [mem_toList_append, not_or]
    exact ⟨hstem, not_mem_toString (by decide) m⟩
  rw [scratchPlace, hscratch, scratchPlace, Path.utf8ByteSize_text_ofLocation (by simp),
    Path.utf8ByteSize_text_ofLocation (by simp), bytesWith_append, bytesWith_append] at hshort
  simp only [bytesWith] at hshort
  rw [scratchPlace, List.append_assoc] at h ⊢
  rw [hscratch]
  exact h.replace hnull (by omega)

/-- The sources are staged in the scratch directory that is made next. -/
theorem Spec.makeScratch_of_stageSources {spec : Spec} {sourceRoot : Path} {host : Host}
    {w w' : World} {loc : Location} (h : spec.stageSources sourceRoot host w = (.ok loc, w')) :
    (Act.makeScratch "lspib-context-" host w).1 = .ok loc := by
  rw [stageSources] at h
  obtain ⟨root, w₁, hasked, hresolved⟩ := Act.bind_eq_ok h
  obtain ⟨rfl, -⟩ := Act.ask_eq_ok hasked
  obtain ⟨sources, w₂, hlocate, hlocated⟩ := Act.bind_eq_ok hresolved
  obtain rfl := SourceInput.world_of_locate hlocate
  obtain ⟨made, w₃, hmake, hmade⟩ := Act.bind_eq_ok hlocated
  obtain ⟨⟨⟩, w₄, -, hend⟩ := Act.bind_eq_ok hmade
  cases hend
  rw [hmake]

/-- The files for the engine that were written have paths that are not too long. -/
theorem StagedContext.Filled.walkable {context : StagedContext} {spec : Spec} {cwd : Location}
    {sources t : FileTree} (h : context.Filled spec cwd sources t)
    (hground : sources.Ground context.location) :
    Walkable (context.location ++ [Dockerfile.fileName]) ∧
      Walkable (context.location ++ [ignoreFileName]) := by
  obtain ⟨marked, hfirst, hsecond⟩ := h.written
  obtain ⟨-, -, hmark⟩ := hground.write_eq_ok (by decide) hfirst
  obtain ⟨-, ⟨_, hwalk, -⟩, -⟩ := write_eq_ok hfirst
  obtain ⟨-, ⟨_, hwalk', -⟩, -⟩ := write_eq_ok hsecond
  exact ⟨hground.walkable (by decide) hwalk, hmark.walkable (by decide) hwalk'⟩

/-- Sources that were found are found again where their paths show what they showed. -/
theorem SourceInput.locate_again {sources : SourceInput} {host host' : Host} {w w' : World}
    {root root' loc loc' : Location}
    (hpaths : ∀ path ∈ sources.paths, staysInside path = true ∧
      SameSource w.files w'.files loc loc' (root ++ placeOf path) (root' ++ placeOf path))
    (hthere : ∀ path ∈ sources.paths,
      w.files.exists? host.cwd (pathUnder root path) = .ok true) :
    sources.locate root' host' w' = (.ok (sources.paths.map (pathUnder root')), w') := by
  refine locate_of_exists fun path hpath => ?_
  obtain ⟨hinside, hsame⟩ := hpaths path hpath
  have hexists := hthere path hpath
  rw [pathUnder_eq root hinside] at hexists
  obtain ⟨node, hnode⟩ := exists?_eq_true_iff.mp hexists
  rw [pathUnder_eq root' hinside]
  exact exists?_eq_true_iff.mpr
    ⟨node, shows_nil.mp (hsame.still.shown [] node (shows_nil.mpr hnode))⟩

/-- The directories in which two stagings start are alike: nothing is below either. -/
theorem World.Sound.alike {host host' : Host} {w w' : World} (hw : w.Sound host)
    (hw' : w'.Sound host') {n n' : Nat}
    (hfree : w.files.isFree (Act.scratchPlace host "lspib-context-" n) = true)
    (hfree' : w'.files.isFree (Act.scratchPlace host' "lspib-context-" n') = true) :
    Alike w.files (w.files.put (Act.scratchPlace host "lspib-context-" n) .directory) w'.files
      (w'.files.put (Act.scratchPlace host' "lspib-context-" n') .directory)
      (Act.scratchPlace host "lspib-context-" n) (Act.scratchPlace host' "lspib-context-" n') := by
  refine ⟨hw.filledAt hfree, hw'.filledAt hfree', fun rel => ?_⟩
  rw [node?_put_directory hfree' (by simp [Act.scratchPlace]),
    node?_put_directory hfree (by simp [Act.scratchPlace])]

/-- Staging that succeeded succeeds again where all declared paths show what they showed, and finds
the same digest. -/
theorem Spec.stage_again {spec : Spec} (hspec : spec.StaysInside) {sourceRoot sourceRoot' : Path}
    {host host' : Host} {w w' u : World} {root root' loc' : Location} {context : StagedContext}
    (hw : w.Sound host) (hw' : w'.Sound host')
    (hresolves : w.files.resolve host.cwd sourceRoot = .ok root)
    (hresolves' : w'.files.resolve host'.cwd sourceRoot' = .ok root')
    (hmake' : (Act.makeScratch "lspib-context-" host' w').1 = .ok loc')
    (hroom : ∀ rel, Walkable (context.location ++ rel) → Walkable (loc' ++ rel))
    (hsources : ∀ path ∈ spec.build.sources.paths, SameSource w.files w'.files context.location
      loc' (root ++ placeOf path) (root' ++ placeOf path))
    (hs : spec.stage sourceRoot host w = (.ok context, u)) :
    ∃ context' u', spec.stage sourceRoot' host' w' = (.ok context', u') ∧
      context'.sourceDigest = context.sourceDigest := by
  obtain ⟨-, staged, hstaged, hfilled⟩ := stage_eq_ok hspec hw.grounded hs
  obtain ⟨root₁, n, hresolved, hthere, hloc, hfree, hcopied⟩ := stageSources_eq_ok hstaged
  obtain rfl : root = root₁ := Except.ok.inj (hresolves.symm.trans hresolved)
  obtain ⟨n', hfree', hscratch⟩ := Act.makeScratch_apply "lspib-context-" host' w'
  rw [hscratch] at hmake'
  obtain rfl := Except.ok.inj hmake'
  have hpaths : ∀ path ∈ spec.build.sources.paths, staysInside path = true ∧
      SameSource w.files w'.files context.location (Act.scratchPlace host' "lspib-context-" n')
        (root ++ placeOf path) (root' ++ placeOf path) :=
    fun path hpath => ⟨hspec path hpath, hsources path hpath⟩
  have hlocated : spec.build.sources.locate root' host' w' =
      (.ok (spec.build.sources.paths.map (pathUnder root')), w') :=
    locate_again hpaths hthere
  have hstart : Alike w.files (w.files.put context.location .directory) w'.files
      (w'.files.put (Act.scratchPlace host' "lspib-context-" n') .directory) context.location
      (Act.scratchPlace host' "lspib-context-" n') := by
    rw [hloc] at hfree ⊢
    exact hw.alike hw' hfree hfree'
  obtain ⟨staged', hcopied', hend⟩ : ∃ staged', copySources root'
      (Act.scratchPlace host' "lspib-context-" n')
      (spec.build.sources.paths.map (pathUnder root')) host'
      { w' with
        files := w'.files.put (Act.scratchPlace host' "lspib-context-" n') .directory
        scratchCount := n' + 1 } = (.ok (), staged') ∧
      Alike w.files staged.files w'.files staged'.files context.location
        (Act.scratchPlace host' "lspib-context-" n') :=
    copySources_again hpaths hw.files hroom hstart hcopied
  obtain ⟨context', filled', hfilled'⟩ : ∃ context' filled', fill spec root'
      (Act.scratchPlace host' "lspib-context-" n')
      (spec.build.sources.paths.map (pathUnder root')) host'
      { w' with
        files := w'.files.put (Act.scratchPlace host' "lspib-context-" n') .directory
        scratchCount := n' + 1 } = (.ok context', filled') := by
    obtain ⟨hfirst, hsecond⟩ := hfilled.walkable hend.first.ground
    refine exists_fill hfilled.writable hcopied' hend.second.ground (fun name hname node hnode => ?_)
      (hroom _ hfirst) (hroom _ hsecond)
    rw [hend.same] at hnode
    exact hfilled.old hend.first.ground hname hnode
  refine ⟨context', filled', stage_of_fill hresolves' hlocated hscratch hfilled', ?_⟩
  obtain ⟨again, hagain, rfl, -⟩ := fill_eq_ok hfilled'
  cases hcopied'.symm.trans hagain
  rw [hfilled.digest]
  exact hend.digest_eq

end TwoStage

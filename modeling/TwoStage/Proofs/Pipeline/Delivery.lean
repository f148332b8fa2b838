import TwoStage.Proofs.FileTree.Filling
import TwoStage.Proofs.Pipeline.Promise
import TwoStage.Proofs.Pipeline.Record
import TwoStage.Proofs.Pipeline.SourceOrder

/-!
# What the engine receives

The digest of a context is taken before the files for the engine are written. These replace sources
of the same names, and nothing else does: what the engine receives is what was hashed exactly where
every declared path with such a name leads to a file with the very text that is written there.

## Main definitions

- `CopiedTo` — what stands at a name when some places are copied
- `Pipeline.Delivers` — the engine receives what was hashed
- `Spec.Foretells` — sources with the names of files for the engine have their texts

## Main statements

- `Spec.copied_of_stageSources` — what the sources leave at a name
- `Pipeline.exists_call` — the first call of a run
- `Pipeline.delivers_iff` — when the engine receives what was hashed
-/

namespace TwoStage

open FileTree StagedContext SourceInput

/-- What stands at a name below `loc` when some places are copied there from `root`: where it is one
of them, a copy of what it leads to; otherwise no file. -/
structure CopiedTo (t₀ : FileTree) (cwd root : Location) (name : String)
    (done : List (List String)) (t : FileTree) (loc : Location) : Prop where
  copied : [name] ∈ done → ∀ node,
    t₀.find? cwd (Path.ofLocation (root ++ [name])) = .ok (some node) →
    t.node? (loc ++ [name]) = some node
  spared : [name] ∉ done → ∀ bytes, t.node? (loc ++ [name]) ≠ some (.file bytes)

/-- The engine receives what was hashed: the first call of the run is the build of the context, and
in it all files stand of which the digest was taken, with the same bytes. -/
def Pipeline.Delivers (p : Pipeline) (host : Host) (w : World) (context : StagedContext) : Prop :=
  ∃ hashed call rest,
    p.spec.stageSources p.sourceRoot host w = (.ok context.location, hashed) ∧
    context.sourceDigest = hashed.files.digest context.location ∧
    (p.run .initial host w).2.calls = w.calls ++ call :: rest ∧
    (∃ idFile, call.command = .build ((p.builderOrder context).command context.root idFile)) ∧
    ∀ rel bytes, hashed.files.node? (context.location ++ rel) = some (.file bytes) →
      call.files.node? (context.location ++ rel) = some (.file bytes)

/-- The files that are written for the engine, with their texts. -/
def Spec.engineFiles (spec : Spec) : List (String × String) :=
  [(Dockerfile.fileName, Dockerfile.text (Dockerfile.twoStage spec)), (ignoreFileName, ignoreText)]

/-- Every declared path with the name of a file for the engine leads to a file with its text. -/
def Spec.Foretells (spec : Spec) (t : FileTree) (cwd root : Location) : Prop :=
  ∀ path ∈ spec.build.sources.paths, ∀ file ∈ spec.engineFiles, placeOf path = [file.1] →
    t.read cwd (pathUnder root path) = .ok (utf8Bytes file.2)

-- ════════════════════════════════════════════════════════════════════════
-- One copy
-- ════════════════════════════════════════════════════════════════════════

/-- The components of a declared path are names. -/
theorem SourceInput.isName_placeOf {path : String} (h : staysInside path = true) :
    ∀ name ∈ placeOf path, IsName name := by
  intro name hname
  obtain ⟨hpiece, hcomponent⟩ := List.mem_filter.mp hname
  obtain ⟨piece, hsplit, rfl⟩ := List.mem_map.mp hpiece
  simp only [Path.isComponent, Bool.and_eq_true, decide_eq_true_eq] at hcomponent
  refine ⟨hcomponent.1, hcomponent.2, (plain_placeOf h _ hname).2, ?_⟩
  rw [String.toList_ofList]
  exact not_mem_of_mem_splitAtEach hsplit

section

variable {t₀ : FileTree} {loc : Location} {place : List String} {host : Host} {w w' : World}
  (h : t₀.FilledAt w.files loc) (hnames : ∀ name ∈ place, IsName name) (hne : place ≠ [])
  {source : Path}

include h hnames

/-- The directories for a copy are made in the location that is filled. -/
theorem FileTree.FilledAt.makeDirectories {cwd : Location} {made : FileTree}
    (hmade : w.files.makeDirectoriesPartly cwd (Path.ofLocation (loc ++ place.dropLast)) =
      (made, none)) : t₀.FilledAt made loc :=
  h.makeDirectoriesPartly (isName_dropLast hnames) hmade

include hne

/-- A copy fills the location further. -/
theorem StagedContext.filledAt_copySource
    (hc : copySource source (Path.ofLocation (loc ++ place)) host w = (.ok (), w')) :
    t₀.FilledAt w'.files loc := by
  obtain ⟨made, hmade, hcopying⟩ := copySource_eq_ok hne hc
  have hstart := h.makeDirectories hnames hmade
  rcases hcopying with ⟨-, hcopied⟩ | ⟨-, hcopied⟩
  · exact hstart.copyDirectoryFrom hnames (copyDirectory_eq_none hcopied)
  · exact hstart.copyFile hnames hcopied

/-- A copy shows at its place what the source leads to. -/
theorem StagedContext.node?_copySource
    (hc : copySource source (Path.ofLocation (loc ++ place)) host w = (.ok (), w'))
    (hsource : source.isAbsolute = true) {node : Node}
    (hfind : t₀.find? host.cwd source = .ok (some node)) :
    w'.files.node? (loc ++ place) = some node := by
  obtain ⟨made, hmade, hcopying⟩ := copySource_eq_ok hne hc
  have hstart := h.makeDirectories hnames hmade
  have hlater := hstart.extends.find? hfind
  rcases hcopying with ⟨hasked, hcopied⟩ | ⟨hasked, hcopied⟩
  · rw [isDirectory?, hlater] at hasked
    have hgrown := hstart.ground.copyDirectoryFrom_grownAt _ hnames (copyDirectory_eq_none hcopied)
    cases node with
    | directory => exact hgrown.directory
    | file bytes => cases hasked
    | link target => cases hasked
  · obtain ⟨bytes, hread, -, hput, -⟩ := hstart.ground.copyFile_eq_ok hnames hcopied
    -- an absolute path leads to the same from everywhere
    have hroot : made.find? [] source = made.find? host.cwd source := by
      simp only [FileTree.find?, FileTree.walk, hsource, if_true]
    rw [read_eq_ok_iff, hroot, hlater] at hread
    cases hread
    rw [hput, node?_put_self _ (by simp [hne])]

/-- A copy to another place leaves what stands at a name, or makes a directory there where no file
stood. -/
theorem StagedContext.node?_copySource_of_ne {name : String} (hother : place ≠ [name])
    (hc : copySource source (Path.ofLocation (loc ++ place)) host w = (.ok (), w')) :
    w'.files.node? (loc ++ [name]) = w.files.node? (loc ++ [name]) ∨
      w'.files.node? (loc ++ [name]) = some .directory ∧
        ∀ bytes, w.files.node? (loc ++ [name]) ≠ some (.file bytes) := by
  obtain ⟨made, hmade, hcopying⟩ := copySource_eq_ok hne hc
  have hstart := h.makeDirectories hnames hmade
  have hbeside : ¬ loc ++ place <+: loc ++ [name] := by
    rw [List.prefix_append_right_inj]
    intro hbefore
    rcases List.prefix_concat_iff.mp (show place <+: [] ++ [name] from hbefore) with heq | hnil
    · exact hother heq
    · exact hne (List.prefix_nil.mp hnil)
  have hlast : w'.files.node? (loc ++ [name]) = made.node? (loc ++ [name]) := by
    rcases hcopying with ⟨-, hcopied⟩ | ⟨-, hcopied⟩
    · exact (hstart.ground.copyDirectoryFrom_grownAt _ hnames
        (copyDirectory_eq_none hcopied)).outside _ hbeside
    · obtain ⟨bytes, -, -, hput, -⟩ := hstart.ground.copyFile_eq_ok hnames hcopied
      rw [hput]
      refine node?_put_of_ne _ fun heq => hbeside ?_
      exact heq ▸ List.prefix_refl _
  have hlaid := h.ground.makeDirectoriesPartly_eq_ok (isName_dropLast hnames) hmade
  rw [hlast]
  by_cases hway : loc ++ [name] <+: loc ++ place.dropLast
  · right
    refine ⟨hlaid.leads hway, ?_⟩
    intro bytes hfile
    have hsame := sameFiles_makeDirectoriesPartly w.files host.cwd
      (Path.ofLocation (loc ++ place.dropLast)) (loc ++ [name])
    rw [hmade, file?, file?, hfile, hlaid.leads hway] at hsame
    cases hsame
  · left
    exact hlaid.elsewhere _ hway

end

-- ════════════════════════════════════════════════════════════════════════
-- All copies
-- ════════════════════════════════════════════════════════════════════════

/-- One more place is copied. -/
theorem CopiedTo.copySource {t₀ : FileTree} {root loc : Location} {name : String}
    {done : List (List String)} {place : List String} {host : Host} {w w' : World}
    (hcopied : CopiedTo t₀ host.cwd root name done w.files loc) (h : t₀.FilledAt w.files loc)
    (hnames : ∀ part ∈ place, IsName part) (hne : place ≠ [])
    (hc : StagedContext.copySource (Path.ofLocation (root ++ place)) (Path.ofLocation (loc ++ place))
      host w = (.ok (), w')) :
    CopiedTo t₀ host.cwd root name (done ++ [place]) w'.files loc := by
  by_cases hplace : place = [name]
  · subst hplace
    refine ⟨fun _ node hnode => ?_, fun hspared => absurd (by simp) hspared⟩
    exact node?_copySource h hnames hne hc rfl hnode
  · have hmem : [name] ∈ done ++ [place] ↔ [name] ∈ done := by simp [Ne.symm hplace]
    have hstep := node?_copySource_of_ne h hnames hne hplace hc
    refine ⟨fun hdone node hnode => ?_, fun hspared bytes hfile => ?_⟩
    · have hthere := hcopied.copied (hmem.mp hdone) node hnode
      rcases hstep with hsame | ⟨hdirectory, hnofile⟩
      · rw [hsame, hthere]
      · cases node with
        | directory => exact hdirectory
        | file bytes => exact absurd hthere (hnofile bytes)
        | link target =>
          exact absurd hthere (h.ground.enclosed.linkless _ target (List.prefix_append loc _))
    · rcases hstep with hsame | ⟨hdirectory, -⟩
      · rw [hsame] at hfile
        exact hcopied.spared (fun hdone => hspared (hmem.mpr hdone)) bytes hfile
      · rw [hdirectory] at hfile
        cases hfile

/-- All places are copied, one after the other. -/
theorem CopiedTo.copySources {t₀ : FileTree} {root loc : Location} {name : String} {host : Host}
    {paths : List String} (hpaths : ∀ path ∈ paths, staysInside path = true)
    {done : List (List String)} {w w' : World}
    (hcopied : CopiedTo t₀ host.cwd root name done w.files loc) (h : t₀.FilledAt w.files loc)
    (hc : StagedContext.copySources root loc (paths.map (pathUnder root)) host w = (.ok (), w')) :
    CopiedTo t₀ host.cwd root name (done ++ paths.map placeOf) w'.files loc ∧
      t₀.FilledAt w'.files loc := by
  refine copySources_induction (fun copied w =>
      CopiedTo t₀ host.cwd root name (done ++ copied.map placeOf) w.files loc ∧
        t₀.FilledAt w.files loc) hpaths ?_ ⟨by rwa [List.map_nil, List.append_nil], h⟩ hc
  rintro copied path w w' hpath ⟨hcopied, h⟩ hfirst
  have hnames := isName_placeOf (hpaths path hpath)
  have hne := placeOf_ne_nil (hpaths path hpath)
  rw [List.map_append, ← List.append_assoc]
  exact ⟨hcopied.copySource h hnames hne hfirst, filledAt_copySource h hnames hne hfirst⟩

/-- A free location that is made a directory is ready to be filled. -/
theorem World.Sound.filledAt {host : Host} {w : World} (h : w.Sound host) {n : Nat}
    (hfree : w.files.isFree (Act.scratchPlace host "lspib-context-" n) = true) :
    w.files.FilledAt (w.files.put (Act.scratchPlace host "lspib-context-" n) .directory)
      (Act.scratchPlace host "lspib-context-" n) :=
  ⟨hfree, h.ground hfree, .refl (h.ground hfree).enclosed⟩

/-- What the sources leave at a name in the context. -/
theorem Spec.copied_of_stageSources {spec : Spec} (hspec : spec.StaysInside) {sourceRoot : Path}
    {host : Host} {w w' : World} (hw : w.Sound host) {loc : Location}
    (hs : spec.stageSources sourceRoot host w = (.ok loc, w')) :
    ∃ root, w.files.resolve host.cwd sourceRoot = .ok root ∧ w'.files.Ground loc ∧
      (∀ path ∈ spec.build.sources.paths,
        w.files.exists? host.cwd (pathUnder root path) = .ok true) ∧
      ∀ name, CopiedTo w.files host.cwd root name spec.places w'.files loc := by
  obtain ⟨root, n, hroot, hthere, rfl, hfree, hcopies⟩ := Spec.stageSources_eq_ok hs
  have hstart := hw.filledAt hfree
  have hempty : ∀ name, CopiedTo w.files host.cwd root name []
      (w.files.put (Act.scratchPlace host "lspib-context-" n) .directory)
      (Act.scratchPlace host "lspib-context-" n) := by
    intro name
    refine ⟨fun hnone => absurd hnone List.not_mem_nil, fun _ bytes hfile => ?_⟩
    rw [node?_put_directory hfree (by simp [Act.scratchPlace])] at hfile
    cases hfile
  refine ⟨root, hroot, ?_, hthere, fun name => ?_⟩
  · exact ((hempty "").copySources hspec hstart hcopies).2.ground
  · exact ((hempty name).copySources hspec hstart hcopies).1

-- ════════════════════════════════════════════════════════════════════════
-- The first call
-- ════════════════════════════════════════════════════════════════════════

/-- The first call of a run is that for the build stage, in the files that were staged. -/
theorem Pipeline.exists_call {p : Pipeline} {host : Host} {w staged : World}
    {context : StagedContext} (hstage : p.spec.stage p.sourceRoot host w = (.ok context, staged))
    (hreach : p.Reaches host context) :
    ∃ call rest, (p.run .initial host w).2.calls = w.calls ++ call :: rest ∧
      (p.builderOrder context).IsCall host context.root staged.files call := by
  obtain ⟨ended, reached, w', talk, hrun, -, -, -, hopens⟩ := p.run_ending fresh_initial host w
  obtain ⟨call, result, progress, w₁, said, hbuild, hcall, hcalls, -, -⟩ :=
    buildStage_called hreach (Spec.placed_of_stage hstage) fresh_initial.state staged
  have hsilent := p.spec.calls_stage p.sourceRoot host w
  rw [hstage] at hsilent
  have hfirst := hopens context staged hstage
  rw [hbuild] at hfirst
  obtain ⟨rest, hall⟩ := hcalls.trans hfirst
  refine ⟨call, rest, ?_, hcall⟩
  rw [hrun, ← hall, hsilent, List.append_assoc, List.singleton_append]

/-- What the engine receives differs from what was hashed only in the files that are written for
it. -/
theorem Pipeline.delivers_iff_written {p : Pipeline} (hspec : p.spec.StaysInside) {host : Host}
    {w staged : World} (hw : w.Sound host) {context : StagedContext}
    (hstage : p.spec.stage p.sourceRoot host w = (.ok context, staged))
    (hreach : p.Reaches host context) {hashed : World}
    (hsources : p.spec.stageSources p.sourceRoot host w = (.ok context.location, hashed)) :
    p.Delivers host w context ↔ ∀ file ∈ p.spec.engineFiles, ∀ bytes,
      hashed.files.node? (context.location ++ [file.1]) = some (.file bytes) →
      bytes = utf8Bytes file.2 := by
  obtain ⟨hloc, sources, hsources', hfilled⟩ := Spec.stage_eq_ok hspec hw.grounded hstage
  cases hsources.symm.trans hsources'
  obtain ⟨call, rest, hcalls, hcall⟩ := exists_call hstage hreach
  obtain ⟨number, hcommand⟩ := hcall.command
  have hbelow : ∀ rel, call.files.node? (context.location ++ rel) =
      staged.files.node? (context.location ++ rel) := fun rel =>
    hcall.node?_below hloc (hfilled.enclosed_files.leads _ (List.prefix_refl _))
      (List.prefix_append _ _)
  have hwritten : ∀ file ∈ p.spec.engineFiles,
      call.files.node? (context.location ++ [file.1]) = some (.file (utf8Bytes file.2)) := by
    simp only [Spec.engineFiles, List.forall_mem_cons, hbelow]
    exact ⟨hfilled.node?_dockerfile, hfilled.node?_ignoreFile, by simp⟩
  constructor
  · rintro ⟨hashed', call', rest', hsources', -, hcalls', -, hsame⟩ file hfile bytes hnode
    cases hsources.symm.trans hsources'
    rw [hcalls] at hcalls'
    obtain ⟨rfl, rfl⟩ := List.cons.inj (List.append_cancel_left hcalls')
    have hkept := hsame [file.1] bytes hnode
    rw [hwritten file hfile] at hkept
    cases hkept
    rfl
  · intro hforetold
    refine ⟨hashed, call, rest, hsources, hfilled.digest, hcalls, ⟨_, hcommand⟩,
      fun rel bytes hnode => ?_⟩
    by_cases hname : ∃ file ∈ p.spec.engineFiles, rel = [file.1]
    · obtain ⟨file, hfile, rfl⟩ := hname
      rw [hforetold file hfile bytes hnode]
      exact hwritten file hfile
    · rw [hbelow, hfilled.node?_of_ne, hnode]
      intro hplace
      rw [List.mem_cons, List.mem_singleton, List.append_cancel_left_eq,
        List.append_cancel_left_eq] at hplace
      rcases hplace with hdockerfile | hignore
      · exact hname ⟨(Dockerfile.fileName, _), List.mem_cons_self, hdockerfile⟩
      · exact hname ⟨(ignoreFileName, _), List.mem_cons_of_mem _ List.mem_cons_self, hignore⟩

/-- The engine receives what was hashed exactly where every declared path with the name of a file
that is written for the engine leads to a file with the text that is written. -/
theorem Pipeline.delivers_iff {p : Pipeline} (hspec : p.spec.Accepted) {host : Host}
    {w staged : World} (hw : w.Sound host) {context : StagedContext}
    (hstage : p.spec.stage p.sourceRoot host w = (.ok context, staged))
    (hreach : p.Reaches host context) {root : Location}
    (hroot : w.files.resolve host.cwd p.sourceRoot = .ok root) :
    p.Delivers host w context ↔ p.spec.Foretells w.files host.cwd root := by
  obtain ⟨-, hashed, hsources, hfilled⟩ := Spec.stage_eq_ok hspec.staysInside hw.grounded hstage
  obtain ⟨root', hroot', hground, hthere, hcopied⟩ :=
    Spec.copied_of_stageSources hspec.staysInside hw hsources
  obtain rfl : root = root' := Except.ok.inj (hroot.symm.trans hroot')
  rw [delivers_iff_written hspec.staysInside hw hstage hreach hsources]
  constructor
  · intro hwritten path hpath file hfile hname
    have hsource := pathUnder_eq root (hspec.staysInside path hpath)
    rw [hname] at hsource
    have hexists := hthere path hpath
    rw [hsource] at hexists ⊢
    obtain ⟨node, hnode⟩ : ∃ node,
        w.files.find? host.cwd (Path.ofLocation (root ++ [file.1])) = .ok (some node) := by
      rw [exists?] at hexists
      cases hfound : w.files.find? host.cwd (Path.ofLocation (root ++ [file.1])) with
      | error fault =>
        rw [hfound] at hexists
        cases hexists
      | ok found =>
        rw [hfound] at hexists
        cases found with
        | none => cases hexists
        | some node => exact ⟨node, rfl⟩
    have hplace : [file.1] ∈ p.spec.places := List.mem_map.mpr ⟨path, hpath, hname⟩
    have hstands := (hcopied file.1).copied hplace node hnode
    -- the file for the engine could be written, so that no directory is in the way
    have hreserved : file.1 ∈ [Dockerfile.fileName, ignoreFileName] :=
      List.mem_map_of_mem (f := Prod.fst) hfile
    obtain ⟨bytes, rfl⟩ := hfilled.old hground hreserved hstands
    rw [read_eq_ok_iff, hnode, hwritten file hfile bytes hstands]
  · intro hforetold file hfile bytes hstands
    by_cases hplace : [file.1] ∈ p.spec.places
    · obtain ⟨path, hpath, hname⟩ := List.mem_map.mp hplace
      have hread := hforetold path hpath file hfile hname
      rw [pathUnder_eq root (hspec.staysInside path hpath), hname, read_eq_ok_iff] at hread
      have hnode := (hcopied file.1).copied hplace _ hread
      rw [hstands] at hnode
      cases hnode
      rfl
    · exact absurd hstands ((hcopied file.1).spared hplace bytes)

-- ════════════════════════════════════════════════════════════════════════
-- Sources that are received, and one that is not
-- ════════════════════════════════════════════════════════════════════════

/-- Staging that ends well yields a context. -/
theorem Spec.exists_context (spec : Spec) {sourceRoot : Path} {host : Host} {w : World}
    (h : (spec.stage sourceRoot host w).1.isOk = true) :
    ∃ context staged, spec.stage sourceRoot host w = (.ok context, staged) := by
  cases hstage : spec.stage sourceRoot host w with
  | mk result staged =>
    cases result with
    | ok context => exact ⟨context, staged, rfl⟩
    | error e =>
      rw [hstage] at h
      cases h

/-- The engine receives the stock sources as they were hashed. -/
theorem Pipeline.delivers_standard :
    Spec.standard.Accepted ∧ World.stocked.Sound (.replying fun _ => .quiet 0 none) ∧
    ∃ context staged,
      Spec.standard.stage (.ofText ".") (.replying fun _ => .quiet 0 none) .stocked =
        (.ok context, staged) ∧
      Spec.standard.pipeline.Delivers (.replying fun _ => .quiet 0 none) .stocked context := by
  obtain ⟨context, staged, hstage⟩ := Spec.standard.exists_context
    (show (Spec.standard.stage (.ofText ".") (.replying fun _ => .quiet 0 none)
      .stocked).1.isOk = true by decide +kernel)
  have hsound := World.sound_stocked fun _ => .quiet 0 none
  refine ⟨Spec.accepted_standard, hsound, context, staged, hstage, ?_⟩
  have hroot : World.stocked.files.resolve ["work"] (.ofText ".") = .ok ["work"] := rfl
  refine (delivers_iff (p := Spec.standard.pipeline) Spec.accepted_standard hsound hstage
    (reaches_of_words (Spec.placed_of_stage hstage) rfl (by decide)) hroot).mpr ?_
  have hnames : ∀ path ∈ Spec.standard.build.sources.paths,
      ∀ name ∈ [Dockerfile.fileName, ignoreFileName], placeOf path ≠ [name] := by decide +kernel
  intro path hpath file hfile hname
  exact absurd hname (hnames path hpath file.1 (List.mem_map_of_mem (f := Prod.fst) hfile))

/-- A specification that declares a source with the name of the file for the engine. -/
def replacedSpec : Spec := Spec.standard.withPaths ["Dockerfile"]

/-- The source is hashed, but the engine receives the file that replaced it. -/
theorem Pipeline.not_delivers_of_replaced :
    replacedSpec.Accepted ∧
    (World.holding ["Dockerfile"]).Sound (.replying fun _ => .quiet 0 none) ∧
    ∃ context staged,
      replacedSpec.stage (.ofText ".") (.replying fun _ => .quiet 0 none)
        (.holding ["Dockerfile"]) = (.ok context, staged) ∧
      ¬ replacedSpec.pipeline.Delivers (.replying fun _ => .quiet 0 none)
        (.holding ["Dockerfile"]) context := by
  have haccepted : replacedSpec.Accepted :=
    Spec.accepted_of_parse
      (.obj [("build", .obj [("sources", .obj [("paths", .arr [.str "Dockerfile"])])])])
      (by decide +kernel)
  have hsound : (World.holding ["Dockerfile"]).Sound (.replying fun _ => .quiet 0 none) := by
    refine ⟨⟨by decide +kernel, ?_, by decide +kernel⟩, rfl, rfl⟩
    intro entry hentry
    fin_cases hentry <;> exact ⟨by simp, rfl⟩
  obtain ⟨context, staged, hstage⟩ := replacedSpec.exists_context
    (show (replacedSpec.stage (.ofText ".") (.replying fun _ => .quiet 0 none)
      (.holding ["Dockerfile"])).1.isOk = true by decide +kernel)
  refine ⟨haccepted, hsound, context, staged, hstage, ?_⟩
  obtain ⟨-, hashed, hsources, -⟩ :=
    Spec.stage_eq_ok haccepted.staysInside hsound.grounded hstage
  obtain ⟨root, hroot, -, -, hcopied⟩ :=
    Spec.copied_of_stageSources haccepted.staysInside hsound hsources
  obtain rfl : ["work"] = root := Except.ok.inj hroot
  have hstands : hashed.files.node? (context.location ++ ["Dockerfile"]) = some (.file .empty) :=
    (hcopied "Dockerfile").copied (by decide +kernel) _
      (hsound.files.find?_eq rfl (by simp) (by decide +kernel))
  rw [delivers_iff_written (p := replacedSpec.pipeline) haccepted.staysInside hsound hstage
    (reaches_of_words (Spec.placed_of_stage hstage) rfl (by decide)) hsources]
  intro hforetold
  have hsame := hforetold _ List.mem_cons_self _ hstands
  have hempty : (Dockerfile.text (Dockerfile.twoStage replacedSpec)).toList = [] := by
    rw [String.toList_eq_nil_iff, ← String.toByteArray_eq_empty_iff]
    exact hsame.symm
  rw [Dockerfile.toList_text] at hempty
  simp [Dockerfile.twoStage, Dockerfile.header] at hempty

end TwoStage

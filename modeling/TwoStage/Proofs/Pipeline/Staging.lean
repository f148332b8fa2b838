import TwoStage.Proofs.Act.Keeps
import TwoStage.Proofs.FileTree.Reading
import TwoStage.Proofs.Spec.Accepted
import TwoStage.Staging

/-!
# The staged context

An operation inside a staged context is the staging, and then the operation with the context
removed behind it. Staging calls no engine; it fails only for sources that are missing, where the
file system refuses something or where the Dockerfile cannot be rendered; and all that it changes
lies in the directory that it made.

## Main definitions

- `Spec.stage` — staging alone: a context that is filled, or nothing left of it
- `Spec.stageSources` — the sources alone
- `StagedContext.Filled` — a context with its sources and with the files for the engine

## Main statements

- `Spec.inContext_of_stage_error`, `Spec.inContext_of_stage` — an operation inside a context
- `Spec.calls_stage` — staging calls no engine
- `Spec.failsWith_stage` — how staging can fail
- `Spec.files_of_stage` — what staging changes
- `Spec.stage_eq_ok` — staging that succeeds fills a context
-/

namespace TwoStage

/-- An operation whose traces another one removes if it ends with an error. -/
def Act.undoing {α : Type} (body : Act α) (undo : Act Unit) : Act α := fun host w =>
  match body host w with
  | (.ok value, w) => (.ok value, w)
  | (.error e, w) =>
    match undo host w with
    | (.ok (), w) => (.error e, w)
    | (.error other, w) => (.error other, w)

/-- Staging alone: a directory filled with the sources and the files for the engine, or nothing left
of it where that fails. -/
def Spec.stage (spec : Spec) (sourceRoot : Path) : Act StagedContext := do
  let root ← Act.ask FileTree.resolve sourceRoot
  let sources ← spec.build.sources.locate root
  let loc ← Act.makeScratch "lspib-context-"
  Act.undoing (StagedContext.fill spec root loc sources) (Act.removeBelow loc)

-- ════════════════════════════════════════════════════════════════════════
-- Staging inside of an operation
-- ════════════════════════════════════════════════════════════════════════

theorem StagedContext.location_of_fill {spec : Spec} {root loc : Location} {sources : List Path}
    {host : Host} {w w' : World} {context : StagedContext}
    (h : fill spec root loc sources host w = (.ok context, w')) : context.location = loc := by
  rw [fill] at h
  obtain ⟨_, _, _, h⟩ := Act.bind_eq_ok h
  obtain ⟨_, _, _, h⟩ := Act.bind_eq_ok h
  obtain ⟨_, _, _, h⟩ := Act.bind_eq_ok h
  obtain ⟨_, _, _, h⟩ := Act.bind_eq_ok h
  obtain ⟨_, _, _, h⟩ := Act.bind_eq_ok h
  obtain ⟨_, _, _, h⟩ := Act.bind_eq_ok h
  cases h
  rfl

/-- What is done afterwards in any case follows the first part where that fails, and the rest where
it does not. -/
theorem Act.ensuring_bind {α β : Type} (x : Act α) (f : α → Act β) (cleanup : Act Unit) :
    Act.ensuring (x >>= f) cleanup =
      Act.undoing x cleanup >>= fun value => Act.ensuring (f value) cleanup := by
  funext host w
  simp only [Act.ensuring, Act.undoing, Act.bind_apply]
  cases hx : x host w with
  | mk result w₁ =>
    cases result with
    | ok value => rfl
    | error e =>
      dsimp only
      cases hc : cleanup host w₁ with
      | mk done w₂ => cases done <;> rfl

/-- An operation inside a staged context is the staging, and then the operation with the context
removed behind it. -/
theorem Spec.inContext_eq {α : Type} (spec : Spec) (sourceRoot : Path)
    (body : StagedContext → Act α) :
    spec.inContext sourceRoot body =
      spec.stage sourceRoot >>= fun context =>
        Act.ensuring (body context) (Act.removeBelow context.location) := by
  unfold inContext stage Act.inScratch
  simp only [Act.bind_assoc, Act.ensuring_bind]
  refine Act.bind_congr fun _ _ root _ _ => ?_
  refine congrFun (congrFun (Act.bind_congr fun _ _ sources _ _ => ?_) _) _
  refine congrFun (congrFun (Act.bind_congr fun _ _ loc _ _ => ?_) _) _
  refine congrFun (congrFun (Act.bind_congr fun host w context w' hfill => ?_) _) _
  have hloc : context.location = loc := by
    rw [Act.undoing] at hfill
    split at hfill
    · next filled w₁ hfilled =>
      cases hfill
      exact StagedContext.location_of_fill hfilled
    · split at hfill <;> cases hfill
  rw [hloc]

/-- Where staging fails, the operation does not start. -/
theorem Spec.inContext_of_stage_error {α : Type} {spec : Spec} {sourceRoot : Path}
    {host : Host} {w w' : World} {e : Error} (body : StagedContext → Act α)
    (h : spec.stage sourceRoot host w = (.error e, w')) :
    spec.inContext sourceRoot body host w = (.error e, w') := by
  rw [inContext_eq, Act.bind_apply, h]

/-- Where staging succeeds, the operation starts in the context, which is removed behind it. -/
theorem Spec.inContext_of_stage {α : Type} {spec : Spec} {sourceRoot : Path} {host : Host}
    {w w' : World} {context : StagedContext} (body : StagedContext → Act α)
    (h : spec.stage sourceRoot host w = (.ok context, w')) :
    spec.inContext sourceRoot body host w =
      ((body context host w').1,
        { (body context host w').2 with
          files := (body context host w').2.files.removeBelow context.location }) := by
  rw [inContext_eq, Act.bind_apply, h]
  rfl

-- ════════════════════════════════════════════════════════════════════════
-- What staging keeps
-- ════════════════════════════════════════════════════════════════════════

theorem Act.Keeps.undoing {α : Type} {I : World → Prop} {body : Act α} {undo : Act Unit}
    (hbody : Act.Keeps I body) (hundo : Act.Keeps I undo) :
    Act.Keeps I (Act.undoing body undo) := by
  intro host w h
  rw [Act.undoing]
  split
  · next heq => exact hbody.of_eq heq h
  · next e w₁ heq =>
    have hafter := hbody.of_eq heq h
    split
    · next hu => exact hundo.of_eq hu hafter
    · next hu => exact hundo.of_eq hu hafter

theorem SourceInput.keeps_sift {I : World → Prop} (root : Location) (paths : List String) :
    Act.Keeps I (sift root paths) := by
  induction paths with
  | nil => exact .pure _
  | cons path rest ih => exact .bind (.ask _ _) fun _ => .bind ih fun _ => .pure _

theorem SourceInput.keeps_locate {I : World → Prop} (input : SourceInput) (root : Location) :
    Act.Keeps I (input.locate root) := by
  refine .bind (keeps_sift root _) fun sifted => ?_
  obtain ⟨found, missing⟩ := sifted
  dsimp only
  by_cases hall : missing.isEmpty = true
  · rw [if_pos hall]
    exact .pure _
  · rw [if_neg hall]
    exact .fail _

/-- Looking for the sources changes nothing. -/
theorem SourceInput.world_of_locate {input : SourceInput} {root : Location} {host : Host}
    {w w' : World} {result : Except Error (List Path)}
    (h : input.locate root host w = (result, w')) : w = w' :=
  (keeps_locate input root : Act.Keeps (fun now => w = now) _).of_eq h rfl

/-- What a copy keeps, if making directories, copying a directory and copying a file keep it. -/
theorem StagedContext.keeps_copySource {I : World → Prop} {source target : Path}
    (hmake : Act.Keeps I (Act.makeDirectories target.parent))
    (htree : Act.Keeps I
      (Act.changeFilesPartly fun files _ => files.copyDirectory skippedNames source target))
    (hfile : Act.Keeps I (Act.changeFiles fun files _ => files.copyFile source target)) :
    Act.Keeps I (copySource source target) := by
  refine .bind hmake fun _ => .bind (.ask _ _) fun isDirectory => ?_
  cases isDirectory with
  | false => exact hfile
  | true => exact htree

theorem StagedContext.keeps_copySources {I : World → Prop} {root loc : Location}
    {sources : List Path} (hcopy : ∀ source ∈ sources, Act.Keeps I
      (copySource source (Path.ofLocation (loc ++ source.parts.drop root.length)))) :
    Act.Keeps I (copySources root loc sources) := by
  induction sources with
  | nil => exact .pure _
  | cons source rest ih =>
    exact .bind (hcopy source List.mem_cons_self) fun _ =>
      ih fun other hother => hcopy other (List.mem_cons_of_mem _ hother)

/-- What filling a context keeps, if each copy and each file for the engine keep it. -/
theorem StagedContext.keeps_fill {I : World → Prop} (spec : Spec) (root loc : Location)
    (sources : List Path) (hrecords : ∀ w records, I w → I { w with records })
    (hcopy : ∀ source ∈ sources, Act.Keeps I
      (copySource source (Path.ofLocation (loc ++ source.parts.drop root.length))))
    (hwrite : ∀ name text, Plain [name] →
      Act.Keeps I (Act.writeText ((Path.ofLocation loc).child name) text)) :
    Act.Keeps I (fill spec root loc sources) := by
  refine .bind (keeps_copySources hcopy) fun _ => .bind .world fun _ => .bind (.ofExcept _) fun _ => ?_
  refine .bind (hwrite _ _ ?_) fun _ => .bind (hwrite _ _ ?_) fun _ => ?_
  · simp [Plain, Dockerfile.fileName]
  · simp [Plain, ignoreFileName]
  · exact .bind (.report hrecords _) fun _ => .pure _

/-- What staging keeps, if making the directory, filling it and removing it keep it. -/
theorem Spec.keeps_stage {I : World → Prop} {spec : Spec} {sourceRoot : Path}
    (hmake : Act.Keeps I (Act.makeScratch "lspib-context-"))
    (hfill : ∀ root loc sources, Act.Keeps I (StagedContext.fill spec root loc sources))
    (hundo : ∀ loc, Act.Keeps I (Act.removeBelow loc)) : Act.Keeps I (spec.stage sourceRoot) :=
  .bind (.ask _ _) fun root => .bind (SourceInput.keeps_locate _ root) fun sources =>
    .bind hmake fun loc => .undoing (hfill root loc sources) (hundo loc)

/-- Staging keeps what does not depend on the files, on the scratch directories made so far and on
the records. -/
theorem Spec.keeps_stage_beside {I : World → Prop}
    (hI : ∀ w files scratchCount records, I w → I { w with files, scratchCount, records })
    (spec : Spec) (sourceRoot : Path) : Act.Keeps I (spec.stage sourceRoot) := by
  have hfiles : ∀ change, Act.Keeps I (Act.changeFiles change) :=
    fun change => .changeFiles fun w _ files _ => hI w files w.scratchCount w.records
  have hpartly : ∀ change, Act.Keeps I (Act.changeFilesPartly change) :=
    fun change => .changeFilesPartly fun w _ => hI w _ w.scratchCount w.records
  refine Spec.keeps_stage (fun _ w => hI w _ _ w.records) (fun root loc sources => ?_)
    (fun _ _ w => hI w _ w.scratchCount w.records)
  refine StagedContext.keeps_fill spec root loc sources (fun w => hI w w.files w.scratchCount)
    (fun source _ => ?_) (fun _ _ _ => hfiles _)
  exact StagedContext.keeps_copySource (hpartly _) (hpartly _) (hfiles _)

/-- Staging calls no engine. -/
theorem Spec.calls_stage (spec : Spec) (sourceRoot : Path) (host : Host) (w : World) :
    (spec.stage sourceRoot host w).2.calls = w.calls :=
  spec.keeps_stage_beside (I := fun w' => w'.calls = w.calls) (fun _ _ _ _ h => h) sourceRoot host w
    rfl

/-- Staging shows nothing. -/
theorem Spec.shown_stage (spec : Spec) (sourceRoot : Path) (host : Host) (w : World) :
    (spec.stage sourceRoot host w).2.shown = w.shown :=
  spec.keeps_stage_beside (I := fun w' => w'.shown = w.shown) (fun _ _ _ _ h => h) sourceRoot host w
    rfl

-- ════════════════════════════════════════════════════════════════════════
-- How staging fails
-- ════════════════════════════════════════════════════════════════════════

/-- The errors of staging: sources that are missing, a file system that refuses something, or a
number that is too long to be written. -/
def Error.isOfStaging : Error → Bool
  | .sourcesMissing .. | .file _ | .config .longInteger => true
  | _ => false

theorem SourceInput.failsWith_locate (input : SourceInput) (root : Location) :
    Act.FailsWith (fun e => e.isOfStaging = true) (input.locate root) := by
  have hsift : ∀ paths, Act.FailsWith (fun e => e.isOfStaging = true) (sift root paths) := by
    intro paths
    induction paths with
    | nil => exact .pure _
    | cons path rest ih =>
      exact .bind (.ask (fun _ => rfl) _ _) fun _ => .bind ih fun _ => .pure _
  refine .bind (hsift _) fun sifted => ?_
  obtain ⟨found, missing⟩ := sifted
  dsimp only
  by_cases hall : missing.isEmpty = true
  · rw [if_pos hall]
    exact .pure _
  · rw [if_neg hall]
    exact .fail rfl

theorem Dockerfile.failsWith_render {P : Error → Prop} (hlong : P (.config .longInteger))
    (spec : Spec) : Act.FailsWith P (Act.ofExcept ((render spec).mapError .config)) := by
  intro host w e he
  rw [render] at he
  split at he
  · cases he
  · cases he
    exact hlong

/-- Filling a context fails only where the file system refuses something or the Dockerfile cannot be
rendered. -/
theorem StagedContext.failsWith_fill {P : Error → Prop} (hP : ∀ fault, P (.file fault))
    (hlong : P (.config .longInteger)) (spec : Spec) (root loc : Location) (sources : List Path) :
    Act.FailsWith P (fill spec root loc sources) := by
  have hfiles : ∀ change, Act.FailsWith P (Act.changeFiles change) :=
    fun change => .changeFiles hP change
  have hpartly : ∀ change, Act.FailsWith P (Act.changeFilesPartly change) :=
    fun change => .changeFilesPartly hP change
  have hcopy : ∀ source target, Act.FailsWith P (copySource source target) := by
    intro source target
    refine .bind (hpartly _) fun _ => .bind (.ask hP _ _) fun isDirectory => ?_
    cases isDirectory with
    | false => exact hfiles _
    | true => exact hpartly _
  have hcopies : Act.FailsWith P (copySources root loc sources) := by
    induction sources with
    | nil => exact .pure _
    | cons source rest ih => exact .bind (hcopy _ _) fun _ => ih
  refine .bind hcopies fun _ => .bind (fun _ _ _ h => by cases h) fun _ => ?_
  refine .bind (Dockerfile.failsWith_render hlong spec) fun _ => ?_
  exact .bind (hfiles _) fun _ => .bind (hfiles _) fun _ => .bind (.report _) fun _ => .pure _

theorem Act.FailsWith.undoing {α : Type} {P : Error → Prop} {body : Act α} {undo : Act Unit}
    (hbody : Act.FailsWith P body) (hundo : Act.FailsWith P undo) :
    Act.FailsWith P (Act.undoing body undo) := by
  intro host w e he
  rw [Act.undoing] at he
  split at he
  · cases he
  · next e₁ w₁ hfails =>
    split at he
    · cases he
      exact hbody host w e (by rw [hfails])
    · next other w₂ hother =>
      cases he
      exact hundo host w₁ e (by rw [hother])

/-- Behind the search for the sources staging fails only where the file system refuses something or
the Dockerfile cannot be rendered. -/
theorem Spec.failsWith_fillScratch {P : Error → Prop} (hP : ∀ fault, P (.file fault))
    (hlong : P (.config .longInteger)) (spec : Spec) (root : Location) (sources : List Path) :
    Act.FailsWith P (Act.makeScratch "lspib-context-" >>= fun loc =>
      Act.undoing (StagedContext.fill spec root loc sources) (Act.removeBelow loc)) :=
  .bind (fun _ _ _ h => by cases h) fun loc =>
    .undoing (StagedContext.failsWith_fill hP hlong spec root loc sources) fun _ _ _ h => by cases h

/-- Staging fails only for sources that are missing, where the file system refuses something or where
the Dockerfile cannot be rendered. -/
theorem Spec.failsWith_stage (spec : Spec) (sourceRoot : Path) :
    Act.FailsWith (fun e => e.isOfStaging = true) (spec.stage sourceRoot) :=
  .bind (.ask (fun _ => rfl) _ _) fun root =>
    .bind (SourceInput.failsWith_locate _ root) fun sources =>
      failsWith_fillScratch (P := fun e => e.isOfStaging = true) (fun _ => rfl) rfl spec root sources

-- ════════════════════════════════════════════════════════════════════════
-- What staging changes
-- ════════════════════════════════════════════════════════════════════════

/-- Seen from the root, a path that stays inside has components that lead nowhere else. -/
theorem SourceInput.parts_pathUnder (root : Location) {path : String}
    (h : staysInside path = true) :
    (pathUnder root path).parts.drop root.length = (Path.ofText path).parts ∧
      Plain (Path.ofText path).parts ∧ (Path.ofText path).parts ≠ [] := by
  simp only [staysInside, Bool.and_eq_true, Bool.not_eq_true', Bool.eq_false_iff, ne_eq,
    List.contains_iff_mem, List.isEmpty_iff] at h
  obtain ⟨⟨hrelative, hup⟩, hne⟩ := h
  refine ⟨?_, fun name hname => ⟨?_, ?_⟩, hne⟩
  · simp [pathUnder, Path.join, hrelative, Path.ofLocation]
  · rintro rfl
    have := (List.mem_filter.mp hname).2
    simp [Path.isComponent] at this
  · rintro rfl
    exact hup hname

/-- Where nothing is missing, all paths are found, and each of them leads to something. -/
theorem SourceInput.sift_eq_ok {root : Location} {host : Host} {paths found : List String}
    {w w' : World} (h : sift root paths host w = (.ok (found, []), w')) :
    found = paths ∧
      ∀ path ∈ paths, w.files.exists? host.cwd (pathUnder root path) = .ok true := by
  induction paths generalizing found w w' with
  | nil =>
    cases h
    simp
  | cons first rest ih =>
    obtain ⟨isThere, w₁, hasked, hs⟩ := Act.bind_eq_ok h
    obtain ⟨rfl, hthere⟩ := Act.ask_eq_ok hasked
    obtain ⟨⟨below, gone⟩, w₂, hrest, hs⟩ := Act.bind_eq_ok hs
    cases isThere with
    | false => cases hs
    | true =>
      cases hs
      obtain ⟨rfl, hall⟩ := ih hrest
      exact ⟨rfl, List.forall_mem_cons.mpr ⟨hthere, hall⟩⟩

/-- The sources are located where each of the declared paths leads to something. -/
theorem SourceInput.locate_eq_ok {input : SourceInput} {root : Location} {host : Host}
    {w w' : World} {sources : List Path} (h : input.locate root host w = (.ok sources, w')) :
    sources = input.paths.map (pathUnder root) ∧
      ∀ path ∈ input.paths, w.files.exists? host.cwd (pathUnder root path) = .ok true := by
  rw [locate] at h
  obtain ⟨⟨found, missing⟩, w₁, hs, h⟩ := Act.bind_eq_ok h
  dsimp only at h
  by_cases hall : missing.isEmpty = true
  · rw [if_pos hall] at h
    cases h
    obtain rfl := List.isEmpty_iff.mp hall
    obtain ⟨rfl, hthere⟩ := sift_eq_ok hs
    exact ⟨rfl, hthere⟩
  · rw [if_neg hall] at h
    cases h

/-- The sources that are located are declared ones. -/
theorem SourceInput.mem_of_locate {input : SourceInput} {root : Location} {host : Host}
    {w w' : World} {sources : List Path} (h : input.locate root host w = (.ok sources, w')) :
    ∀ source ∈ sources, ∃ path ∈ input.paths, source = pathUnder root path := by
  rw [(locate_eq_ok h).1]
  intro source hsource
  obtain ⟨path, hpath, rfl⟩ := List.mem_map.mp hsource
  exact ⟨path, hpath, rfl⟩

section

variable (t : FileTree) (loc : Location) {spec : Spec} (hspec : spec.StaysInside) {root : Location}

include hspec

/-- A declared source that is copied into an enclosed directory changes nothing outside it. -/
theorem StagedContext.changedWithin_copySource {source : Path}
    (h : ∃ path ∈ spec.build.sources.paths, source = SourceInput.pathUnder root path) :
    Act.Keeps (fun w => FileTree.ChangedWithin loc t w.files)
      (copySource source (Path.ofLocation (loc ++ source.parts.drop root.length))) := by
  obtain ⟨path, hpath, rfl⟩ := h
  obtain ⟨hparts, hplain, hne⟩ := SourceInput.parts_pathUnder root (hspec path hpath)
  rw [hparts]
  refine keeps_copySource ?_ ?_ ?_
  · rw [Path.parent_ofLocation hne]
    exact .changeFilesPartly fun w cwd h =>
      h.trans (h.enclosed.makeDirectoriesPartly hplain.dropLast)
  · exact .changeFilesPartly fun w cwd h =>
      h.trans (h.enclosed.copyDirectory skippedNames hplain _)
  · exact .changeFiles fun w cwd files hcopied h => h.trans (h.enclosed.copyFile hplain hcopied)

theorem StagedContext.changedWithin_copySources {sources : List Path}
    (hsources : ∀ source ∈ sources,
      ∃ path ∈ spec.build.sources.paths, source = SourceInput.pathUnder root path) :
    Act.Keeps (fun w => FileTree.ChangedWithin loc t w.files) (copySources root loc sources) :=
  keeps_copySources fun source hsource =>
    changedWithin_copySource t loc hspec (hsources source hsource)

/-- Filling an enclosed directory changes nothing outside it. -/
theorem StagedContext.changedWithin_fill {sources : List Path}
    (hsources : ∀ source ∈ sources,
      ∃ path ∈ spec.build.sources.paths, source = SourceInput.pathUnder root path) :
    Act.Keeps (fun w => FileTree.ChangedWithin loc t w.files) (fill spec root loc sources) := by
  refine keeps_fill spec root loc sources (fun _ _ h => h)
    (fun source hsource => changedWithin_copySource t loc hspec (hsources source hsource))
    (fun name text hname => ?_)
  rw [Path.child_ofLocation]
  exact .changeFiles fun w cwd files hwritten h => h.trans (h.enclosed.write hname hwritten)

end

/-- All that staging changes lies in the directory that it made, which is enclosed: without that
directory the tree is the old one, and nothing is left of it where staging fails. -/
theorem Spec.files_of_stage {spec : Spec} (hspec : spec.StaysInside) {sourceRoot : Path}
    {host : Host} {w w' : World} (hw : w.Grounded host) {result : Except Error StagedContext}
    (h : spec.stage sourceRoot host w = (result, w')) :
    match result with
    | .ok context => w'.files.Enclosed context.location ∧
        w'.files.removeBelow context.location = w.files
    | .error _ => w'.files = w.files := by
  rw [stage] at h
  rcases Act.bind_cases h with ⟨root, w₁, hroot, h⟩ | ⟨e, hroot, rfl⟩
  · obtain rfl : w = w₁ := congrArg Prod.snd hroot
    rcases Act.bind_cases h with ⟨sources, w₂, hsources, h⟩ | ⟨e, hsources, rfl⟩
    · obtain rfl := SourceInput.world_of_locate hsources
      obtain ⟨n, hfree, hmake⟩ := Act.makeScratch_apply "lspib-context-" host w
      have hstart := hw.enclosed (by decide) hfree
      have hback := FileTree.removeBelow_put_of_isFree .directory hfree
      generalize Act.scratchPlace host "lspib-context-" n = loc at hmake hstart hback
      have hfill := StagedContext.changedWithin_fill (w.files.put loc .directory) loc hspec
        (SourceInput.mem_of_locate hsources)
      rw [Act.bind_apply, hmake] at h
      dsimp only [Act.undoing] at h
      split at h
      · next context w₃ heq =>
        obtain ⟨rfl, rfl⟩ := Prod.mk.inj h
        have hwithin := hfill.of_eq heq (.refl hstart)
        dsimp only
        rw [StagedContext.location_of_fill heq]
        exact ⟨hwithin.enclosed, hwithin.outside.trans hback⟩
      · next e w₃ heq =>
        obtain ⟨rfl, rfl⟩ := Prod.mk.inj h
        have hwithin := hfill.of_eq heq (.refl hstart)
        exact hwithin.outside.trans hback
    · obtain rfl := SourceInput.world_of_locate hsources
      rfl
  · obtain rfl : w = w' := congrArg Prod.snd hroot
    rfl

-- ════════════════════════════════════════════════════════════════════════
-- What is staged
-- ════════════════════════════════════════════════════════════════════════

/-- The sources alone: a new directory that holds those that are declared. -/
def Spec.stageSources (spec : Spec) (sourceRoot : Path) : Act Location := do
  let root ← Act.ask FileTree.resolve sourceRoot
  let sources ← spec.build.sources.locate root
  let loc ← Act.makeScratch "lspib-context-"
  StagedContext.copySources root loc sources
  return loc

/-- A Dockerfile is rendered where its environment variables can be written. -/
theorem Dockerfile.ofExcept_render_eq_ok {spec : Spec} {text : String} {host : Host} {w w' : World}
    (h : Act.ofExcept ((render spec).mapError .config) host w = (.ok text, w')) :
    spec.build.env.isWritable = true ∧ text = Dockerfile.text (twoStage spec) ∧ w' = w := by
  cases hrender : render spec with
  | error e =>
    rw [hrender] at h
    cases h
  | ok file =>
    rw [hrender] at h
    cases h
    obtain ⟨hwritable, hfile⟩ := render_eq_ok_iff.mp hrender
    exact ⟨hwritable, hfile, rfl⟩

/-- A context that is filled: its digest is that of the sources, and the two files for the engine
are written behind them. -/
theorem StagedContext.fill_eq_ok {spec : Spec} {root loc : Location} {sources : List Path}
    {host : Host} {w w' : World} {context : StagedContext}
    (h : fill spec root loc sources host w = (.ok context, w')) :
    ∃ staged, copySources root loc sources host w = (.ok (), staged) ∧
      context = ⟨loc, staged.files.digest loc⟩ ∧ spec.build.env.isWritable = true ∧
      ∃ marked : FileTree,
        staged.files.write host.cwd (context.root.child Dockerfile.fileName)
          (utf8Bytes (Dockerfile.text (Dockerfile.twoStage spec))) = .ok marked ∧
        marked.write host.cwd (context.root.child ignoreFileName) (utf8Bytes ignoreText) =
          .ok w'.files := by
  rw [fill] at h
  obtain ⟨⟨⟩, staged, hcopies, hcopied⟩ := Act.bind_eq_ok h
  obtain ⟨_, _, hworld, hknown⟩ := Act.bind_eq_ok hcopied
  cases hworld
  obtain ⟨text, _, hrender, hrendered⟩ := Act.bind_eq_ok hknown
  obtain ⟨hwritable, rfl, rfl⟩ := Dockerfile.ofExcept_render_eq_ok hrender
  obtain ⟨⟨⟩, w₂, hfirst, hmarked⟩ := Act.bind_eq_ok hrendered
  obtain ⟨⟨⟩, w₃, hsecond, hwritten⟩ := Act.bind_eq_ok hmarked
  obtain ⟨⟨⟩, w₄, hreport, hend⟩ := Act.bind_eq_ok hwritten
  have hsame := Act.files_of_report hreport
  cases hend
  refine ⟨_, hcopies, rfl, hwritable, w₂.files, (Act.writeText_eq_ok hfirst).1, ?_⟩
  rw [hsame]
  exact (Act.writeText_eq_ok hsecond).1

/-- A context that is staged: its digest is that of the sources in it, which are enclosed, and the
two files for the engine are written behind them. -/
structure StagedContext.Filled (context : StagedContext) (spec : Spec) (cwd : Location)
    (sources t : FileTree) : Prop where
  enclosed : sources.Enclosed context.location
  digest : context.sourceDigest = sources.digest context.location
  writable : spec.build.env.isWritable = true
  written : ∃ marked : FileTree,
    sources.write cwd (context.root.child Dockerfile.fileName)
      (utf8Bytes (Dockerfile.text (Dockerfile.twoStage spec))) = .ok marked ∧
    marked.write cwd (context.root.child ignoreFileName) (utf8Bytes ignoreText) = .ok t

/-- Staging goes through its steps: the root is resolved, the sources are found, a scratch directory
is made, and it is filled. -/
theorem Spec.stage_of_fill {spec : Spec} {sourceRoot : Path} {host : Host} {w w₁ filled : World}
    {root loc : Location} {sources : List Path} {context : StagedContext}
    (hroot : w.files.resolve host.cwd sourceRoot = .ok root)
    (hsources : spec.build.sources.locate root host w = (.ok sources, w))
    (hmake : Act.makeScratch "lspib-context-" host w = (.ok loc, w₁))
    (hfill : StagedContext.fill spec root loc sources host w₁ = (.ok context, filled)) :
    spec.stage sourceRoot host w = (.ok context, filled) := by
  rw [stage, Act.bind_of_ok (Act.ask_of_ok hroot), Act.bind_of_ok hsources, Act.bind_of_ok hmake,
    Act.undoing, hfill]

/-- Staging that succeeds fills a context with the sources, in a scratch directory. -/
theorem Spec.stage_eq_ok {spec : Spec} (hspec : spec.StaysInside) {sourceRoot : Path} {host : Host}
    {w w' : World} (hw : w.Grounded host) {context : StagedContext}
    (h : spec.stage sourceRoot host w = (.ok context, w')) :
    (∃ n, context.location = Act.scratchPlace host "lspib-context-" n) ∧
      ∃ staged, spec.stageSources sourceRoot host w = (.ok context.location, staged) ∧
        context.Filled spec host.cwd staged.files w'.files := by
  rw [stage] at h
  obtain ⟨root, w₁, hroot, hresolved⟩ := Act.bind_eq_ok h
  obtain rfl : w = w₁ := congrArg Prod.snd hroot
  obtain ⟨sources, w₂, hsources, hlocated⟩ := Act.bind_eq_ok hresolved
  obtain rfl := SourceInput.world_of_locate hsources
  obtain ⟨n, hfree, hmake⟩ := Act.makeScratch_apply "lspib-context-" host w
  have hstart := hw.enclosed (by decide) hfree
  rw [Act.bind_apply, hmake] at hlocated
  dsimp only [Act.undoing] at hlocated
  split at hlocated
  · next filled w₃ hfill =>
    obtain ⟨⟨rfl⟩, rfl⟩ := Prod.mk.inj hlocated
    obtain ⟨staged, hcopies, rfl, hwritable, hwritten⟩ := StagedContext.fill_eq_ok hfill
    have hwithin := (StagedContext.changedWithin_copySources _ _ hspec
      (SourceInput.mem_of_locate hsources)).of_eq hcopies (.refl hstart)
    refine ⟨⟨n, rfl⟩, staged, ?_, hwithin.enclosed, rfl, hwritable, hwritten⟩
    rw [stageSources, Act.bind_of_ok hroot, Act.bind_of_ok hsources, Act.bind_of_ok hmake,
      Act.bind_of_ok hcopies]
    rfl
  · split at hlocated <;> cases hlocated

namespace StagedContext.Filled

variable {context : StagedContext} {spec : Spec} {cwd : Location} {sources t : FileTree}
  (h : context.Filled spec cwd sources t)

include h

/-- The two files are written in the enclosed directory, one after the other. -/
theorem writtenIn : ∃ marked : FileTree,
    sources.WrittenIn marked cwd context.location Dockerfile.fileName
      (utf8Bytes (Dockerfile.text (Dockerfile.twoStage spec))) ∧
    marked.WrittenIn t cwd context.location ignoreFileName (utf8Bytes ignoreText) := by
  obtain ⟨marked, hfirst, hsecond⟩ := h.written
  have hdockerfile := h.enclosed.writtenIn (by simp [Plain, Dockerfile.fileName]) hfirst
  exact ⟨marked, hdockerfile,
    hdockerfile.enclosed.writtenIn (by simp [Plain, ignoreFileName]) hsecond⟩

theorem enclosed_files : t.Enclosed context.location := by
  obtain ⟨marked, -, hsecond⟩ := h.writtenIn
  exact hsecond.enclosed

/-- Nothing but the two files is not as staged. -/
theorem node?_of_ne {place : Location}
    (hplace : place ∉ [context.location ++ [Dockerfile.fileName],
      context.location ++ [ignoreFileName]]) :
    t.node? place = sources.node? place := by
  obtain ⟨marked, hfirst, hsecond⟩ := h.writtenIn
  rw [List.mem_cons, List.mem_singleton, not_or] at hplace
  rw [hsecond.files, FileTree.node?_put_of_ne _ hplace.2, hfirst.files,
    FileTree.node?_put_of_ne _ hplace.1]

/-- Where staging ends, the two files stand in the context, whatever stood there before. -/
theorem node?_dockerfile : t.node? (context.location ++ [Dockerfile.fileName]) =
    some (.file (utf8Bytes (Dockerfile.text (Dockerfile.twoStage spec)))) := by
  obtain ⟨marked, hfirst, hsecond⟩ := h.writtenIn
  rw [hsecond.files, FileTree.node?_put_of_ne _ (by simp [Dockerfile.fileName, ignoreFileName])]
  exact hfirst.stands

theorem node?_ignoreFile : t.node? (context.location ++ [ignoreFileName]) =
    some (.file (utf8Bytes ignoreText)) := by
  obtain ⟨marked, -, hsecond⟩ := h.writtenIn
  exact hsecond.stands

/-- The file with both stages is read wherever all that stands in the context still does. -/
theorem read_dockerfile {place : Location} (hfree : t.node? place = none) :
    (t.put place .directory).read cwd (context.root.child Dockerfile.fileName) =
      .ok (utf8Bytes (Dockerfile.text (Dockerfile.twoStage spec))) := by
  obtain ⟨marked, hfirst, hsecond⟩ := h.writtenIn
  have hnew : t.SameWays (t.put place .directory) :=
    .put _ fun old hold => by rw [hfree] at hold; cases hold
  refine hfirst.read _ (hfirst.ways.trans (hsecond.ways.trans hnew)) ?_
  exact FileTree.node?_put_of_free _ hfree h.node?_dockerfile

end StagedContext.Filled

end TwoStage

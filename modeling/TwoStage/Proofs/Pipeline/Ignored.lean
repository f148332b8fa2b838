import TwoStage.Proofs.Pipeline.Delivery
import TwoStage.Proofs.Pipeline.StagedFiles

/-!
# What the engine ignores

Two filters leave out the same names. While a directory is copied, names below it are skipped; and
the file for the engine has a pattern for each of these names, which is matched at every level of
the context. The first one never looks at the components of a declared path itself, and the second
one does: so a staged file is ignored exactly where it is at or below a declared path that has one
of these names in it.

## Main definitions

- `Ignores` — the places that the patterns of a text leave out
- `StagedContext.Admits` — the places that copies of declared paths take
- `FileTree.Admitting` — a location that is being filled at such places only

## Main statements

- `StagedContext.ignores_iff` — the patterns and the skipped names
- `FileTree.Admitting.copyDirectory`, `StagedContext.admitting_copySources` — what copies fill
- `Spec.contextFiles_ignored_iff` — which source files of a context are ignored
- `Spec.contextFiles_ignored` — a source that is hashed and ignored
-/

namespace TwoStage

open FileTree StagedContext SourceInput

/-- The places that the patterns of a text leave out, seen from the context: those with a component
that one of the lines names for every level. -/
def Ignores (patterns : String) (rel : List String) : Prop :=
  ∃ name ∈ rel, "**/" ++ name ∈ splitLines patterns

namespace StagedContext

/-- The places that copies of declared paths take: that of a path, and below it those to which no
skipped name leads. -/
def Admits (paths : List String) (rel : List String) : Prop :=
  ∃ path ∈ paths, ∃ below, Kept skippedNames below ∧ rel = placeOf path ++ below

/-- The file for the engine has a pattern for each name that copies skip, and no other. -/
theorem ignores_iff {rel : List String} : Ignores ignoreText rel ↔ ¬ Kept skippedNames rel := by
  have hlines : splitLines ignoreText = skippedNames.map fun name => "**/" ++ name := by
    decide +kernel
  have hline : ∀ name, "**/" ++ name ∈ splitLines ignoreText ↔ name ∈ skippedNames := by
    intro name
    rw [hlines, List.mem_map]
    constructor
    · rintro ⟨other, hother, heq⟩
      rwa [← (String.append_right_inj "**/").mp heq]
    · exact fun hname => ⟨name, hname, rfl⟩
  simp only [Ignores, hline, Kept, not_forall, not_not, exists_prop]

/-- A place that a copy takes is ignored exactly where the declared path itself is. -/
theorem Admits.not_kept_iff {paths rel : List String} (h : Admits paths rel) :
    ¬ Kept skippedNames rel ↔
      ∃ path ∈ paths, placeOf path <+: rel ∧ ¬ Kept skippedNames (placeOf path) := by
  constructor
  · intro hrel
    obtain ⟨path, hpath, below, hbelow, rfl⟩ := h
    exact ⟨path, hpath, List.prefix_append _ _,
      fun hplace => hrel (kept_append_iff.mpr ⟨hplace, hbelow⟩)⟩
  · rintro ⟨path, -, ⟨below, rfl⟩, hplace⟩ hrel
    exact hplace (kept_append_iff.mp hrel).1

end StagedContext

/-- A location that is being filled with files at admitted places only. -/
structure FileTree.Admitting (t : FileTree) (loc : Location) (paths : List String) : Prop where
  ground : t.Ground loc
  admits : ∀ rel bytes, t.node? (loc ++ rel) = some (.file bytes) → Admits paths rel

-- ════════════════════════════════════════════════════════════════════════
-- Copies
-- ════════════════════════════════════════════════════════════════════════

namespace FileTree.Admitting

variable {t t' : FileTree} {root loc : Location} {paths : List String}
  (h : t.Admitting loc paths) {rest : List String} (hrest : ∀ name ∈ rest, IsName name)

include h

theorem of_sameFiles (hground : t'.Ground loc) (hsame : t.SameFiles t') :
    t'.Admitting loc paths :=
  ⟨hground, fun rel bytes hfile => h.admits rel bytes (hsame.node?_file hfile)⟩

include hrest

theorem makeDirectory (hm : t.makeDirectory [] (Path.ofLocation (loc ++ rest)) = .ok t') :
    t'.Admitting loc paths :=
  h.of_sameFiles (h.ground.makeDirectory_grownAt hrest hm).ground (sameFiles_makeDirectory hm)

theorem makeDirectoriesPartly {cwd : Location}
    (hm : t.makeDirectoriesPartly cwd (Path.ofLocation (loc ++ rest)) = (t', none)) :
    t'.Admitting loc paths := by
  have hsame := sameFiles_makeDirectoriesPartly t cwd (Path.ofLocation (loc ++ rest))
  rw [hm] at hsame
  exact h.of_sameFiles (h.ground.makeDirectoriesPartly_eq_ok hrest hm).ground hsame

/-- A file is copied to its own place, and nothing else changes. -/
theorem copyFile (hadmits : Admits paths rest) {source : Path}
    (hc : t.copyFile source (Path.ofLocation (loc ++ rest)) = .ok t') : t'.Admitting loc paths := by
  obtain ⟨bytes, -, -, hput, hground⟩ := h.ground.copyFile_eq_ok hrest hc
  refine ⟨hground, fun rel held hfile => ?_⟩
  by_cases hsame : rel = rest
  · rwa [hsame]
  · rw [hput, node?_put_of_ne _ fun heq => hsame (List.append_cancel_left heq)] at hfile
    exact h.admits rel held hfile

/-- The copy of a directory goes down by names that are not skipped. -/
theorem copyDirectory (hadmits : Admits paths rest) {depth : Nat} {failed : Bool}
    (hc : copyDirectoryFrom skippedNames depth t (Path.ofLocation (root ++ rest))
      (Path.ofLocation (loc ++ rest)) = .ok (t', failed)) : t'.Admitting loc paths := by
  refine copyDirectoryFrom_induction (fun t => t.Admitting loc paths)
    (fun rest => (∀ name ∈ rest, IsName name) ∧ Admits paths rest)
    (fun _ hdone => hdone.ground.sound) ?_ (fun _ _ _ hdone hbelow => hdone.makeDirectory hbelow.1)
    (fun _ _ _ hdone hbelow => hdone.copyFile hbelow.1 hbelow.2) depth h ⟨hrest, hadmits⟩ hc
  rintro _ name ⟨hnames, path, hpath, below, hbelow, rfl⟩ hname hkept
  refine ⟨isName_concat hnames hname, path, hpath,
    below ++ [name], kept_append_iff.mpr ⟨hbelow, by simpa [Kept] using hkept⟩, ?_⟩
  rw [List.append_assoc]

end FileTree.Admitting

section

variable {root loc : Location} {paths : List String} {host : Host} {w w' : World}

/-- A source that is copied fills its own place, and those below it. -/
theorem StagedContext.admitting_copySource (h : w.files.Admitting loc paths) {path : String}
    (hpath : path ∈ paths) (hinside : staysInside path = true)
    (hc : copySource (Path.ofLocation (root ++ placeOf path))
      (Path.ofLocation (loc ++ placeOf path)) host w = (.ok (), w')) :
    w'.files.Admitting loc paths := by
  have hnames := isName_placeOf hinside
  have hadmits : Admits paths (placeOf path) :=
    ⟨path, hpath, [], kept_nil _, (List.append_nil _).symm⟩
  obtain ⟨made, hmade, hcopying⟩ := copySource_eq_ok (placeOf_ne_nil hinside) hc
  have hstart := h.makeDirectoriesPartly (isName_dropLast hnames) hmade
  rcases hcopying with ⟨-, hcopied⟩ | ⟨-, hcopied⟩
  · exact hstart.copyDirectory hnames hadmits (copyDirectory_eq_none hcopied)
  · exact hstart.copyFile hnames hadmits hcopied

/-- Sources that are copied one after the other fill admitted places only. -/
theorem StagedContext.admitting_copySources
    (hinside : ∀ path ∈ paths, staysInside path = true) (h : w.files.Admitting loc paths)
    (hc : copySources root loc (paths.map (pathUnder root)) host w = (.ok (), w')) :
    w'.files.Admitting loc paths := by
  refine copySources_induction (fun _ w => w.files.Admitting loc paths) hinside ?_ h hc
  intro _ path _ _ hpath hadmitting hcopied
  exact admitting_copySource hadmitting hpath (hinside path hpath) hcopied

end

/-- The sources alone: the scratch directory, which was empty, has files at admitted places. -/
theorem Spec.admitting_of_stageSources {spec : Spec} (hspec : spec.StaysInside) {sourceRoot : Path}
    {host : Host} {w w' : World} (hw : w.Sound host) {loc : Location}
    (hs : spec.stageSources sourceRoot host w = (.ok loc, w')) :
    w'.files.Admitting loc spec.build.sources.paths := by
  obtain ⟨root, n, -, -, rfl, hfree, hcopies⟩ := Spec.stageSources_eq_ok hs
  refine admitting_copySources hspec ⟨hw.ground hfree, ?_⟩ hcopies
  intro rel bytes hfile
  rw [node?_put_directory hfree (by simp [Act.scratchPlace])] at hfile
  split at hfile <;> cases hfile

-- ════════════════════════════════════════════════════════════════════════
-- The source files of a context
-- ════════════════════════════════════════════════════════════════════════

/-- The file for the engine stands in each context, and its patterns leave out a staged source file
exactly where a declared path at or above that file has a component that copies skip. -/
theorem Spec.contextFiles_ignored_iff {spec : Spec} (hspec : spec.Accepted) {sourceRoot : Path}
    {host : Host} {w : World} (hw : w.Sound host) {context : StagedContext} {t : FileTree}
    (hyield : (spec.contextFiles sourceRoot host w).1 = .ok (context, t)) :
    ∃ patterns, t.file? (context.location ++ [ignoreFileName]) = some (utf8Bytes patterns) ∧
      ∀ rel bytes, rel ≠ [Dockerfile.fileName] → rel ≠ [ignoreFileName] →
        t.file? (context.location ++ rel) = some bytes →
          (Ignores patterns rel ↔ ∃ path ∈ spec.build.sources.paths,
            placeOf path <+: rel ∧ ¬ Kept skippedNames (placeOf path)) := by
  obtain ⟨w', hstage, rfl⟩ := contextFiles_eq_ok_iff.mp hyield
  obtain ⟨-, staged, hsources, hfilled⟩ := stage_eq_ok hspec.staysInside hw.grounded hstage
  refine ⟨ignoreText, file?_eq_some_iff.mpr hfilled.node?_ignoreFile, ?_⟩
  intro rel bytes hdockerfile hignore hfile
  rw [file?_eq_some_iff, hfilled.node?_of_ne (by simp [hdockerfile, hignore])] at hfile
  rw [ignores_iff]
  have hadmitting := admitting_of_stageSources hspec.staysInside hw hsources
  exact (hadmitting.admits rel bytes hfile).not_kept_iff

/-- A file below one of the stock sources is staged, and the engine does not ignore it. -/
theorem Spec.contextFiles_ignored_iff_standard :
    Spec.standard.Accepted ∧ World.leaking.Sound (.replying fun _ => .quiet 0 none) ∧
    ∃ context t patterns,
      (Spec.standard.contextFiles (.ofText ".") (.replying fun _ => .quiet 0 none)
        World.leaking).1 = .ok (context, t) ∧
      t.file? (context.location ++ ["src", "key"]) = some (utf8Bytes "secret") ∧
      t.file? (context.location ++ [ignoreFileName]) = some (utf8Bytes patterns) ∧
      ¬ Ignores patterns ["src", "key"] := by
  have hsound := World.sound_leaking fun _ => .quiet 0 none
  obtain ⟨context, t, hyields, hfile⟩ := World.yields_leaking
  obtain ⟨patterns, hpatterns, hall⟩ :=
    contextFiles_ignored_iff Spec.accepted_standard hsound hyields
  refine ⟨Spec.accepted_standard, hsound, context, t, patterns, hyields, hfile, hpatterns, ?_⟩
  rw [hall _ _ (by decide) (by decide) hfile]
  have hkept : ∀ path ∈ Spec.standard.build.sources.paths, Kept skippedNames (placeOf path) := by
    decide +kernel
  rintro ⟨path, hpath, -, hskipped⟩
  exact hskipped (hkept path hpath)

/-- A specification that declares a directory with a name that copies skip. -/
def ignoredSpec : Spec := Spec.standard.withPaths ["target"]

/-- A world in whose source directory that directory holds a file. -/
def World.targeted : World :=
  { World.stocked with
    files := ⟨[(["tmp"], .directory), (["work"], .directory), (["work", "target"], .directory),
      (["work", "target", "a.txt"], .file (utf8Bytes "x"))]⟩ }

/-- The declared file is staged, and the file for the engine next to it leaves it out. -/
theorem Spec.contextFiles_ignored :
    ignoredSpec.Accepted ∧ World.targeted.Sound (.replying fun _ => .quiet 0 none) ∧
    ∃ context t patterns,
      (ignoredSpec.contextFiles (.ofText ".") (.replying fun _ => .quiet 0 none)
        World.targeted).1 = .ok (context, t) ∧
      t.file? (context.location ++ ["target", "a.txt"]) = some (utf8Bytes "x") ∧
      t.file? (context.location ++ [ignoreFileName]) = some (utf8Bytes patterns) ∧
      Ignores patterns ["target", "a.txt"] := by
  have haccepted : ignoredSpec.Accepted :=
    Spec.accepted_of_parse
      (.obj [("build", .obj [("sources", .obj [("paths", .arr [.str "target"])])])])
      (by decide +kernel)
  have hsound : World.targeted.Sound (.replying fun _ => .quiet 0 none) := by
    decide +kernel
  have hheld : ((ignoredSpec.contextFiles (.ofText ".") (.replying fun _ => .quiet 0 none)
      World.targeted).1.toOption.any fun (context, t) =>
        t.file? (context.location ++ ["target", "a.txt"]) = some (utf8Bytes "x") ∧
        t.file? (context.location ++ [ignoreFileName]) = some (utf8Bytes ignoreText)) = true := by
    decide +kernel
  obtain ⟨⟨context, t⟩, hyields, hfiles⟩ := exists_ok_of_any hheld
  obtain ⟨hfile, hignore⟩ := of_decide_eq_true hfiles
  refine ⟨haccepted, hsound, context, t, ignoreText, hyields, hfile, hignore, ?_⟩
  rw [ignores_iff]
  decide +kernel

end TwoStage

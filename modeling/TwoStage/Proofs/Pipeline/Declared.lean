import Mathlib.Tactic.FinCases
import TwoStage.Proofs.FileTree.Listing
import TwoStage.Proofs.FileTree.Writing
import TwoStage.Proofs.Pipeline.Image
import TwoStage.Proofs.Pipeline.Outcome

/-!
# The declared files

Staging takes the declared files and no others. The files of the context are those that the declared
paths name, those below declared directories but for what is below a skipped name, and the two files
for the engine; and the digest is that of the declared files. So what else the source tree holds
makes no difference.

## Main definitions

- `SourceInput.Declares` — the files that declared paths stand for
- `StagedContext.Exact` — a context with certain declared files and no others
- `Spec.contextFiles` — the context, and the files that an operation inside it finds

## Main statements

- `Spec.staged_iff_declares` — the sources that are staged
- `Spec.contextFiles_exact` — the files of the context and its digest, whatever else there is
-/

namespace TwoStage

open FileTree StagedContext SourceInput

/-- The files that declared paths stand for, with their names seen from the root: files, and what is
below directories, but for what is below a skipped name. -/
inductive SourceInput.Declares (sources : SourceInput) (t : FileTree) (root : Location) :
    List String → ByteArray → Prop
  | file {path bytes} (hpath : path ∈ sources.paths)
      (hfile : t.node? (root ++ placeOf path) = some (.file bytes)) :
      Declares sources t root (placeOf path) bytes
  | below {path rest bytes} (hpath : path ∈ sources.paths)
      (hdirectory : t.node? (root ++ placeOf path) = some .directory)
      (hkept : Kept skippedNames rest)
      (hfile : t.node? (root ++ placeOf path ++ rest) = some (.file bytes)) :
      Declares sources t root (placeOf path ++ rest) bytes

/-- The context that staging yields, with the files as an operation inside it finds them. -/
def Spec.contextFiles (spec : Spec) (sourceRoot : Path) : Act (StagedContext × FileTree) :=
  spec.inContext sourceRoot fun context => do return (context, (← Act.world).files)

/-- A context that holds declared files and the two for the engine, and nothing else; its digest
lists the declared files. -/
structure StagedContext.Exact (context : StagedContext) (t : FileTree) (spec : Spec)
    (declared : List String → ByteArray → Prop) : Prop where
  dockerfile : t.file? (context.location ++ [Dockerfile.fileName]) =
    some (utf8Bytes (Dockerfile.text (Dockerfile.twoStage spec)))
  ignoreFile : t.file? (context.location ++ [ignoreFileName]) = some (utf8Bytes ignoreText)
  others : ∀ rel, rel ≠ [Dockerfile.fileName] → rel ≠ [ignoreFileName] → ∀ bytes,
    t.file? (context.location ++ rel) = some bytes ↔ declared rel bytes
  digest : ∃ listing, Lists listing declared ∧
    context.sourceDigest = sha256 (digestInput listing)

-- ════════════════════════════════════════════════════════════════════════
-- Declared files and names that are reached
-- ════════════════════════════════════════════════════════════════════════

/-- The declared files are those that copies reach. -/
theorem SourceInput.declares_iff {sources : SourceInput} {t : FileTree} (ht : t.Sound)
    {root : Location}
    (hthere : ∀ path ∈ sources.paths, ∃ node, t.node? (root ++ placeOf path) = some node)
    (hroot : t.node? root = some .directory) {rel : List String} {bytes : ByteArray} :
    sources.Declares t root rel bytes ↔
      Reached (sources.paths.map placeOf) rel ∧ t.node? (root ++ rel) = some (.file bytes) := by
  constructor
  · rintro (⟨hpath, hfile⟩ | ⟨hpath, -, hkept, hfile⟩)
    · exact ⟨Or.inr ⟨_, List.mem_map_of_mem hpath, Or.inl (List.prefix_refl _)⟩, hfile⟩
    · rw [List.append_assoc] at hfile
      exact ⟨Or.inr ⟨_, List.mem_map_of_mem hpath, Or.inr ⟨_, hkept, rfl⟩⟩, hfile⟩
  · rintro ⟨rfl | ⟨place, hplace, hrel⟩, hfile⟩
    · rw [List.append_nil, hroot] at hfile
      cases hfile
    · obtain ⟨path, hpath, rfl⟩ := List.mem_map.mp hplace
      obtain ⟨node, hnode⟩ := hthere path hpath
      rcases hrel with hway | ⟨rest, hkept, rfl⟩
      · -- on the way to a declared path stand directories
        by_cases hsame : rel = placeOf path
        · rw [hsame] at hfile ⊢
          exact .file hpath hfile
        · have hbefore : root ++ rel <+: root ++ placeOf path :=
            (List.prefix_append_right_inj root).mpr hway
          rw [ht.leads hbefore (fun heq => hsame (List.append_cancel_left heq)) hnode] at hfile
          cases hfile
      · by_cases hrest : rest = []
        · rw [hrest, List.append_nil] at hfile ⊢
          exact .file hpath hfile
        · rw [← List.append_assoc] at hfile
          exact .below hpath (ht.leads_append rest hrest hfile) hkept hfile

-- ════════════════════════════════════════════════════════════════════════
-- The sources that are staged
-- ════════════════════════════════════════════════════════════════════════

/-- The sources alone: the declared files stand in the scratch directory, and no others. -/
theorem Spec.staged_iff_declares {spec : Spec} (hspec : spec.StaysInside)
    (hpaths : spec.build.sources.paths ≠ []) {sourceRoot : Path} {host : Host} {w w' : World}
    {root loc : Location} (h : spec.Stageable host w sourceRoot root)
    (hs : spec.stageSources sourceRoot host w = (.ok loc, w')) (rel : List String)
    (bytes : ByteArray) :
    w'.files.node? (loc ++ rel) = some (.file bytes) ↔
      spec.build.sources.Declares w.files root rel bytes := by
  obtain ⟨hstart, hmirror⟩ := mirrors_of_stageSources hspec hpaths h hs
  obtain ⟨n, hthere, rfl, hfree, -⟩ := h.stageSources_eq_ok hs
  have hroot : w.files.node? root = some .directory := by
    have hground := hstart.groundRoot.directory
    by_cases hsame : root = Act.scratchPlace host "lspib-context-" n
    · obtain ⟨path, hpath⟩ := List.exists_mem_of_ne_nil _ hpaths
      exact absurd (hsame ▸ List.prefix_refl _)
        (hstart.sources _ (List.mem_map_of_mem hpath)).root_apart
    · rwa [node?_put_of_ne _ hsame] at hground
  -- making the scratch directory makes no file
  have hfile : (w.files.put (Act.scratchPlace host "lspib-context-" n) .directory).node?
      (root ++ rel) = some (.file bytes) ↔ w.files.node? (root ++ rel) = some (.file bytes) := by
    have hne : Act.scratchPlace host "lspib-context-" n ≠ [] := by simp [Act.scratchPlace]
    by_cases hsame : root ++ rel = Act.scratchPlace host "lspib-context-" n
    · rw [hsame, node?_put_self _ hne, node?_of_isFree hfree hne (List.prefix_refl _)]
      simp
    · rw [node?_put_of_ne _ hsame]
  rw [declares_iff h.sound.files
    (fun path hpath => h.exists_node hspec hpath (hthere path hpath)) hroot]
  by_cases hreached : Reached spec.places rel
  · rw [hmirror.same rel hreached, hfile]
    exact (and_iff_right hreached).symm
  · rw [hmirror.beyond rel hreached]
    exact ⟨fun hnone => (by cases hnone), fun hdeclared => absurd hdeclared.1 hreached⟩

/-- Staging that yields a context is staging that succeeds. -/
theorem Spec.contextFiles_eq_ok_iff {spec : Spec} {sourceRoot : Path} {host : Host} {w : World}
    {context : StagedContext} {t : FileTree} :
    (spec.contextFiles sourceRoot host w).1 = .ok (context, t) ↔
      ∃ w', spec.stage sourceRoot host w = (.ok context, w') ∧ w'.files = t := by
  rw [contextFiles]
  constructor
  · intro h
    cases hstage : spec.stage sourceRoot host w with
    | mk result w' =>
      cases result with
      | error e =>
        rw [inContext_of_stage_error _ hstage] at h
        cases h
      | ok staged =>
        rw [inContext_of_stage _ hstage] at h
        cases h
        exact ⟨w', rfl, rfl⟩
  · rintro ⟨w', hstage, rfl⟩
    rw [inContext_of_stage _ hstage]
    rfl

/-- What staging yields: the declared files and those for the engine, with the digest of the declared
ones. -/
theorem Spec.exact_of_contextFiles {spec : Spec} (hspec : spec.StaysInside)
    (hpaths : spec.build.sources.paths ≠ []) {sourceRoot : Path} {host : Host} {w : World}
    {root : Location} (h : spec.Stageable host w sourceRoot root)
    {context : StagedContext} {t : FileTree}
    (hyield : (spec.contextFiles sourceRoot host w).1 = .ok (context, t)) :
    context.Exact t spec (spec.build.sources.Declares w.files root) := by
  obtain ⟨w', hstage, rfl⟩ := contextFiles_eq_ok_iff.mp hyield
  obtain ⟨-, staged, hsources, hfilled⟩ := stage_eq_ok hspec h.sound.grounded hstage
  have hdeclared := staged_iff_declares hspec hpaths h hsources
  have hmirror := (mirrors_of_stageSources hspec hpaths h hsources).2
  refine ⟨file?_eq_some_iff.mpr hfilled.node?_dockerfile,
    file?_eq_some_iff.mpr hfilled.node?_ignoreFile, fun rel hdockerfile hignore bytes => ?_, ?_⟩
  · rw [file?_eq_some_iff, hfilled.node?_of_ne (by simp [hdockerfile, hignore]), hdeclared]
  · refine ⟨staged.files.sortedFilesBelow context.location, ?_, hfilled.digest⟩
    have hlists := hmirror.ground.sound.lists hmirror.ground.directory
    exact ⟨hlists.sorted, fun name bytes => by simp only [hlists.mem_iff, hdeclared]⟩

namespace StagedContext.Exact

variable {context context' : StagedContext} {t t' : FileTree} {spec spec' : Spec}
  {declared declared' : List String → ByteArray → Prop} (h : context.Exact t spec declared)
  (h' : context'.Exact t' spec' declared')
  (hsame : ∀ rel bytes, declared' rel bytes ↔ declared rel bytes)

include h h' hsame

/-- Contexts with the same declared files have the same digest. -/
theorem digest_eq : context'.sourceDigest = context.sourceDigest := by
  obtain ⟨listing, hlisting, hdigest⟩ := h.digest
  obtain ⟨listing', hlisting', hdigest'⟩ := h'.digest
  rw [hdigest', hdigest, hlisting'.unique hlisting hsame]

/-- They hold the same files, but for those that are written for the engine. -/
theorem file?_eq {rel : List String} (hdockerfile : rel ≠ [Dockerfile.fileName])
    (hignore : rel ≠ [ignoreFileName]) :
    t'.file? (context'.location ++ rel) = t.file? (context.location ++ rel) := by
  ext bytes
  rw [h'.others rel hdockerfile hignore, h.others rel hdockerfile hignore, hsame]

end StagedContext.Exact

-- ════════════════════════════════════════════════════════════════════════
-- A source tree with more than the declared files
-- ════════════════════════════════════════════════════════════════════════

/-- A world whose working directory holds the sources of the stock pipeline, build products among
them, and a file that is not declared. -/
def World.nested : World :=
  { World.stocked with
    files := ⟨[(["tmp"], .directory), (["work"], .directory), (["work", "src"], .directory),
      (["work", "src", "main.rs"], .file (utf8Bytes "fn main() {}")),
      (["work", "src", "target"], .directory),
      (["work", "src", "target", "out"], .file (utf8Bytes "old")),
      (["work", "build.rs"], .file .empty), (["work", "Cargo.toml"], .file .empty),
      (["work", "notes"], .file (utf8Bytes "todo"))]⟩ }

/-- Where no entry is a link, nothing that stands anywhere is one. -/
theorem FileTree.node?_ne_link {t : FileTree} (h : ∀ entry ∈ t.entries, ∀ target,
    entry.2 ≠ .link target) (loc : Location) (target : String) :
    t.node? loc ≠ some (.link target) := by
  intro hlink
  cases loc with
  | nil => cases hlink
  | cons name rest => exact h _ (mem_entries_of_node? (List.cons_ne_nil _ _) hlink) target rfl

theorem World.sound_nested (reply : Command → Reply) : World.nested.Sound (.replying reply) := by
  refine ⟨⟨by decide +kernel, ?_, by decide +kernel⟩, rfl, rfl⟩
  intro entry hentry
  fin_cases hentry <;> exact ⟨by simp, rfl⟩

/-- In the small worlds scratch directories are made outside of the working directory. -/
theorem Spec.stageable_of_sound {spec : Spec} {reply : Command → Reply} {w : World}
    (h : w.Sound (.replying reply)) (hlink : ∀ entry ∈ w.files.entries, ∀ target,
      entry.2 ≠ .link target) :
    spec.Stageable (.replying reply) w (.ofText ".") ["work"] := by
  refine ⟨h, rfl, h.files.linkless h.cwd, fun rest target => node?_ne_link hlink _ _,
    fun place _ => Or.inr ?_⟩
  intro hscratch
  exact absurd (List.cons_prefix_cons.mp hscratch).1 (by decide)

theorem Spec.stageable_nested (spec : Spec) (reply : Command → Reply) :
    spec.Stageable (.replying reply) World.nested (.ofText ".") ["work"] := by
  refine stageable_of_sound (World.sound_nested reply) fun entry hentry target => ?_
  fin_cases hentry <;> simp

/-- A file that is declared is the file of a declared path, or stands below one where nothing is
skipped. -/
theorem SourceInput.Declares.exists_path {sources : SourceInput} {t : FileTree} {root : Location}
    {rel : List String} {bytes : ByteArray} (h : sources.Declares t root rel bytes) :
    ∃ path ∈ sources.paths, ∃ rest, Kept skippedNames rest ∧ rel = placeOf path ++ rest := by
  cases h with
  | file hpath hfile => exact ⟨_, hpath, [], kept_nil _, (List.append_nil _).symm⟩
  | below hpath hdirectory hkept hfile => exact ⟨_, hpath, _, hkept, rfl⟩

-- ════════════════════════════════════════════════════════════════════════
-- The files of the context
-- ════════════════════════════════════════════════════════════════════════

/-- Staging takes exactly the declared files. The files of the context are those, with their bytes,
and the two for the engine; the digest is that of the declared files; and so a world that has the
same declared files yields the same context, whatever else is in it. -/
theorem Spec.contextFiles_exact {spec : Spec} (hspec : spec.Accepted) {sourceRoot : Path}
    {host : Host} {w : World} {root : Location} (h : spec.Stageable host w sourceRoot root)
    {context : StagedContext} {t : FileTree}
    (hyield : (spec.contextFiles sourceRoot host w).1 = .ok (context, t)) :
    context.Exact t spec (spec.build.sources.Declares w.files root) ∧
    ∀ sourceRoot' host' w' root' context' t', spec.Stageable host' w' sourceRoot' root' →
      (spec.contextFiles sourceRoot' host' w').1 = .ok (context', t') →
      (∀ rel bytes, spec.build.sources.Declares w'.files root' rel bytes ↔
        spec.build.sources.Declares w.files root rel bytes) →
      context'.sourceDigest = context.sourceDigest ∧
        ∀ rel, t'.file? (context'.location ++ rel) = t.file? (context.location ++ rel) := by
  have hexact := exact_of_contextFiles hspec.staysInside hspec.paths_ne_nil h hyield
  refine ⟨hexact, ?_⟩
  intro sourceRoot' host' w' root' context' t' h' hyield' hsame
  have hexact' := exact_of_contextFiles hspec.staysInside hspec.paths_ne_nil h' hyield'
  refine ⟨hexact.digest_eq hexact' hsame, fun rel => ?_⟩
  by_cases hdockerfile : rel = [Dockerfile.fileName]
  · rw [hdockerfile, hexact'.dockerfile, hexact.dockerfile]
  · by_cases hignore : rel = [ignoreFileName]
    · rw [hignore, hexact'.ignoreFile, hexact.ignoreFile]
    · exact hexact.file?_eq hexact' hsame hdockerfile hignore

/-- The file in the source directory is in the context, with its bytes, and what was built there is
not, nor is the file that is not declared. -/
theorem Spec.contextFiles_exact_nested :
    Spec.standard.Accepted ∧
    Spec.standard.Stageable (.replying fun _ => .quiet 0 none) World.nested (.ofText ".") ["work"] ∧
    ∃ context t,
      (Spec.standard.contextFiles (.ofText ".") (.replying fun _ => .quiet 0 none)
        World.nested).1 = .ok (context, t) ∧
      t.file? (context.location ++ ["src", "main.rs"]) = some (utf8Bytes "fn main() {}") ∧
      t.file? (context.location ++ ["src", "target", "out"]) = none ∧
      t.file? (context.location ++ ["notes"]) = none := by
  have hstageable := Spec.stageable_nested Spec.standard fun _ => .quiet 0 none
  have hyields : (Spec.standard.contextFiles (.ofText ".") (.replying fun _ => .quiet 0 none)
      World.nested).1.isOk = true := by decide +kernel
  cases hyield : (Spec.standard.contextFiles (.ofText ".") (.replying fun _ => .quiet 0 none)
      World.nested).1 with
  | error e =>
    rw [hyield] at hyields
    cases hyields
  | ok made =>
    obtain ⟨context, t⟩ := made
    have hfiles := (contextFiles_exact Spec.accepted_standard hstageable hyield).1.others
    have habsent : ∀ rel, rel ∈ [["src", "target", "out"], ["notes"]] →
        t.file? (context.location ++ rel) = none := by
      intro rel hrel
      rw [Option.eq_none_iff_forall_ne_some]
      intro bytes hbytes
      rw [hfiles rel (by rintro rfl; revert hrel; decide)
        (by rintro rfl; revert hrel; decide)] at hbytes
      obtain ⟨path, hpath, rest, hkept, rfl⟩ := hbytes.exists_path
      have hplace : placeOf path ∈ [["src"], ["build.rs"], ["Cargo.toml"]] :=
        List.mem_map_of_mem hpath
      generalize placeOf path = place at hrel hplace
      simp only [List.mem_cons, List.not_mem_nil, or_false] at hplace
      rcases hplace with rfl | rfl | rfl
      · obtain rfl : rest = ["target", "out"] := by simpa using hrel
        exact absurd (hkept "target" (by simp)) (by decide)
      · simp at hrel
      · simp at hrel
    have hdeclared : Spec.standard.build.sources.Declares World.nested.files ["work"]
        (placeOf "src" ++ ["main.rs"]) (utf8Bytes "fn main() {}") :=
      .below (by decide) rfl (by decide) rfl
    refine ⟨Spec.accepted_standard, hstageable, context, t, rfl, ?_, habsent _ (by simp),
      habsent _ (by simp)⟩
    exact (hfiles _ (by decide) (by decide) _).mpr hdeclared

end TwoStage

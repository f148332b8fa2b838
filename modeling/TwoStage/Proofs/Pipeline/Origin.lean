import TwoStage.Proofs.FileTree.Ways
import TwoStage.Proofs.Pipeline.Declared
import TwoStage.Proofs.Pipeline.Delivery

/-!
# Where staged files come from

A staged file is a copy of what its own name leads to below the source root, with links followed.
This stands inside the root, unless a link on the way leads out of it: declared paths may not go up,
but nothing keeps the links in the source tree from doing so.

## Main definitions

- `CopyOf` — what the bytes of a staged file are a copy of
- `FileTree.Traced` — a location that is being filled with copies

## Main statements

- `FileTree.Traced.copyFile`, `FileTree.Traced.copyDirectoryFrom` — what one copy adds
- `Spec.contextFiles_traced` — the source files of a context
-/

namespace TwoStage

open FileTree StagedContext SourceInput

/-- What a staged file is a copy of: its name is resolved below the root to a file of the tree, or
to a file that was staged before. This stands inside the root, unless a link on the way leads out. -/
inductive CopyOf (t : FileTree) (root loc : Location) : List String → ByteArray → Prop
  | ofFile {rel place bytes}
      (hresolves : t.resolve [] (Path.ofLocation (root ++ rel)) = .ok place)
      (hunder : t.Inside root place ∨ t.Escapes root rel)
      (hfile : t.node? place = some (.file bytes)) : CopyOf t root loc rel bytes
  | ofCopy {rel staged bytes}
      (hresolves : t.resolve [] (Path.ofLocation (root ++ rel)) = .ok (loc ++ staged))
      (hunder : t.Inside root (loc ++ staged) ∨ t.Escapes root rel)
      (hcopy : CopyOf t root loc staged bytes) : CopyOf t root loc rel bytes

/-- A tree in which a location is being filled that was free in another one, with copies. -/
structure FileTree.Traced (t₀ t : FileTree) (root loc : Location) : Prop where
  filled : t₀.FilledAt t loc
  copies : ∀ rel bytes, t.node? (loc ++ rel) = some (.file bytes) → CopyOf t₀ root loc rel bytes

-- ════════════════════════════════════════════════════════════════════════
-- Copies
-- ════════════════════════════════════════════════════════════════════════

namespace FileTree.Traced

variable {t₀ t t' : FileTree} {root loc : Location} (h : t₀.Traced t root loc)
  {rest : List String} (hrest : ∀ name ∈ rest, IsName name)

include h

/-- What touches no file adds no copy. -/
theorem of_sameFiles (hfilled : t₀.FilledAt t' loc) (hsame : t.SameFiles t') :
    t₀.Traced t' root loc :=
  ⟨hfilled, fun rel bytes hfile => h.copies rel bytes (hsame.node?_file hfile)⟩

include hrest

/-- What is read below the root is a file of the tree, or a copy that was made before. -/
theorem copyOf_read {bytes : ByteArray}
    (hread : t.read [] (Path.ofLocation (root ++ rest)) = .ok bytes) :
    CopyOf t₀ root loc rest bytes := by
  obtain ⟨place, hwalk⟩ := read_eq_ok_iff_walk.mp hread
  obtain ⟨hresolves, hunder⟩ := h.filled.sameLinks.walk_under (plain_of_isName hrest) hwalk
  have hfile : t.node? place = some (.file bytes) := stands_of_walk hwalk
  by_cases hbelow : loc <+: place
  · obtain ⟨staged, rfl⟩ := hbelow
    exact .ofCopy hresolves hunder (h.copies staged bytes hfile)
  · rw [h.filled.node?_elsewhere hbelow] at hfile
    exact .ofFile hresolves hunder hfile

/-- A file that is copied to its place is a copy of what its name leads to. -/
theorem copyFile
    (hc : t.copyFile (Path.ofLocation (root ++ rest)) (Path.ofLocation (loc ++ rest)) = .ok t') :
    t₀.Traced t' root loc := by
  obtain ⟨bytes, hread, -, hput, -⟩ := h.filled.ground.copyFile_eq_ok hrest hc
  refine ⟨h.filled.copyFile hrest hc, fun rel held hfile => ?_⟩
  rw [hput] at hfile
  by_cases hsame : rel = rest
  · subst hsame
    by_cases hnil : loc ++ rel = []
    · rw [hnil] at hfile
      cases hfile
    · rw [node?_put_self _ hnil] at hfile
      cases hfile
      exact h.copyOf_read hrest hread
  · rw [node?_put_of_ne _ fun heq => hsame (List.append_cancel_left heq)] at hfile
    exact h.copies rel held hfile

/-- A directory is made for copies. -/
theorem makeDirectory
    (hm : t.makeDirectory [] (Path.ofLocation (loc ++ rest)) = .ok t') : t₀.Traced t' root loc :=
  h.of_sameFiles (h.filled.makeDirectory hrest hm) (sameFiles_makeDirectory hm)

/-- The directories above a place are made for copies. -/
theorem makeDirectoriesPartly {cwd : Location}
    (hm : t.makeDirectoriesPartly cwd (Path.ofLocation (loc ++ rest)) = (t', none)) :
    t₀.Traced t' root loc := by
  have hsame := sameFiles_makeDirectoriesPartly t cwd (Path.ofLocation (loc ++ rest))
  rw [hm] at hsame
  exact h.of_sameFiles (h.filled.makeDirectoriesPartly hrest hm) hsame

/-- A directory that is copied to its place adds copies at every level: one name after the other, a
directory as a whole or a file, and nothing for what is refused. -/
theorem copyDirectoryFrom {skipped : List String} (depth : Nat) {failed : Bool}
    (hc : copyDirectoryFrom skipped depth t (Path.ofLocation (root ++ rest))
      (Path.ofLocation (loc ++ rest)) = .ok (t', failed)) : t₀.Traced t' root loc := by
  refine copyDirectoryFrom_induction (fun t => t₀.Traced t root loc)
    (fun rest => ∀ name ∈ rest, IsName name) (fun _ hdone => hdone.filled.ground.sound) ?_
    (fun _ _ _ hdone hbelow => hdone.makeDirectory hbelow)
    (fun _ _ _ hdone hbelow => hdone.copyFile hbelow) depth h hrest hc
  exact fun _ name hnames hname _ => isName_concat hnames hname

end FileTree.Traced

section

variable {t₀ : FileTree} {root loc : Location} {host : Host} {w w' : World}

/-- A source that is copied adds copies. -/
theorem StagedContext.traced_copySource (h : t₀.Traced w.files root loc)
    {place : List String} (hnames : ∀ name ∈ place, IsName name) (hne : place ≠ [])
    (hc : copySource (Path.ofLocation (root ++ place)) (Path.ofLocation (loc ++ place)) host w =
      (.ok (), w')) : t₀.Traced w'.files root loc := by
  obtain ⟨made, hmade, hcopying⟩ := copySource_eq_ok hne hc
  have hstart := h.makeDirectoriesPartly (isName_dropLast hnames) hmade
  rcases hcopying with ⟨-, hcopied⟩ | ⟨-, hcopied⟩
  · exact hstart.copyDirectoryFrom hnames _ (copyDirectory_eq_none hcopied)
  · exact hstart.copyFile hnames hcopied

/-- Sources that are copied one after the other add copies. -/
theorem StagedContext.traced_copySources {paths : List String}
    (hpaths : ∀ path ∈ paths, staysInside path = true) (h : t₀.Traced w.files root loc)
    (hc : copySources root loc (paths.map (pathUnder root)) host w = (.ok (), w')) :
    t₀.Traced w'.files root loc := by
  refine copySources_induction (fun _ w => t₀.Traced w.files root loc) hpaths ?_ h hc
  intro _ path _ _ hpath htraced hfirst
  have hinside := hpaths path hpath
  exact traced_copySource htraced (isName_placeOf hinside) (placeOf_ne_nil hinside) hfirst

end

/-- The sources alone: all files in the scratch directory are copies. -/
theorem Spec.traced_of_stageSources {spec : Spec} (hspec : spec.StaysInside) {sourceRoot : Path}
    {host : Host} {w w' : World} (hw : w.Sound host) {root : Location}
    (hresolves : w.files.resolve host.cwd sourceRoot = .ok root) {loc : Location}
    (hs : spec.stageSources sourceRoot host w = (.ok loc, w')) :
    w.files.Traced w'.files root loc := by
  obtain ⟨root', n, hresolved, -, rfl, hfree, hcopies⟩ := Spec.stageSources_eq_ok hs
  obtain rfl : root' = root := Except.ok.inj (hresolved.symm.trans hresolves)
  refine traced_copySources hspec ?_ hcopies
  refine ⟨hw.filledAt hfree, fun rel bytes hfile => ?_⟩
  -- the directory that is made is empty
  rw [node?_put_directory hfree (by simp [Act.scratchPlace])] at hfile
  split at hfile <;> cases hfile

-- ════════════════════════════════════════════════════════════════════════
-- The source files of a context
-- ════════════════════════════════════════════════════════════════════════

/-- Each source file of a context is a copy of what its own name leads to below the source root.
That stands inside the root, unless a link on the way leads out of it. -/
theorem Spec.contextFiles_traced {spec : Spec} (hspec : spec.Accepted) {sourceRoot : Path}
    {host : Host} {w : World} (hw : w.Sound host) {root : Location}
    (hresolves : w.files.resolve host.cwd sourceRoot = .ok root) {context : StagedContext}
    {t : FileTree} (hyield : (spec.contextFiles sourceRoot host w).1 = .ok (context, t))
    {rel : List String} (hdockerfile : rel ≠ [Dockerfile.fileName])
    (hignore : rel ≠ [ignoreFileName]) {bytes : ByteArray}
    (hfile : t.file? (context.location ++ rel) = some bytes) :
    CopyOf w.files root context.location rel bytes := by
  obtain ⟨w', hstage, rfl⟩ := contextFiles_eq_ok_iff.mp hyield
  obtain ⟨-, staged, hsources, hfilled⟩ := stage_eq_ok hspec.staysInside hw.grounded hstage
  rw [file?_eq_some_iff, hfilled.node?_of_ne (by simp [hdockerfile, hignore])] at hfile
  exact (traced_of_stageSources hspec.staysInside hw hresolves hsources).copies rel bytes hfile

/-- A world in whose source directory a link leads to a file beside the source root. -/
def World.leaking : World :=
  { World.stocked with
    files := ⟨[(["tmp"], .directory), (["work"], .directory), (["work", "src"], .directory),
      (["work", "src", "key"], .link "../../key"), (["work", "build.rs"], .file .empty),
      (["work", "Cargo.toml"], .file .empty), (["key"], .file (utf8Bytes "secret"))]⟩ }

theorem World.sound_leaking (reply : Command → Reply) : World.leaking.Sound (.replying reply) := by
  refine ⟨⟨by decide +kernel, ?_, by decide +kernel⟩, rfl, rfl⟩
  intro entry hentry
  fin_cases hentry <;> exact ⟨by simp, rfl⟩

theorem World.yields_leaking : ∃ context t,
    (Spec.standard.contextFiles (.ofText ".") (.replying fun _ => .quiet 0 none) leaking).1 =
      .ok (context, t) ∧
    t.file? (context.location ++ ["src", "key"]) = some (utf8Bytes "secret") := by
  have hheld : ((Spec.standard.contextFiles (.ofText ".") (.replying fun _ => .quiet 0 none)
      leaking).1.toOption.any fun (context, t) =>
        t.file? (context.location ++ ["src", "key"]) = some (utf8Bytes "secret")) = true := by
    decide +kernel
  obtain ⟨⟨context, t⟩, hyields, hfile⟩ := exists_ok_of_any hheld
  exact ⟨context, t, hyields, of_decide_eq_true hfile⟩

/-- The link is followed, and the file that is copied is one beside the root. -/
theorem Spec.contextFiles_traced_leaking :
    Spec.standard.Accepted ∧ World.leaking.Sound (.replying fun _ => .quiet 0 none) ∧
    World.leaking.files.resolve ["work"] (.ofText ".") = .ok ["work"] ∧
    ∃ context t,
      (Spec.standard.contextFiles (.ofText ".") (.replying fun _ => .quiet 0 none)
        World.leaking).1 = .ok (context, t) ∧
      t.file? (context.location ++ ["src", "key"]) = some (utf8Bytes "secret") ∧
      CopyOf World.leaking.files ["work"] context.location ["src", "key"] (utf8Bytes "secret") := by
  have hsound := World.sound_leaking fun _ => .quiet 0 none
  obtain ⟨context, t, hyields, hfile⟩ := World.yields_leaking
  exact ⟨Spec.accepted_standard, hsound, rfl, context, t, hyields, hfile,
    contextFiles_traced Spec.accepted_standard hsound rfl hyields (by decide) (by decide) hfile⟩

/-- No file below the root has the bytes that the context holds there. -/
theorem Spec.contextFiles_unconfined :
    Spec.standard.Accepted ∧ World.leaking.Sound (.replying fun _ => .quiet 0 none) ∧
    World.leaking.files.resolve ["work"] (.ofText ".") = .ok ["work"] ∧
    ∃ context t,
      (Spec.standard.contextFiles (.ofText ".") (.replying fun _ => .quiet 0 none)
        World.leaking).1 = .ok (context, t) ∧
      ∃ bytes, t.file? (context.location ++ ["src", "key"]) = some bytes ∧
        ¬ ∃ place, ["work"] <+: place ∧ World.leaking.files.file? place = some bytes := by
  obtain ⟨context, t, hyields, hfile⟩ := World.yields_leaking
  refine ⟨Spec.accepted_standard, World.sound_leaking _, rfl, context, t, hyields, _, hfile, ?_⟩
  rintro ⟨place, hunder, hplace⟩
  have hne : place ≠ [] := by
    rintro rfl
    exact absurd hunder (by decide)
  have hentry := mem_entries_of_node? hne (file?_eq_some_iff.mp hplace)
  have hapart : ∀ entry ∈ World.leaking.files.entries, ["work"].isPrefixOf entry.1 = true →
      ∀ bytes, entry.2 = .file bytes → bytes = .empty := by
    intro entry hentry hprefix bytes hbytes
    fin_cases hentry <;> simp_all
  have hempty := hapart _ hentry (List.isPrefixOf_iff_prefix.mpr hunder) _ rfl
  exact absurd hempty (by decide +kernel)

end TwoStage

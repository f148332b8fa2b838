import TwoStage.Proofs.Digest
import TwoStage.Proofs.Pipeline.Origin

/-!
# What the digest of a context tells

The digest of a context is that of the files that were staged, by name and bytes. No name of them has
a zero character, since the file system refuses such paths; so the digest tells the set of these
files, unless two of the byte strings that are hashed collide.

## Main definitions

- `Spec.stagedFiles` — the files that are staged, by name and bytes
- `WellNamed` — files in order, with names that the file system takes

## Main statements

- `Spec.digest_of_stagedFiles` — the digest of a context
- `sameDigest_digestInput` — digests agree where the files are the same
-/

namespace TwoStage

open FileTree StagedContext

/-- The files that are staged, by name and bytes. -/
def Spec.stagedFiles (spec : Spec) (sourceRoot : Path) : Act (List (String × ByteArray)) := do
  let loc ← spec.stageSources sourceRoot
  return (← Act.world).files.sortedFilesBelow loc

/-- Files in the order of different names, which the file system takes. -/
structure WellNamed (files : List (String × ByteArray)) : Prop where
  sorted : files.Pairwise fun a b => a.1 < b.1
  noNull : ∀ file ∈ files, '\x00' ∉ file.1.toList

/-- A path with a null character is not resolved. -/
theorem FileTree.null_not_mem_of_resolve {t : FileTree} {cwd place : Location} {p : Path}
    (h : t.resolve cwd p = .ok place) : '\x00' ∉ p.text.toList := by
  intro hmem
  rw [resolve, if_pos (List.contains_iff_mem.mpr hmem)] at h
  cases h

section

variable {spec : Spec} (hspec : spec.StaysInside) {sourceRoot : Path} {host : Host} {w u : World}
  (hw : w.Sound host)

include hspec hw

/-- The files that are staged have names that the file system takes. -/
theorem Spec.wellNamed_of_stageSources {loc : Location}
    (h : spec.stageSources sourceRoot host w = (.ok loc, u)) :
    WellNamed (u.files.sortedFilesBelow loc) := by
  obtain ⟨root, -, hresolves, -⟩ := stageSources_eq_ok h
  have htraced := traced_of_stageSources hspec hw hresolves h
  have hlists := htraced.filled.ground.sound.lists htraced.filled.ground.directory
  refine ⟨hlists.sorted, fun file hfile hnull => ?_⟩
  obtain ⟨rel, hname, hstaged⟩ := (hlists.mem_iff file.1 file.2).mp hfile
  have hresolved : ∃ place, w.files.resolve [] (Path.ofLocation (root ++ rel)) = .ok place := by
    cases htraced.copies rel file.2 hstaged with
    | ofFile hresolved => exact ⟨_, hresolved⟩
    | ofCopy hresolved => exact ⟨_, hresolved⟩
  obtain ⟨place, hresolved⟩ := hresolved
  rw [hname, nameOf] at hnull
  rcases mem_joinWith hnull with hslash | ⟨part, hpart, hnull⟩
  · exact absurd hslash (by decide)
  · exact null_not_mem_of_resolve hresolved
      (Path.mem_text_of_holds ⟨part, List.mem_append_right _ hpart, hnull⟩)

/-- A context that is staged has the digest of the files that are staged for it. -/
theorem Spec.digest_of_stagedFiles {context : StagedContext}
    (h : spec.stage sourceRoot host w = (.ok context, u)) :
    ∃ files, (spec.stagedFiles sourceRoot host w).1 = .ok files ∧ WellNamed files ∧
      context.sourceDigest = sha256 (digestInput files) := by
  obtain ⟨-, staged, hstaged, hfilled⟩ := stage_eq_ok hspec hw.grounded h
  refine ⟨staged.files.sortedFilesBelow context.location, ?_,
    wellNamed_of_stageSources hspec hw hstaged, hfilled.digest⟩
  rw [stagedFiles, Act.bind_of_ok hstaged]
  rfl

end

/-- Digests of files agree if they are the same files, and otherwise only where something that is
hashed for them collides. -/
theorem sameDigest_digestInput {files other : List (String × ByteArray)} (h : WellNamed files)
    (ho : WellNamed other) :
    ((∀ file, file ∈ files ↔ file ∈ other) →
      sameDigest (sha256 (digestInput files)) (sha256 (digestInput other)) = true) ∧
    (NoCollision (hashed files ++ hashed other) →
      sameDigest (sha256 (digestInput files)) (sha256 (digestInput other)) = true →
      ∀ file, file ∈ files ↔ file ∈ other) := by
  rw [sameDigest_sha256]
  refine ⟨fun hsame => ?_, fun hcollision hdigest file => ?_⟩
  · rw [eq_of_mem_iff_of_pairwise h.sorted ho.sorted hsame]
  · rw [eq_of_sha256_digestInput h.noNull ho.noNull hcollision hdigest]

end TwoStage

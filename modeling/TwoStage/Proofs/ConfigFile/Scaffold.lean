import TwoStage.Proofs.ConfigFile
import TwoStage.Proofs.FileTree.Directories
import TwoStage.Proofs.Json.Roundtrip
import TwoStage.Proofs.Spec.Accepted

/-!
# Writing the stock specification

The stock specification is written to a file that was not there, unless it may be written over what
is there. In either case it is read back from that file, all other files stay as they are, and what
was written is not written over when the same is asked for again. Where something is refused, every
file stays as it was; directories that were made before stay, too.

## Main definitions

- `World.Spares` — a change of the world that leaves every file as it was
- `ConfigFile.GoesTo`, `ConfigFile.Writable` — where the stock specification goes, and whether it is
  written there
- `ConfigFile.Wrote` — a change of the world by one file with the stock specification

## Main statements

- `Spec.exact_toJson` — specifications are read back from their texts
- `ConfigFile.load_scaffoldText` — what is loaded from the file
- `ConfigFile.GoesTo.again` — the same request leads to the same file
- `ConfigFile.scaffold_spares_or_wrote` — what writing the stock specification comes to
-/

namespace TwoStage

-- ════════════════════════════════════════════════════════════════════════
-- Texts of specifications
-- ════════════════════════════════════════════════════════════════════════

theorem Json.exact_elim_str (value : Option String) : Exact (value.elim .null .str) := by
  cases value with
  | none => exact .null
  | some text => exact .str text

theorem BaseImage.exact_toJson (base : BaseImage) : Json.Exact base.toJson := by
  refine .obj (by simp) ?_
  simp only [List.forall_mem_cons]
  refine ⟨.str _, .str _, Json.exact_elim_str _, ?_, by simp⟩
  cases base.packageManager with
  | none => exact .null
  | some manager => exact .str _

theorem PackageSet.exact_toJson (set : PackageSet) : Json.Exact set.toJson := by
  refine .obj (by simp) ?_
  simp only [List.forall_mem_cons]
  exact ⟨Json.exact_ofStrings _, by simp⟩

theorem SourceInput.exact_toJson (sources : SourceInput) : Json.Exact sources.toJson := by
  refine .obj (by simp) ?_
  simp only [List.forall_mem_cons]
  exact ⟨Json.exact_ofStrings _, .str _, by simp⟩

theorem Identity.exact_toJson (identity : Identity) : Json.Exact identity.toJson := by
  refine .obj (by simp) ?_
  simp only [List.forall_mem_cons]
  exact ⟨.str _, .str _, by simp⟩

theorem Entrypoint.exact_toJson (entrypoint : Entrypoint) : Json.Exact entrypoint.toJson := by
  refine .obj (by simp) ?_
  simp only [List.forall_mem_cons]
  exact ⟨.str _, by simp⟩

/-- The number of retries is the only number in a specification. -/
theorem BuildEnvironment.exact_toJson {env : BuildEnvironment}
    (hretry : (Nat.toDigits 10 env.netRetry).length ≤ Json.integerDigitLimit)
    (hextra : (env.extra.map Prod.fst).Nodup) : Json.Exact env.toJson := by
  refine .obj (by simp) ?_
  simp only [List.forall_mem_cons]
  exact ⟨.bool _, .int hretry, Json.exact_elim_str _, .bool _, Json.exact_ofBindings hextra, by simp⟩

/-- A specification is read back from its text, unless the number of retries has more digits than
are read. -/
theorem Spec.exact_toJson {spec : Spec}
    (hretry : (Nat.toDigits 10 spec.build.env.netRetry).length ≤ Json.integerDigitLimit)
    (hextra : (spec.build.env.extra.map Prod.fst).Nodup)
    (hlabels : (spec.labels.map Prod.fst).Nodup) : Json.Exact spec.toJson := by
  have hbuild : Json.Exact spec.build.toJson := by
    refine .obj (by simp) ?_
    simp only [List.forall_mem_cons]
    exact ⟨.str _, BaseImage.exact_toJson _, PackageSet.exact_toJson _,
      SourceInput.exact_toJson _, BuildEnvironment.exact_toJson hretry hextra,
      Json.exact_ofStrings _, .str _, .str _, by simp⟩
  have hfinal : Json.Exact spec.final.toJson := by
    refine .obj (by simp) ?_
    simp only [List.forall_mem_cons]
    exact ⟨.str _, BaseImage.exact_toJson _, PackageSet.exact_toJson _, Identity.exact_toJson _,
      Entrypoint.exact_toJson _, by simp⟩
  refine .obj (by simp) ?_
  simp only [List.forall_mem_cons]
  exact ⟨.str _, Json.exact_ofBindings hlabels, hbuild, hfinal, by simp⟩

-- ════════════════════════════════════════════════════════════════════════
-- Files that are spared
-- ════════════════════════════════════════════════════════════════════════

/-- A change of the world that leaves every file as it was, and each directory and link where it
was. Nothing but the files is touched. -/
structure World.Spares (w w' : World) : Prop where
  world : w' = { w with files := w'.files }
  files : w.files.SameFiles w'.files
  stands : w.files.Extends w'.files

theorem World.Spares.refl (w : World) : w.Spares w := ⟨rfl, .refl _, fun _ _ hnode => hnode⟩

/-- Making directories spares the files. -/
theorem World.spares_makeDirectoriesPartly (w : World) (cwd : Location) (path : Path) :
    w.Spares { w with files := (w.files.makeDirectoriesPartly cwd path).1 } :=
  ⟨rfl, w.files.sameFiles_makeDirectoriesPartly cwd path,
    w.files.extends_makeDirectoriesPartly cwd path⟩

namespace ConfigFile

-- ════════════════════════════════════════════════════════════════════════
-- What is read back
-- ════════════════════════════════════════════════════════════════════════

/-- What is written stands for the stock specification. -/
theorem answer_scaffoldText (path : Path) :
    answer path (unifyNewlines scaffoldText) = .ok .standard := by
  have hexact : Json.Exact Spec.standard.toJson :=
    Spec.exact_toJson (by decide +kernel) (by decide +kernel) (by decide +kernel)
  have hlines : unifyNewlines scaffoldText = scaffoldText := by
    refine unifyNewlines_eq_self ?_
    rw [scaffoldText, mem_toList_append, not_or]
    exact ⟨hexact.return_not_mem_indentedAt 0, by decide⟩
  have hread : Json.read scaffoldText = .ok Spec.standard.toJson :=
    Json.read_append_of_reads (hexact.reads_indentedAt 0) (Json.spaces_freshLine 0)
  have hparse : Config.parse Spec.standard.toJson = .ok .standard :=
    Config.parse_of_check (by decide +kernel)
  rw [hlines, answer, hread]
  exact congrArg (Except.mapError Error.config) hparse

variable {path written : Path} {host : Host} {w : World}

/-- A file with the text of the stock specification is loaded as that. -/
theorem load_scaffoldText (h : w.files.read host.cwd path = .ok (utf8Bytes scaffoldText)) :
    load (some path) host w = (.ok .standard, w) := by
  rw [load_of_text h, answer_scaffoldText]

-- ════════════════════════════════════════════════════════════════════════
-- Where it is written
-- ════════════════════════════════════════════════════════════════════════

/-- The path that the stock specification goes to, and the files as they are then: to the path itself
if its name says so and no directory is there, else below the directory that is made there. -/
inductive GoesTo (t : FileTree) (cwd : Location) (path : Path) : Path → FileTree → Prop where
  | itself (hasked : t.isDirectory? cwd path = .ok false) (hsuffix : path.suffix = ".json") :
    GoesTo t cwd path path t
  | below {isDirectory : Bool} {made : FileTree} (hasked : t.isDirectory? cwd path = .ok isDirectory)
    (hbelow : isDirectory = true ∨ path.suffix ≠ ".json")
    (hmade : t.makeDirectoriesPartly cwd path = (made, none)) :
    GoesTo t cwd path (path.child fileName) made

variable {made : FileTree}

theorem scaffoldPath_of_goesTo (h : GoesTo w.files host.cwd path written made) :
    scaffoldPath path host w = (.ok written, { w with files := made }) := by
  cases h with
  | itself hasked hsuffix =>
    rw [scaffoldPath, Act.bind_of_ok (Act.ask_of_ok hasked), if_neg (by simp [hsuffix])]
    rfl
  | below hasked hbelow hmade =>
    have hdone : Act.makeDirectories path host w = (.ok (), { w with files := made }) := by
      unfold Act.makeDirectories Act.changeFilesPartly
      dsimp only
      rw [hmade]
    rw [scaffoldPath, Act.bind_of_ok (Act.ask_of_ok hasked), if_pos (by simpa using hbelow),
      Act.bind_of_ok hdone]
    rfl

/-- There is one path that it goes to. -/
theorem GoesTo.unique {other : Path} {files : FileTree}
    (h : GoesTo w.files host.cwd path written made)
    (hother : GoesTo w.files host.cwd path other files) : other = written ∧ files = made := by
  have hsame := (scaffoldPath_of_goesTo hother).symm.trans (scaffoldPath_of_goesTo h)
  obtain ⟨hpath, hworld⟩ := Prod.mk.inj hsame
  exact ⟨Except.ok.inj hpath, congrArg World.files hworld⟩

/-- The files are spared until the stock specification is written. -/
theorem GoesTo.spares (h : GoesTo w.files host.cwd path written made) :
    w.Spares { w with files := made } := by
  cases h with
  | itself hasked hsuffix => exact .refl w
  | below hasked hbelow hmade =>
    have hspares := w.spares_makeDirectoriesPartly host.cwd path
    rwa [hmade] at hspares

/-- The stock specification goes somewhere, or a directory cannot be made. -/
theorem scaffoldPath_cases (path : Path) (host : Host) (w : World) :
    (∃ e w', scaffoldPath path host w = (.error e, w') ∧ w.Spares w') ∨
      ∃ written made, GoesTo w.files host.cwd path written made := by
  cases hasked : w.files.isDirectory? host.cwd path with
  | error fault =>
    refine Or.inl ⟨.file fault, w, ?_, .refl w⟩
    rw [scaffoldPath, Act.bind_of_error (Act.ask_of_error hasked)]
  | ok isDirectory =>
    by_cases hbelow : isDirectory = true ∨ path.suffix ≠ ".json"
    · cases hmade : w.files.makeDirectoriesPartly host.cwd path with
      | mk made trouble =>
        cases trouble with
        | none => exact Or.inr ⟨_, made, .below hasked hbelow hmade⟩
        | some fault =>
          have hspares := w.spares_makeDirectoriesPartly host.cwd path
          rw [hmade] at hspares
          have hfailed : Act.makeDirectories path host w =
              (.error (.file fault), { w with files := made }) := by
            unfold Act.makeDirectories Act.changeFilesPartly
            dsimp only
            rw [hmade]
          refine Or.inl ⟨.file fault, _, ?_, hspares⟩
          rw [scaffoldPath, Act.bind_of_ok (Act.ask_of_ok hasked), if_pos (by simpa using hbelow),
            Act.bind_of_error hfailed]
    · rw [not_or, not_not, Bool.not_eq_true] at hbelow
      rw [hbelow.1] at hasked
      exact Or.inr ⟨path, w.files, .itself hasked hbelow.2⟩

/-- Where the stock specification went, it goes again, without any directory being made, as long as
directories and links stand and there is a file by now. -/
theorem GoesTo.again {t later : FileTree} {cwd place : Location} {bytes : ByteArray}
    (h : GoesTo t cwd path written made) (hways : made.SameWays later)
    (hfile : later.walk cwd true written = .ok (.node place (.file bytes))) :
    GoesTo later cwd path written later := by
  cases h with
  | itself hasked hsuffix =>
    refine .itself ?_ hsuffix
    rw [FileTree.isDirectory?, FileTree.find?, hfile]
    rfl
  | below hasked hbelow hmade =>
    have hlater := hways.isDirectory? (FileTree.isDirectory?_of_makeDirectoriesPartly hmade)
    exact .below hlater (Or.inl rfl) (FileTree.makeDirectoriesPartly_of_isDirectory? hlater)

-- ════════════════════════════════════════════════════════════════════════
-- Writing it
-- ════════════════════════════════════════════════════════════════════════

/-- Whether the stock specification may be written at a path, and can be. -/
def Writable (t : FileTree) (cwd : Location) (written : Path) (force : Bool) : Prop :=
  t.takesFile cwd written = true ∧ (force = true ∨ t.exists? cwd written = .ok false)

/-- The file at `place`, which the path `written` leads to, holds the stock specification. All other
files are as they were, and each directory and link is where it was. Nothing but the files is
touched. -/
structure Wrote (host : Host) (w w' : World) (written : Path) (place : Location) : Prop where
  world : w' = { w with files := w'.files }
  leads : w'.files.walk host.cwd true written = .ok (.node place (.file (utf8Bytes scaffoldText)))
  others : ∀ other ≠ place, w'.files.file? other = w.files.file? other
  ways : w.files.SameWays w'.files

/-- The stock specification is written where it may and can be; else the files are as they were when
it was to be written. -/
theorem scaffold_cases (h : GoesTo w.files host.cwd path written made) (force : Bool) :
    (¬ Writable made host.cwd written force ∧
        ∃ e, scaffold path force host w = (.error e, { w with files := made })) ∨
      Writable made host.cwd written force ∧
        ∃ files, made.write host.cwd written (utf8Bytes scaffoldText) = .ok files ∧
          scaffold path force host w = (.ok written, { w with files }) := by
  have htakes := made.isOk_write host.cwd written (utf8Bytes scaffoldText)
  rw [scaffold, Act.bind_of_ok (scaffoldPath_of_goesTo h)]
  cases hasked : made.exists? host.cwd written with
  | error fault =>
    refine Or.inl ⟨fun hwritable => ?_, .file fault, Act.bind_of_error (Act.ask_of_error hasked)⟩
    rw [Writable, FileTree.takesFile_of_exists?_error hasked] at hwritable
    cases hwritable.1
  | ok there =>
    rw [Act.bind_of_ok (Act.ask_of_ok hasked)]
    by_cases hrefused : (there && !force) = true
    · rw [if_pos hrefused]
      rw [Bool.and_eq_true, Bool.not_eq_true'] at hrefused
      refine Or.inl ⟨fun hwritable => ?_, _, rfl⟩
      rw [Writable, hasked, hrefused.1, hrefused.2] at hwritable
      rcases hwritable.2 with hforce | hnothing
      · cases hforce
      · cases hnothing
    · rw [if_neg hrefused]
      cases hwrite : made.write host.cwd written (utf8Bytes scaffoldText) with
      | error fault =>
        rw [hwrite] at htakes
        refine Or.inl ⟨fun hwritable => ?_, .file fault,
          Act.bind_of_error (Act.writeText_of_error hwrite)⟩
        cases htakes.trans hwritable.1
      | ok files =>
        rw [hwrite] at htakes
        refine Or.inr ⟨⟨htakes.symm, ?_⟩, files, rfl, Act.bind_of_ok (Act.writeText_of_ok hwrite)⟩
        cases force with
        | true => exact Or.inl rfl
        | false =>
          cases there with
          | false => exact Or.inr hasked
          | true => exact absurd rfl hrefused

/-- What writing the stock specification does to the world. -/
theorem wrote_of_write {files : FileTree} (hspares : w.Spares { w with files := made })
    (hwrite : made.write host.cwd written (utf8Bytes scaffoldText) = .ok files) :
    ∃ place, made.TakesAt host.cwd written place ∧ made.SameWays files ∧
      Wrote host w { w with files } written place := by
  obtain ⟨place, htakes, rfl⟩ := FileTree.write_eq_ok hwrite
  obtain ⟨hne, hold⟩ := htakes.node?
  have hways : made.SameWays (made.put place (.file (utf8Bytes scaffoldText))) := .put _ hold
  refine ⟨place, htakes, hways, rfl, ?_, ?_, hspares.stands.sameWays.trans hways⟩
  · exact htakes.walk hways (FileTree.node?_put_self _ hne) (by simp)
  · intro other hother
    rw [← hspares.files other, FileTree.file?, FileTree.file?, FileTree.node?_put_of_ne _ hother]

/-- If there is nothing where the stock specification goes, there was nothing before. -/
theorem GoesTo.nothing_before {place : Location} (h : GoesTo w.files host.cwd path written made)
    (hnothing : made.exists? host.cwd written = .ok false)
    (htakes : made.TakesAt host.cwd written place) :
    w.files.exists? host.cwd written = .ok false ∧ w.files.node? place = none := by
  have hextends : w.files.Extends made := h.spares.stands
  refine ⟨hextends.exists?_eq_false hnothing, ?_⟩
  have hnone := htakes.node?_of_exists? hnothing
  cases hnode : w.files.node? place with
  | none => rfl
  | some node =>
    rw [hextends _ _ hnode] at hnone
    cases hnone

/-- What was written is not written over. -/
theorem scaffold_again {files : FileTree} {place : Location} {bytes : ByteArray}
    (h : GoesTo w.files host.cwd path written made) (hways : made.SameWays files)
    (hfile : files.walk host.cwd true written = .ok (.node place (.file bytes))) :
    scaffold path false host { w with files } =
      (.error (.refusesOverwrite written.text), { w with files }) := by
  have hpath : scaffoldPath path host { w with files } = (.ok written, { w with files }) :=
    scaffoldPath_of_goesTo (h.again hways hfile)
  have hasked : files.exists? host.cwd written = .ok true := by
    rw [FileTree.exists?, FileTree.find?, hfile]
    rfl
  rw [scaffold, Act.bind_of_ok hpath, Act.bind_of_ok (Act.ask_of_ok hasked), if_pos (by rfl)]
  rfl

/-- Writing the stock specification either ends with an error and leaves every file as it was, or it
writes one file and touches no other one. What it wrote is loaded from there as the stock
specification, and asking for the same again is refused and changes nothing. Unless writing over
files was asked for, there was nothing at the path and at the place of the file before. It is written
whenever it goes to a path at which it may and can be written. -/
theorem scaffold_spares_or_wrote (path : Path) (force : Bool) (host : Host) (w : World) :
    ((∃ e w', scaffold path force host w = (.error e, w') ∧ w.Spares w') ∨
      ∃ written w' place, scaffold path force host w = (.ok written, w') ∧
        Wrote host w w' written place ∧
        load (some written) host w' = (.ok .standard, w') ∧
        scaffold path false host w' = (.error (.refusesOverwrite written.text), w') ∧
        (force = false →
          w.files.exists? host.cwd written = .ok false ∧ w.files.node? place = none)) ∧
    ∀ written, (scaffold path force host w).1 = .ok written ↔
      ∃ made, GoesTo w.files host.cwd path written made ∧
        Writable made host.cwd written force := by
  rcases scaffoldPath_cases path host w with ⟨e, w', hpath, hspares⟩ | ⟨written, made, hgoes⟩
  · have hfailed : scaffold path force host w = (.error e, w') := Act.bind_of_error hpath
    refine ⟨Or.inl ⟨e, w', hfailed, hspares⟩, fun written => iff_of_false ?_ ?_⟩
    · rw [hfailed]
      nofun
    · rintro ⟨made, hgoes, -⟩
      cases hpath.symm.trans (scaffoldPath_of_goesTo hgoes)
  rcases scaffold_cases hgoes force with ⟨hnot, e, hfailed⟩ |
    ⟨hwritable, files, hwrite, hdone⟩
  · refine ⟨Or.inl ⟨e, _, hfailed, hgoes.spares⟩, fun other => iff_of_false ?_ ?_⟩
    · rw [hfailed]
      nofun
    · rintro ⟨_, hother, hwritable⟩
      obtain ⟨rfl, rfl⟩ := hgoes.unique hother
      exact hnot hwritable
  · obtain ⟨place, htakes, hways, hwrote⟩ := wrote_of_write hgoes.spares hwrite
    refine ⟨Or.inr ⟨written, _, place, hdone, hwrote, load_scaffoldText ?_,
      scaffold_again hgoes hways hwrote.leads, fun hforce => ?_⟩, fun other => ?_⟩
    · rw [FileTree.read, hwrote.leads]
    · exact hgoes.nothing_before (hwritable.2.resolve_left (by simp [hforce])) htakes
    · rw [hdone]
      constructor
      · rintro ⟨⟩
        exact ⟨made, hgoes, hwritable⟩
      · rintro ⟨_, hother, -⟩
        rw [(hgoes.unique hother).1]

example : (scaffold (.ofText "image") false idleHost (.holding [])).1 =
    .ok (.ofText "image/pipeline.json") := by rfl

end ConfigFile

end TwoStage

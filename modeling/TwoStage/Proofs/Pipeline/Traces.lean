import TwoStage.Proofs.FileTree.Making
import TwoStage.Proofs.Pipeline.Record
import TwoStage.Proofs.Pipeline.StateHistory

/-!
# What is left of a run in the files

Each directory for a short time is gone when the operation that it was made for ends, be it with a
value or with an error, and nothing was changed outside of it. So the one thing that a run leaves in
the files is its record. Writing the record takes the place that its path leads to, links followed,
and makes the directories that are missing on the way. These can lie anywhere, also below the root of
the sources: a path that goes down into a new directory and up again leaves that directory there.

## Main definitions

- `Pipeline.TakesForRecord` — the places that are taken for the record of a run
- `Pipeline.SparesSources` — a run with its record elsewhere changes nothing below the source root

## Main statements

- `Spec.node?_inContext` — what an operation in a staged context leaves in the files
- `Client.files_build` — a build leaves the files as they were
- `Pipeline.node?_run` — a run changes nothing but the places of its record
- `Pipeline.not_sparesSources` — a run that leaves a directory below the source root
-/

namespace TwoStage

/-- The places that are taken where a record is written below the directory of a pipeline. -/
def Pipeline.TakesForRecord (p : Pipeline) (t : FileTree) (cwd place : Location) : Prop :=
  ∃ outdir, p.outdir = some outdir ∧ t.MayTake cwd (outdir.child Lock.fileName) place

/-- A run whose record is in a directory that is not below the source root leaves everything below
that root as it was. -/
def Pipeline.SparesSources (p : Pipeline) (host : Host) (w : World) : Prop :=
  ∀ root, w.files.resolve host.cwd p.sourceRoot = .ok root →
    (∀ outdir dir, p.outdir = some outdir → w.files.resolve host.cwd outdir = .ok dir →
      ¬ root <+: dir) →
    ∀ place, root <+: place →
      (p.run .initial host w).2.files.node? place = w.files.node? place

-- ════════════════════════════════════════════════════════════════════════
-- Directories for a short time
-- ════════════════════════════════════════════════════════════════════════

theorem FileTree.node?_removeBelow_self (t : FileTree) {loc place : Location} (hne : place ≠ [])
    (h : loc <+: place) : (t.removeBelow loc).node? place = none := by
  refine node?_of_isFree (isFree_iff.mpr fun entry hmem => ?_) hne h
  have hkept := (List.mem_filter.mp hmem).2
  rw [Bool.not_eq_true', Bool.eq_false_iff, ne_eq, List.isPrefixOf_iff_prefix] at hkept
  exact hkept

section

variable {host : Host} {w : World}

/-- Behind an operation in a staged context all is as it was before, but for what the operation
itself changes outside of the context. -/
theorem Spec.node?_inContext {α : Type} {spec : Spec} (hspec : spec.StaysInside)
    (hw : w.Grounded host) {sourceRoot : Path} {body : StagedContext → Act α} {place : Location}
    (hbody : ∀ context staged, spec.stage sourceRoot host w = (.ok context, staged) →
      ¬ context.location <+: place →
        (body context host staged).2.files.node? place = staged.files.node? place) :
    (spec.inContext sourceRoot body host w).2.files.node? place = w.files.node? place := by
  cases hstage : spec.stage sourceRoot host w with
  | mk result staged =>
    have hfiles := Spec.files_of_stage hspec hw hstage
    cases result with
    | error e =>
      rw [Spec.inContext_of_stage_error _ hstage]
      exact congrArg (FileTree.node? · place) hfiles
    | ok context =>
      rw [Spec.inContext_of_stage _ hstage]
      obtain ⟨henclosed, hback⟩ := hfiles
      by_cases hbelow : context.location <+: place
      · obtain ⟨⟨n, hscratch⟩, -⟩ := Spec.stage_eq_ok hspec hw hstage
        have hne : place ≠ [] := by
          rintro rfl
          rw [hscratch, List.prefix_nil, Act.scratchPlace] at hbelow
          exact List.append_ne_nil_of_right_ne_nil _ (List.cons_ne_nil _ _) hbelow
        rw [FileTree.node?_removeBelow_self _ hne hbelow, ← hback,
          FileTree.node?_removeBelow_self _ hne hbelow]
      · dsimp only
        rw [FileTree.node?_removeBelow_of_not_below hbelow, hbody context staged hstage hbelow,
          ← hback, FileTree.node?_removeBelow_of_not_below hbelow]

/-- Behind an operation in a staged context that touches no file the files are as before. -/
theorem Spec.files_inContext {α : Type} {spec : Spec} (hspec : spec.StaysInside)
    (hw : w.Grounded host) {sourceRoot : Path} {body : StagedContext → Act α}
    (hbody : ∀ context t, Act.Keeps (·.files = t) (body context)) :
    (spec.inContext sourceRoot body host w).2.files = w.files := by
  cases hstage : spec.stage sourceRoot host w with
  | mk result staged =>
    have hfiles := Spec.files_of_stage hspec hw hstage
    cases result with
    | error e =>
      rw [Spec.inContext_of_stage_error _ hstage]
      exact hfiles
    | ok context =>
      rw [Spec.inContext_of_stage _ hstage]
      have hsame := hbody context staged.files host staged rfl
      exact (congrArg (FileTree.removeBelow · context.location) hsame).trans hfiles.2

/-- A build leaves the files as they were, whether the engine is there or not. -/
theorem Client.files_build (client : Client) (context : Path) (order : BuildOrder) (host : Host)
    (w : World) : (client.build context order host w).2.files = w.files := by
  cases hfind : host.engine.find? client.program with
  | none =>
    obtain ⟨w', hbuild, hspoke⟩ := build_of_missing hfind context order w
    rw [hbuild]
    exact hspoke.files
  | some program =>
    obtain ⟨call, -, -, hsaid, hunsaid⟩ := build_called hfind context order w
    cases hsay : call.isSayable with
    | true =>
      obtain ⟨w', hbuild, hcalled⟩ := hsaid hsay
      rw [hbuild]
      exact hcalled.files
    | false =>
      obtain ⟨w', hbuild, hspoke⟩ := hunsaid hsay
      rw [hbuild]
      exact hspoke.files

-- ════════════════════════════════════════════════════════════════════════
-- The record
-- ════════════════════════════════════════════════════════════════════════

/-- Writing a record changes nothing but the places that it takes, also where it fails. -/
theorem Lock.node?_write (spec : Spec) {outdir : Path} (result : PipelineResult)
    {place : Location} (h : ¬ w.files.MayTake host.cwd (outdir.child fileName) place) :
    (write spec outdir result host w).2.files.node? place = w.files.node? place := by
  have helsewhere := w.files.elsewhere_makeDirectoriesPartly host.cwd outdir fileName
  cases hmade : w.files.makeDirectoriesPartly host.cwd outdir with
  | mk made trouble =>
    rw [hmade] at helsewhere
    obtain ⟨-, -, hmake⟩ := helsewhere
    cases trouble with
    | some fault =>
      have hmakes : Act.makeDirectories outdir host w =
          (.error (.file fault), { w with files := made }) := by
        rw [Act.makeDirectories, Act.changeFilesPartly, hmade]
      rw [write, Act.bind_of_error hmakes]
      exact hmake place h
    | none =>
      have hmakes : Act.makeDirectories outdir host w = (.ok (), { w with files := made }) := by
        rw [Act.makeDirectories, Act.changeFilesPartly, hmade]
      have hhost : Act.host host { w with files := made } = (.ok host, { w with files := made }) :=
        rfl
      rw [write, Act.bind_of_ok hmakes, Act.bind_of_ok hhost]
      rcases Act.writeText_cases (outdir.child fileName) (toJson spec result host.clock).indented
        host { w with files := made } with
        ⟨w', hwrite, -, -, bytes, hwritten⟩ | ⟨fault, hwrite, -⟩
      · rw [Act.bind_of_ok hwrite]
        exact (FileTree.madeAt_of_write hmade hwritten).elsewhere place h
      · rw [Act.bind_of_error hwrite]
        exact hmake place h

/-- A run changes nothing in the files but the places that are taken for its record, however it
ends. -/
theorem Pipeline.node?_run {p : Pipeline} (hspec : p.spec.StaysInside) (hw : w.Grounded host)
    {start : Progress} (hstart : start.Lawful) {place : Location}
    (h : ¬ p.TakesForRecord w.files host.cwd place) :
    (p.run start host w).2.files.node? place = w.files.node? place := by
  by_cases hstate : start.state = .start
  · obtain ⟨reached, progress, w₁, talk, hstaged, -, -, hfiles, -⟩ :=
      p.staged_course (hstart.fresh hstate) host w
    have hsame := hfiles hw hspec
    rw [run, if_neg (not_not_intro hstate), Act.bind_of_ok hstaged]
    cases reached with
    | error e => exact congrArg (FileTree.node? · place) hsame
    | ok ids =>
      obtain ⟨builderId, imageId, context⟩ := ids
      dsimp only
      cases hout : p.outdir with
      | none => exact congrArg (FileTree.node? · place) hsame
      | some outdir =>
        have helsewhere : ¬ w₁.files.MayTake host.cwd (outdir.child Lock.fileName) place := by
          rw [hsame]
          exact fun htakes => h ⟨outdir, hout, htakes⟩
        dsimp only
        generalize PipelineResult.mk p.spec.image imageId p.spec.artifact context.sourceDigest
          progress.history builderId none = result
        have hwrite := Lock.node?_write p.spec result helsewhere
        rw [hsame] at hwrite
        rw [Act.bind_apply, Act.outcome]
        cases hwritten : Lock.write p.spec outdir result host w₁ with
        | mk written w₂ =>
          rw [hwritten] at hwrite
          cases written with
          | error fault => exact hwrite
          | ok path => exact hwrite
  · rw [run, if_pos hstate]
    rfl

end

/-- A world in which the sources of the stock pipeline stand below the working directory. -/
def World.project : World where
  files := ⟨[(["tmp"], .directory), (["work"], .directory), (["work", "proj"], .directory),
    (["work", "proj", "src"], .file .empty), (["work", "proj", "build.rs"], .file .empty),
    (["work", "proj", "Cargo.toml"], .file .empty)]⟩
  scratchCount := 0
  calls := []
  level := .info
  records := []
  shown := []

/-- The stock pipeline, the path to the directory of its record winding through the source root. -/
def windingPipeline : Pipeline :=
  { Spec.standard.pipeline with
    sourceRoot := .ofText "proj", outdir := some (.ofText "proj/new/../../dist") }

/-- A run leaves a new directory below the source root where the path to the directory of its record
goes through it. -/
theorem Pipeline.not_sparesSources : ¬ windingPipeline.SparesSources willingHost World.project := by
  intro h
  have hroot : World.project.files.resolve willingHost.cwd windingPipeline.sourceRoot =
      .ok ["work", "proj"] := by decide
  have hdir : ∀ outdir dir, windingPipeline.outdir = some outdir →
      World.project.files.resolve willingHost.cwd outdir = .ok dir → ¬ ["work", "proj"] <+: dir := by
    rintro outdir dir ⟨⟩ hresolved
    have hdist : World.project.files.resolve willingHost.cwd (.ofText "proj/new/../../dist") =
        .ok ["work", "dist"] := by decide
    cases hdist.symm.trans hresolved
    decide
  have hsame := h _ hroot hdir ["work", "proj", "new"] (by decide)
  have hmade : ((windingPipeline.run .initial willingHost World.project).2.files.node?
      ["work", "proj", "new"]).isSome = true := by decide +kernel
  rw [hsame] at hmade
  exact absurd hmade (by decide)

end TwoStage

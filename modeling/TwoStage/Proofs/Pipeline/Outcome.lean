import TwoStage.Proofs.Pipeline.Course

/-!
# How a run ends

A run goes through its stages and then, where it is told so, writes the lock file. It ends with an
error where the stages do, or where the lock file cannot be written.

## Main definitions

- `FileTree.takesLock` — whether the lock file can be written below a directory
- `Ending` — the ways in which a run ends

## Main statements

- `Lock.write_cases` — writing the lock file says nothing to the engine
- `Pipeline.run_ending` — a run ends in one of these ways, and a failure leaves every file as it was
-/

namespace TwoStage

/-- Whether the lock file can be written below a directory, which is made if need be. -/
def FileTree.takesLock (t : FileTree) (cwd : Location) (outdir : Path) : Bool :=
  match t.makeDirectories cwd outdir with
  | .ok made => made.takesFile cwd (outdir.child Lock.fileName)
  | .error _ => false

/-- Writing the lock file says nothing to the engine. It succeeds where the directory takes the
file; otherwise every file is as before. -/
theorem Lock.write_cases (spec : Spec) (outdir : Path) (result : PipelineResult) (host : Host)
    (w : World) :
    ∃ written w', write spec outdir result host w = (written, w') ∧ w'.calls = w.calls ∧
      ((written = .ok (outdir.child fileName) ∧ w.files.takesLock host.cwd outdir = true) ∨
        ∃ fault, written = .error (.file fault) ∧ w.files.takesLock host.cwd outdir = false ∧
          w.files.SameFiles w'.files) := by
  obtain ⟨made, w₁, hmake, hcalls, hsame, hmade⟩ := Act.makeDirectories_cases outdir host w
  rw [write]
  rcases hmade with ⟨rfl, htree⟩ | ⟨fault, rfl, htree⟩
  · have htakes : w.files.takesLock host.cwd outdir =
        w₁.files.takesFile host.cwd (outdir.child fileName) := by
      rw [FileTree.takesLock, htree]
    have hasked : Act.host host w₁ = (.ok host, w₁) := rfl
    rcases Act.writeText_cases (outdir.child fileName)
      (toJson spec result host.clock).indented host w₁ with
      ⟨w₂, hwrite, hfile, hcalls', -⟩ | ⟨fault, hwrite, hfile⟩
    · refine ⟨.ok (outdir.child fileName), w₂, ?_, hcalls'.trans hcalls,
        Or.inl ⟨rfl, htakes.trans hfile⟩⟩
      rw [Act.bind_of_ok hmake, Act.bind_of_ok hasked, Act.bind_of_ok hwrite]
      rfl
    · refine ⟨.error (.file fault), w₁, ?_, hcalls,
        Or.inr ⟨fault, rfl, htakes.trans hfile, hsame⟩⟩
      rw [Act.bind_of_ok hmake, Act.bind_of_ok hasked, Act.bind_of_error hwrite]
  · refine ⟨.error (.file fault), w₁, ?_, hcalls, Or.inr ⟨fault, rfl, ?_, hsame⟩⟩
    · rw [Act.bind_of_error hmake]
    · rw [FileTree.takesLock, htree]

/-- The ways in which a run ends: with the error of its stages, with one from writing the lock file,
or with a result. -/
inductive Ending (p : Pipeline) (host : Host) (w : World) (start : Progress) :
    Except Error PipelineResult → Progress → Talk → Prop
  | failed {e progress talk w'}
      (hstaged : p.staged start host w = (.ok (.error e, progress), w'))
      (hcourse : Course p host w start (.error e) progress talk) :
      Ending p host w start (.error e) progress talk
  | unlocked {ids progress talk w' outdir fault}
      (hstaged : p.staged start host w = (.ok (.ok ids, progress), w'))
      (hcourse : Course p host w start (.ok ids) progress talk) (hout : p.outdir = some outdir)
      (htakes : w'.files.takesLock host.cwd outdir = false) :
      Ending p host w start (.error (.file fault)) progress talk
  | returned {ids progress talk w' result}
      (hstaged : p.staged start host w = (.ok (.ok ids, progress), w'))
      (hcourse : Course p host w start (.ok ids) progress talk)
      (htakes : ∀ outdir, p.outdir = some outdir → w'.files.takesLock host.cwd outdir = true) :
      Ending p host w start (.ok result) progress talk

/-- Behind every ending there is a course of the stages, whose error is that of the run. -/
theorem Ending.course {p : Pipeline} {host : Host} {w : World} {start progress : Progress}
    {talk : Talk} {result : Except Error PipelineResult}
    (h : Ending p host w start result progress talk) :
    ∃ reached, Course p host w start reached progress talk ∧
      ∀ e, reached = .error e → result = .error e := by
  cases h with
  | failed hstaged hcourse =>
    refine ⟨_, hcourse, fun e he => ?_⟩
    cases he
    rfl
  | unlocked hstaged hcourse => exact ⟨_, hcourse, fun e he => by cases he⟩
  | returned hstaged hcourse => exact ⟨_, hcourse, fun e he => by cases he⟩

namespace Pipeline

/-- Every run from a fresh progress ends in one of these ways, which is all that is said to the
engine. If it ends with an error, every file is as before. -/
theorem run_ending (p : Pipeline) {start : Progress} (hstart : start.Fresh) (host : Host)
    (w : World) :
    ∃ result progress w' talk,
      p.run start host w = (.ok (result, progress), w') ∧
      Ending p host w start result progress talk ∧ host.Talked w w' talk ∧
      (w.Grounded host → p.spec.StaysInside → result.isOk = false → w.files.SameFiles w'.files) ∧
      p.Opens host w start w' := by
  obtain ⟨reached, progress, w₁, talk, hstaged, hcourse, ht, hfiles, hopens⟩ :=
    p.staged_course hstart host w
  rw [run, if_neg (by rw [hstart.state]; exact not_not_intro rfl), Act.bind_apply, hstaged]
  cases reached with
  | error e =>
    refine ⟨_, progress, w₁, talk, rfl, .failed hstaged hcourse, ht, fun hw hspec _ => ?_, hopens⟩
    rw [hfiles hw hspec]
    exact .refl w.files
  | ok ids =>
    obtain ⟨builderId, imageId, context⟩ := ids
    cases hout : p.outdir with
    | none =>
      refine ⟨_, progress, w₁, talk, rfl, .returned hstaged hcourse ?_, ht, fun _ _ h => (by cases h),
        hopens⟩
      intro outdir hsome
      rw [hout] at hsome
      cases hsome
    | some outdir =>
      obtain ⟨written, w₂, hwrite, hcalls, hlock⟩ := Lock.write_cases p.spec outdir
        { image := p.spec.image, imageId, artifact := p.spec.artifact
          sourceDigest := context.sourceDigest, history := progress.history, builderId
          lockPath := none } host w₁
      have ht₂ : host.Talked w w₂ talk := by
        have hboth := ht.trans (.of_calls_eq hcalls)
        rwa [List.append_nil] at hboth
      have hopens₂ : p.Opens host w start w₂ := by
        intro found staged hstage
        rw [hcalls]
        exact hopens found staged hstage
      dsimp only
      rw [Act.bind_apply, Act.outcome, hwrite]
      rcases hlock with ⟨rfl, htakes⟩ | ⟨fault, rfl, htakes, hsame⟩
      · refine ⟨_, progress, w₂, talk, rfl, .returned hstaged hcourse ?_, ht₂,
          fun _ _ h => (by cases h), hopens₂⟩
        intro other hother
        rw [hout] at hother
        cases hother
        exact htakes
      · refine ⟨_, progress, w₂, talk, rfl, .unlocked hstaged hcourse hout ?_, ht₂,
          fun hw hspec _ => ?_, hopens₂⟩
        · exact htakes
        · rw [hfiles hw hspec] at hsame
          exact hsame

end Pipeline

-- ════════════════════════════════════════════════════════════════════════
-- A small world
-- ════════════════════════════════════════════════════════════════════════

/-- A host whose engine replies to each command in the same way at any time. -/
def Host.replying (reply : Command → Reply) : Host :=
  { cwd := ["work"], scratch := ["tmp"], clock := "", engineVariable := none
    engine := ⟨fun program => some program, fun _ call => reply call.command⟩ }

/-- A reply without any output. -/
def Reply.quiet (code : Int) (identifier : Option String) : Reply := ⟨code, "", "", identifier⟩

/-- A world in which the working directory holds the given files, each of them empty. -/
def World.holding (names : List String) : World :=
  { files := ⟨(["tmp"], .directory) :: (["work"], .directory) ::
      names.map fun name => (["work", name], .file .empty)⟩
    scratchCount := 0, calls := [], level := .info, records := [], shown := [] }

/-- A world in which the working directory holds the sources of the stock pipeline. -/
def World.stocked : World := .holding ["src", "build.rs", "Cargo.toml"]

/-- The pipeline of a specification for the working directory. -/
def Spec.pipeline (spec : Spec) : Pipeline :=
  { spec, sourceRoot := .ofText ".", client := ⟨"docker"⟩, outdir := none, noCache := false
    keepBuilder := false }

theorem World.grounded_holding (reply : Command → Reply) {names : List String}
    (h : Plain names) : (World.holding names).Grounded (.replying reply) := by
  refine ⟨fun above habove => ?_, by simp [Plain, Host.replying], fun entry hmem => ?_⟩
  · rcases List.prefix_cons_iff.mp habove with rfl | ⟨rest, rfl, hrest⟩
    · rfl
    · rw [List.prefix_nil.mp hrest]
      rfl
  · rcases List.mem_cons.mp hmem with rfl | hmem
    · simp [Plain]
    · rcases List.mem_cons.mp hmem with rfl | hmem
      · simp [Plain]
      · obtain ⟨name, hname, rfl⟩ := List.mem_map.mp hmem
        have hplain := h name hname
        simpa [Plain] using hplain

theorem World.grounded_stocked (reply : Command → Reply) :
    World.stocked.Grounded (.replying reply) :=
  grounded_holding reply (by simp [Plain])

end TwoStage

import TwoStage.Proofs.Pipeline.Outcome

/-!
# What a build promises

A build of a fresh pipeline is to return with the pipeline at its last state, or to end with an
error raised on purpose and, if the build stage was begun, at a state of failure. Only errors raised
on purpose lead to a state of failure, so that the promise is kept as long as nothing else goes
wrong in the four places where something can: while the sources are staged, where the engine is
asked for the build stage, where the instructions for the final stage are written and the engine is
asked for it, and where the lock file is written.

## Main definitions

- `Pipeline.KeepsPromise` — the promise, for one build
- `Pipeline.Unhindered` — nothing but the pipeline itself raises an error in the four places

## Main statements

- `Pipeline.keepsPromise_iff` — the promise is kept exactly where a run is unhindered
- `Pipeline.breaksPromise_of_directory` — a source named like the instructions for the final stage
-/

namespace TwoStage.Pipeline

/-- A build returns with the pipeline at its last state; or it ends with the error of its run, which
is one raised on purpose, and at a state of failure if the build stage was begun. -/
def KeepsPromise (p : Pipeline) (host : Host) (w : World) : Prop :=
  ∃ result progress w', p.run .initial host w = (.ok (result, progress), w') ∧
    match result with
    | .ok made => (p.build host w).1 = .ok made ∧ progress.state = .imageReady
    | .error e => (p.build host w).1 = .error e ∧ e.isDeliberate = true ∧
        (.buildInProgress ∈ progress.history → progress.state ∈ [.buildFailed, .finalFailed])

/-- No error but one raised on purpose ends the staging of the sources; where there is an engine, it
can be asked for the build stage; once the build stage is done, the instructions for the final stage
can be written into the context and the engine can be asked for that stage; and once both stages are
done, the lock file can be written. -/
structure Unhindered (p : Pipeline) (host : Host) (w : World) : Prop where
  staging : ∀ e, (p.spec.stage p.sourceRoot host w).1 = .error e → e.isDeliberate = true
  asking : ∀ context w₁ program, p.spec.stage p.sourceRoot host w = (.ok context, w₁) →
    host.engine.find? p.client.program = some program → p.Reaches host context
  instructions : ∀ context w₁ id progress w₂,
    p.spec.stage p.sourceRoot host w = (.ok context, w₁) →
    p.buildStage context (p.builderTag context) .initial host w₁ =
      (.ok (.ok id, progress), w₂) →
    w₁.files.takesFile host.cwd (finalFile context) = true ∧ p.NamesFinal
  lock : ∀ ids progress w₁ outdir,
    p.staged .initial host w = (.ok (.ok ids, progress), w₁) → p.outdir = some outdir →
    w₁.files.takesLock host.cwd outdir = true

-- ════════════════════════════════════════════════════════════════════════
-- Builds and runs
-- ════════════════════════════════════════════════════════════════════════

section

variable {p : Pipeline} {host : Host} {w w' : World} {progress : Progress}

theorem build_of_ok {made : PipelineResult}
    (h : p.run .initial host w = (.ok (.ok made, progress), w')) :
    (p.build host w).1 = .ok made := by
  rw [build, Act.bind_apply, h]
  rfl

/-- A build ends with the error of its run, whether it reports on it or not. -/
theorem build_of_error {e : Error}
    (h : p.run .initial host w = (.ok (.error e, progress), w')) :
    (p.build host w).1 = .error e := by
  rw [build, Act.bind_apply, h]
  dsimp only
  by_cases hdeliberate : e.isDeliberate = true
  · obtain ⟨records, hreport⟩ := Act.report_apply
      (.plain .error "core" ("pipeline failed in state " ++ progress.state.name)) host w'
    rw [if_pos hdeliberate, Act.bind_apply, hreport]
    rfl
  · rw [if_neg hdeliberate]
    rfl

end

-- ════════════════════════════════════════════════════════════════════════
-- The four places
-- ════════════════════════════════════════════════════════════════════════

section

variable {p : Pipeline} {host : Host} {w w₁ w₂ : World} {context : StagedContext}
  {start progress reached : Progress} {talk : Talk} {e : Error} {id : String}
  {result : Except Error (String × String × StagedContext)}

/-- An error from the staging of the sources ends the run. -/
theorem result_of_staging (h : Course p host w start result progress talk)
    (herror : (p.spec.stage p.sourceRoot host w).1 = .error e) : result = .error e := by
  cases h with
  | unstaged hstage =>
    rw [hstage] at herror
    cases herror
    rfl
  | stopped hstage =>
    rw [hstage] at herror
    cases herror
  | halted hstage =>
    rw [hstage] at herror
    cases herror
  | finished hstage =>
    rw [hstage] at herror
    cases herror

/-- An engine that is there but cannot be asked for the build stage ends the run. -/
theorem result_of_not_reaches {program : String}
    (h : Course p host w start result progress talk)
    (hstage : p.spec.stage p.sourceRoot host w = (.ok context, w₁))
    (hfind : host.engine.find? p.client.program = some program)
    (hmute : ¬ p.Reaches host context) : result = .error (.file .nullByte) := by
  cases h with
  | unstaged hstage' => cases hstage.symm.trans hstage'
  | stopped hstage' hran hbuild =>
    cases hstage.symm.trans hstage'
    cases hbuild with
    | engineMissing hfind' => cases hfind.symm.trans hfind'
    | unsaid => rfl
    | refused hreach => exact absurd hreach hmute
    | unprobed => rfl
    | notExecutable hreach => exact absurd hreach hmute
  | halted hstage' hran hbuild =>
    cases hstage.symm.trans hstage'
    cases hbuild with
    | confirmed hreach => exact absurd hreach hmute
  | finished hstage' hran hbuild =>
    cases hstage.symm.trans hstage'
    cases hbuild with
    | confirmed hreach => exact absurd hreach hmute

/-- Instructions that cannot be written, and a final stage for which the engine cannot be asked, end
the run. -/
theorem result_of_instructions (h : Course p host w start result progress talk)
    (hstage : p.spec.stage p.sourceRoot host w = (.ok context, w₁))
    (hran : p.buildStage context (p.builderTag context) start host w₁ =
      (.ok (.ok id, reached), w₂))
    (hfinal : ¬ (w₁.files.takesFile host.cwd (finalFile context) = true ∧ p.NamesFinal)) :
    ∃ fault, result = .error (.file fault) := by
  cases h with
  | unstaged hstage' => cases hstage.symm.trans hstage'
  | stopped hstage' hran' =>
    cases hstage.symm.trans hstage'
    cases hran.symm.trans hran'
  | halted hstage' hran' hbuild hcourse =>
    cases hstage.symm.trans hstage'
    cases hcourse with
    | unwritable => exact ⟨_, rfl⟩
    | unsaid => exact ⟨_, rfl⟩
    | refused htakes hnames => exact absurd ⟨htakes, hnames⟩ hfinal
  | finished hstage' hran' hbuild hcourse =>
    cases hstage.symm.trans hstage'
    cases hcourse with
    | made htakes hnames => exact absurd ⟨htakes, hnames⟩ hfinal

/-- In an unhindered run the stages end with an error raised on purpose, and with a state of failure
once the build stage was begun. -/
theorem deliberate_of_unhindered (hfree : p.Unhindered host w)
    (hpath : isWord p.spec.artifact.path = true)
    (h : Course p host w .initial (.error e) progress talk) :
    e.isDeliberate = true ∧
      (.buildInProgress ∈ progress.history → progress.state ∈ [.buildFailed, .finalFailed]) := by
  cases h with
  | unstaged hstage => exact ⟨hfree.staging e (by rw [hstage]), fun hmem => absurd hmem (by decide)⟩
  | stopped hstage hran hbuild =>
    cases hbuild with
    | engineMissing => exact ⟨rfl, fun _ => by simp⟩
    | unsaid hfind hmute => exact absurd (hfree.asking _ _ _ hstage hfind) hmute
    | refused => exact ⟨rfl, fun _ => by simp⟩
    | unprobed _ _ hnot => cases hpath.symm.trans hnot
    | notExecutable => exact ⟨rfl, fun _ => by simp⟩
  | halted hstage hran hbuild hfinal =>
    obtain ⟨htakes, hnames⟩ := hfree.instructions _ _ _ _ _ hstage hran
    cases hfinal with
    | unwritable hnot => cases htakes.symm.trans hnot
    | unsaid _ hnot => exact absurd hnames hnot
    | refused => exact ⟨rfl, fun _ => by simp⟩

theorem state_of_ok {ids : String × String × StagedContext}
    (h : Course p host w start (.ok ids) progress talk) : progress.state = .imageReady := by
  cases h with
  | finished hstage hran hbuild hfinal =>
    cases hfinal with
    | made => rfl

end

-- ════════════════════════════════════════════════════════════════════════
-- The promise
-- ════════════════════════════════════════════════════════════════════════

/-- The promise is kept exactly where nothing but the pipeline itself raises an error. -/
theorem keepsPromise_iff {p : Pipeline} (hspec : p.spec.Accepted) (host : Host) (w : World) :
    p.KeepsPromise host w ↔ p.Unhindered host w := by
  obtain ⟨result, progress, w', talk, hrun, hending, -, -⟩ := p.run_ending fresh_initial host w
  constructor
  · rintro ⟨result', progress', w'', hrun', hpromise⟩
    have hdeliberate : ∀ e, result = .error e → e.isDeliberate = true := by
      rintro e rfl
      cases hrun.symm.trans hrun'
      exact hpromise.2.1
    have hfault : ∀ fault, result ≠ .error (.file fault) := fun fault hresult =>
      Bool.false_ne_true (hdeliberate _ hresult)
    obtain ⟨reached, hcourse, herror⟩ := hending.course
    refine ⟨fun e hfails => ?_, fun context w₁ program hstage hfind => ?_,
      fun context w₁ id reached' w₂ hstage hran => ?_, fun ids reached' w₁ outdir hstaged hout => ?_⟩
    · exact hdeliberate e (herror e (result_of_staging hcourse hfails))
    · by_contra hmute
      exact hfault _ (herror _ (result_of_not_reaches hcourse hstage hfind hmute))
    · by_contra hfinal
      obtain ⟨fault, hresult⟩ := result_of_instructions hcourse hstage hran hfinal
      exact hfault fault (herror _ hresult)
    · cases hending with
      | failed hstaged' => cases hstaged.symm.trans hstaged'
      | unlocked => exact absurd rfl (hfault _)
      | returned hstaged' _ htakes =>
        cases hstaged.symm.trans hstaged'
        exact htakes outdir hout
  · intro hfree
    refine ⟨result, progress, w', hrun, ?_⟩
    cases hending with
    | failed hstaged hcourse =>
      exact ⟨build_of_error hrun, deliberate_of_unhindered hfree hspec.isWord_artifactPath hcourse⟩
    | unlocked hstaged hcourse hout htakes =>
      have htakes' := hfree.lock _ _ _ _ hstaged hout
      cases htakes.symm.trans htakes'
    | returned hstaged hcourse => exact ⟨build_of_ok hrun, state_of_ok hcourse⟩

/-- The stock pipeline with its sources and with an engine that makes every image keeps the
promise. -/
theorem keepsPromise_standard :
    Spec.standard.Accepted ∧
      Spec.standard.pipeline.KeepsPromise (.replying fun _ => .quiet 0 (some "id")) .stocked := by
  have hstaged : (Spec.standard.stage (.ofText ".") (.replying fun _ => .quiet 0 (some "id"))
      .stocked).1.toOption.any (fun context => (Spec.standard.stage (.ofText ".")
        (.replying fun _ => .quiet 0 (some "id")) .stocked).2.files.takesFile ["work"]
          (finalFile context)) = true := by decide +kernel
  obtain ⟨context, hcontext, htakes⟩ := exists_ok_of_any hstaged
  have hstage := eq_mk_of_fst hcontext
  refine ⟨Spec.accepted_standard, (keepsPromise_iff (p := Spec.standard.pipeline)
    Spec.accepted_standard _ _).mpr ⟨fun e hfails => ?_, fun other _ _ hother _ => ?_,
      fun other _ _ _ _ hother _ => ?_, fun _ _ _ outdir _ hout => ?_⟩⟩
  · cases hcontext.symm.trans hfails
  · exact reaches_of_words (Spec.placed_of_stage hother) rfl (by decide)
  · cases hstage.symm.trans hother
    exact ⟨htakes, by decide⟩
  · cases hout

-- ════════════════════════════════════════════════════════════════════════
-- A promise that is not kept
-- ════════════════════════════════════════════════════════════════════════

/-- A specification whose only source is named like the instructions for the final stage. -/
def clashingSpec : Spec :=
  { Spec.standard with
    build := { BuildStage.standard with
      sources := { SourceInput.standard with paths := [Dockerfile.finalFileName] } } }

/-- A world in which that source is a directory. -/
def clashingWorld : World :=
  { World.holding [] with
    files := (World.holding []).files.put ["work", Dockerfile.finalFileName] .directory }

/-- Whether a run ended in the middle of the final stage with an error of the file system. -/
def strandsFinalStage (ended : Except Error (Except Error PipelineResult × Progress)) : Bool :=
  match ended with
  | .ok (.error (.file _), progress) => progress.state = .finalInProgress
  | _ => false

/-- With such a source the run ends in the middle of the final stage with an error of the file
system, although the engine makes every image. -/
theorem breaksPromise_of_directory :
    clashingSpec.Accepted ∧
      (∃ fault progress w', clashingSpec.pipeline.run .initial
          (.replying fun _ => .quiet 0 (some "id")) clashingWorld =
          (.ok (.error (.file fault), progress), w') ∧ progress.state = .finalInProgress) ∧
      ¬ clashingSpec.pipeline.KeepsPromise (.replying fun _ => .quiet 0 (some "id"))
        clashingWorld := by
  have haccepted : clashingSpec.Accepted :=
    Spec.accepted_of_parse
      (.obj [("build", .obj [("sources", .obj [("paths", .arr [.str "Dockerfile.final"])])])])
      (by decide +kernel)
  have hends : strandsFinalStage (clashingSpec.pipeline.run .initial
      (.replying fun _ => .quiet 0 (some "id")) clashingWorld).1 = true := by decide +kernel
  cases hrun : clashingSpec.pipeline.run .initial
      (.replying fun _ => .quiet 0 (some "id")) clashingWorld with
  | mk ended w' =>
    rw [hrun] at hends
    unfold strandsFinalStage at hends
    split at hends
    · next fault progress hended =>
      dsimp only at hended
      subst hended
      refine ⟨haccepted, ⟨fault, progress, w', rfl, of_decide_eq_true hends⟩, ?_⟩
      rintro ⟨result, progress', w'', hrun', hpromise⟩
      cases hrun.symm.trans hrun'
      exact absurd hpromise.2.1 Bool.false_ne_true
    · cases hends

end TwoStage.Pipeline

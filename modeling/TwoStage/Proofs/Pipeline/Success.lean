import TwoStage.Proofs.Pipeline.Course

/-!
# Runs that succeed

A run that ends with a result has staged its sources, built both stages and, where it is told so,
written its record. The engine got a call for the build stage, one that looks for the executable,
one for the final stage, and behind these nothing but removals.

## Main definitions

- `BuildDone`, `FinalDone` — what was done between two worlds for each of the stages
- `Success` — what was done in a whole run

## Main statements

- `Pipeline.buildStage_eq_ok`, `Pipeline.finalStage_eq_ok` — a stage that ends with an image is done
- `Pipeline.run_eq_ok` — so is a run that ends with a result
-/

namespace TwoStage

section

variable (p : Pipeline) (host : Host) (context : StagedContext)

/-- The build stage was built: one call made its image, the next found the executable in it. -/
structure BuildDone (w w' : World) (builder probe : Call) (id : String) : Prop where
  call : (p.builderOrder context).IsCall host context.root w.files builder
  image : (BuildOutcome.ofReply (host.engine.reply w.calls builder)).made? = some id
  command : probe.command = .run (p.probe context)
  confirmed : (host.engine.reply (w.calls ++ [builder]) probe).code = 0
  files : w'.files = w.files
  calls : w'.calls = w.calls ++ [builder, probe]

/-- The final stage was built: its instructions were written, and one call made its image. -/
structure FinalDone (w w' : World) (final : Call) (id : String) : Prop where
  instructions : w.files.write host.cwd (Pipeline.finalFile context)
    (utf8Bytes (Dockerfile.text (Dockerfile.finalOnly p.spec (p.builderTag context)))) =
      .ok w'.files
  call : p.finalOrder.IsCall host context.root w'.files final
  image : (BuildOutcome.ofReply (host.engine.reply w.calls final)).made? = some id
  calls : w'.calls = w.calls ++ [final]

/-- A whole run was done: the sources were staged and both stages built, and nothing was said behind
that but to remove the image of the build stage. -/
structure Success (w w' : World) (builder probe final : Call) (builderId imageId : String) :
    Prop where
  stages : ∃ staged built finished,
    p.spec.stage p.sourceRoot host w = (.ok context, staged) ∧
    BuildDone p host context staged built builder probe builderId ∧
    FinalDone p host context built finished final imageId
  calls : ∃ removals, w'.calls = w.calls ++ [builder, probe, final] ++ removals ∧
    ∀ call ∈ removals, call.command = .remove (p.builderTag context)

end

/-- Writing the record is the last thing that happens to the files. -/
theorem Lock.write_eq_ok {spec : Spec} {outdir path : Path} {result : PipelineResult} {host : Host}
    {w w' : World} (h : write spec outdir result host w = (.ok path, w')) :
    path = outdir.child fileName ∧ w'.calls = w.calls ∧
      ∃ made, w.files.makeDirectoriesPartly host.cwd outdir = (made, none) ∧
        made.write host.cwd (outdir.child fileName)
          (utf8Bytes (toJson spec result host.clock).indented) = .ok w'.files := by
  rw [write] at h
  obtain ⟨⟨⟩, w₁, hmake, hmade⟩ := Act.bind_eq_ok h
  obtain ⟨_, w₂, hhost, hafter⟩ := Act.bind_eq_ok hmade
  cases hhost
  obtain ⟨⟨⟩, w₃, hwrite, hend⟩ := Act.bind_eq_ok hafter
  cases hend
  obtain ⟨hwritten, hcalls⟩ := Act.writeText_eq_ok hwrite
  obtain ⟨_, w₄, hmake', hcalls', -⟩ := Act.makeDirectories_cases outdir host w
  cases hmake.symm.trans hmake'
  exact ⟨rfl, hcalls.trans hcalls', w₁.files, Act.changeFilesPartly_eq_ok hmake, hwritten⟩

namespace Pipeline

variable {p : Pipeline} {host : Host} {context : StagedContext} {start progress : Progress}
  {w w' : World} {id : String}

theorem requireImage_eq_ok {stage : String} {outcome : BuildOutcome}
    (h : requireImage stage outcome host w = (.ok id, w')) :
    outcome.made? = some id ∧ w' = w := by
  cases hmade : outcome.made? with
  | none => cases h.symm.trans (requireImage_of_none hmade w)
  | some made =>
    cases h.symm.trans (requireImage_of_some hmade w)
    exact ⟨rfl, rfl⟩

theorem confirmArtifact_eq_ok (hreach : p.Reaches host context)
    (h : p.confirmArtifact (p.builderTag context) host w = (.ok (), w')) :
    ∃ call, call.command = .run (p.probe context) ∧ (host.engine.reply w.calls call).code = 0 ∧
      w.Called w' call := by
  cases hpath : isWord p.spec.artifact.path with
  | false =>
    obtain ⟨w₁, hfails, -⟩ := confirmArtifact_of_unsayable hreach hpath w
    cases h.symm.trans hfails
  | true =>
    obtain ⟨call, w₁, hcommand, hcalled, hconfirm⟩ := confirmArtifact_called hreach hpath w
    dsimp only at hconfirm
    split at hconfirm
    · next hcode =>
      cases h.symm.trans hconfirm
      exact ⟨call, hcommand, hcode, hcalled⟩
    · cases h.symm.trans hconfirm

/-- A build of the build stage that comes to something could be asked for. -/
theorem reaches_of_build {call : Call} {t : FileTree}
    (hfind : host.engine.find? p.client.program = some call.program)
    (hcall : (p.builderOrder context).IsCall host context.root t call)
    (hsay : call.isSayable = true) : p.Reaches host context := by
  obtain ⟨n, hcommand⟩ := hcall.command
  rw [Call.isSayable, hcommand, isSayable_iff_texts] at hsay
  refine ⟨call.program, hfind, forall_builderOrder_iff.mp ?_⟩
  simp only [List.forall_mem_cons]
  exact ⟨hsay.1, hsay.2 _ (by simp [Command.texts, Client.BuildOrder.command]),
    hsay.2 _ (by simp [Command.texts, Client.BuildOrder.command]), by simp⟩

/-- A build stage that ends with an image is done. -/
theorem buildStage_eq_ok
    (h : p.buildStage context (p.builderTag context) start host w = (.ok (.ok id, progress), w')) :
    progress = (start.move .buildInProgress).tagged.move .artifactReady ∧
      p.Reaches host context ∧
      ∃ builder probe, BuildDone p host context w w' builder probe id := by
  rw [buildStage_eq] at h
  obtain ⟨w₁, reached, w₂, hs₁, hattempt, rfl, hs₂⟩ := Stride.phase_eq_ok h
  rw [attemptBuild] at hattempt
  obtain ⟨outcome, w₃, hbuild, hbuilt⟩ := Stride.ofAct_bind_eq_ok hattempt
  obtain ⟨_, builder, hfind, rfl, hsay, hcall, rfl, hcalled⟩ := Client.build_eq_ok hbuild
  have hreach := reaches_of_build hfind hcall hsay
  obtain ⟨made, w₄, hrequire, hnamed⟩ := Stride.ofAct_bind_eq_ok hbuilt
  obtain ⟨himage, rfl⟩ := requireImage_eq_ok hrequire
  rw [Stride.bind_of_ok Stride.noteBuilder_apply] at hnamed
  obtain ⟨⟨⟩, w₅, hconfirm, hlast⟩ := Stride.ofAct_bind_eq_ok hnamed
  obtain ⟨probe, hprobe, hcode, hprobed⟩ := confirmArtifact_eq_ok hreach hconfirm
  cases hlast
  refine ⟨rfl, hreach, builder, probe, ?_⟩
  rw [hs₁.files] at hcall
  rw [hs₁.calls] at himage
  rw [hcalled.calls, hs₁.calls] at hcode
  refine ⟨hcall, himage, hprobe, hcode, ?_, ?_⟩
  · rw [hs₂.files, hprobed.files, hcalled.files, hs₁.files]
  · rw [hs₂.calls, hprobed.calls, hcalled.calls, hs₁.calls, List.append_assoc]
    rfl

/-- A final stage that ends with an image is done. -/
theorem finalStage_eq_ok
    (h : p.finalStage context (p.builderTag context) start host w = (.ok (.ok id, progress), w')) :
    progress = (start.move .finalInProgress).move .imageReady ∧
      ∃ final, FinalDone p host context w w' final id := by
  rw [finalStage_eq] at h
  obtain ⟨w₁, reached, w₂, hs₁, hattempt, rfl, hs₂⟩ := Stride.phase_eq_ok h
  rw [attemptFinal] at hattempt
  obtain ⟨⟨⟩, w₃, hwrite, hafter⟩ := Stride.ofAct_bind_eq_ok hattempt
  obtain ⟨hwritten, hsilent⟩ := Act.writeText_eq_ok hwrite
  obtain ⟨outcome, w₄, hbuild, hbuilt⟩ := Stride.ofAct_bind_eq_ok hafter
  obtain ⟨program, final, -, -, -, hcall, rfl, hcalled⟩ := Client.build_eq_ok hbuild
  obtain ⟨rfl, hrequire⟩ := Stride.ofAct_eq_ok hbuilt
  obtain ⟨himage, rfl⟩ := requireImage_eq_ok hrequire
  have hfiles : w'.files = w₃.files := by rw [hs₂.files, hcalled.files]
  refine ⟨rfl, final, ?_⟩
  rw [hs₁.files, ← hfiles] at hwritten
  rw [← hfiles] at hcall
  rw [hsilent, hs₁.calls] at himage
  refine ⟨hwritten, hcall, himage, ?_⟩
  rw [hs₂.calls, hcalled.calls, hsilent, hs₁.calls]

theorem bothStages_eq_ok {ids : String × String}
    (h : p.bothStages context (p.builderTag context) .initial host w =
      (.ok (.ok ids, progress), w')) :
    progress.history =
        [.start, .buildInProgress, .artifactReady, .finalInProgress, .imageReady] ∧
      p.Reaches host context ∧
      ∃ w₁ builder probe final, BuildDone p host context w w₁ builder probe ids.1 ∧
        FinalDone p host context w₁ w' final ids.2 := by
  rw [bothStages] at h
  obtain ⟨builderId, _, w₁, hbuild, hbuilt⟩ := Stride.bind_eq_ok h
  obtain ⟨imageId, _, w₂, hfinal, hlast⟩ := Stride.bind_eq_ok hbuilt
  obtain ⟨rfl, hreach, builder, probe, hfirst⟩ := buildStage_eq_ok hbuild
  obtain ⟨rfl, final, hsecond⟩ := finalStage_eq_ok hfinal
  cases hlast
  exact ⟨rfl, hreach, w₁, builder, probe, final, hfirst, hsecond⟩

/-- Cleaning up says nothing but to remove the image of the build stage. -/
theorem cleanUp_calls (hreach : p.Reaches host context) {result : Except Error Unit}
    (h : p.cleanUp (p.builderTag context) progress host w = (result, w')) :
    ∃ removals, w'.calls = w.calls ++ removals ∧
      ∀ call ∈ removals, call.command = .remove (p.builderTag context) := by
  obtain ⟨w₁, talk, hclean, hcleaning, hspoke⟩ := p.cleanUp_cleaning (fun _ => hreach) w
  cases h.symm.trans hclean
  obtain ⟨removals, hcalls, htalk⟩ := hspoke.talked
  refine ⟨removals, hcalls, fun call hcall => ?_⟩
  have hmem : call.command ∈ talk.map Prod.fst := by
    rw [← htalk, Engine.map_fst_talk]
    exact List.mem_map_of_mem hcall
  rw [Cleaning] at hcleaning
  split at hcleaning
  · obtain ⟨reply, rfl⟩ := hcleaning
    exact List.mem_singleton.mp hmem
  · rw [hcleaning] at hmem
    cases hmem

theorem inContext_eq_ok {made : String × String × StagedContext}
    (h : p.inContext context .initial host w = (.ok (.ok made, progress), w')) :
    progress.history =
        [.start, .buildInProgress, .artifactReady, .finalInProgress, .imageReady] ∧
      made.2.2 = context ∧
      ∃ w₁ w₂ builder probe final, BuildDone p host context w w₁ builder probe made.1 ∧
        FinalDone p host context w₁ w₂ final made.2.1 ∧
        ∃ removals, w'.calls = w₂.calls ++ removals ∧
          ∀ call ∈ removals, call.command = .remove (p.builderTag context) := by
  rw [inContext] at h
  obtain ⟨⟨ids, reached⟩, w₂, hboth, hafter⟩ := Act.bind_eq_ok h
  obtain ⟨cleaned, w₃, houtcome, hend⟩ := Act.bind_eq_ok hafter
  have hclean := Act.outcome_eq_ok houtcome
  cases cleaned with
  | error e => cases hend
  | ok _ =>
    cases ids with
    | error e => cases hend
    | ok ids =>
      cases hend
      obtain ⟨hhistory, hreach, w₁, builder, probe, final, hbuild, hfinal⟩ := bothStages_eq_ok hboth
      exact ⟨hhistory, rfl, w₁, w₂, builder, probe, final, hbuild, hfinal,
        cleanUp_calls hreach hclean⟩

/-- Stages that end with their images are done. -/
theorem staged_eq_ok {builderId imageId : String}
    (h : p.staged .initial host w = (.ok (.ok (builderId, imageId, context), progress), w')) :
    progress.history =
        [.start, .buildInProgress, .artifactReady, .finalInProgress, .imageReady] ∧
      ∃ builder probe final, Success p host context w w' builder probe final builderId imageId := by
  rw [staged] at h
  obtain ⟨reached, w₁, houtcome, hend⟩ := Act.bind_eq_ok h
  have hin := Act.outcome_eq_ok houtcome
  cases reached with
  | error e => cases hend
  | ok reached =>
    cases hend
    cases hstage : p.spec.stage p.sourceRoot host w with
    | mk result w₂ =>
      have hsilent := p.spec.calls_stage p.sourceRoot host w
      rw [hstage] at hsilent
      cases result with
      | error e => cases hin.symm.trans (Spec.inContext_of_stage_error _ hstage)
      | ok found =>
        rw [Spec.inContext_of_stage _ hstage] at hin
        cases hran : p.inContext found .initial host w₂ with
        | mk result w₃ =>
          rw [hran] at hin
          obtain ⟨rfl, rfl⟩ := Prod.mk.inj hin
          obtain ⟨hhistory, rfl, w₄, w₅, builder, probe, final, hbuild, hfinal, removals, hcalls,
            hremovals⟩ := inContext_eq_ok hran
          refine ⟨hhistory, builder, probe, final,
            ⟨w₂, w₄, w₅, hstage, hbuild, hfinal⟩, removals, ?_, hremovals⟩
          rw [hcalls, hfinal.calls, hbuild.calls, hsilent]
          simp

/-- What a run is about to end with where its stages are done, before its record is written. -/
def resultOf (p : Pipeline) (context : StagedContext) (builderId imageId : String) :
    PipelineResult :=
  { image := p.spec.image, imageId, artifact := p.spec.artifact
    sourceDigest := context.sourceDigest
    history := [.start, .buildInProgress, .artifactReady, .finalInProgress, .imageReady]
    builderId, lockPath := none }

/-- A run that ends with a result is done, and its record is written last, to the files as they were
before. -/
theorem run_eq_ok {outdir : Path} (hout : p.outdir = some outdir) {made : PipelineResult}
    (h : p.run .initial host w = (.ok (.ok made, progress), w')) :
    ∃ context builder probe final builderId imageId,
      Success p host context w w' builder probe final builderId imageId ∧
      made = { p.resultOf context builderId imageId with
        lockPath := some (outdir.child Lock.fileName) } ∧
      ∃ before made : FileTree, (w.Grounded host → p.spec.StaysInside → before = w.files) ∧
        before.makeDirectoriesPartly host.cwd outdir = (made, none) ∧
        made.write host.cwd (outdir.child Lock.fileName)
          (utf8Bytes (Lock.toJson p.spec (p.resultOf context builderId imageId)
            host.clock).indented) = .ok w'.files := by
  rw [run, if_neg (by decide)] at h
  obtain ⟨⟨reached, last⟩, w₁, hstaged, hafter⟩ := Act.bind_eq_ok h
  cases reached with
  | error e => cases hafter
  | ok ids =>
    obtain ⟨builderId, imageId, context⟩ := ids
    obtain ⟨hhistory, builder, probe, final, hsuccess⟩ := staged_eq_ok hstaged
    simp only [hout, hhistory] at hafter
    obtain ⟨written, w₂, houtcome, hend⟩ := Act.bind_eq_ok hafter
    have hwrite := Act.outcome_eq_ok houtcome
    cases written with
    | error e => cases hend
    | ok path =>
      cases hend
      obtain ⟨rfl, hcalls, made, hmade, hlock⟩ := Lock.write_eq_ok hwrite
      obtain ⟨_, _, w₃, _, hstaged', -, -, hfiles, -⟩ :=
        p.staged_course fresh_initial host w
      cases hstaged.symm.trans hstaged'
      refine ⟨context, builder, probe, final, builderId, imageId, ⟨hsuccess.stages, ?_⟩, rfl,
        w₁.files, made, hfiles, hmade, hlock⟩
      rw [hcalls]
      exact hsuccess.calls

end Pipeline

end TwoStage

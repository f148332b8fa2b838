import TwoStage.Proofs.Pipeline.Orders

/-!
# The course of a run

How the stages of a pipeline can go, with the progress that they end in and with what they say to
the engine. A course holds the facts that decided on it, so that what is claimed of all runs is
checked course by course.

## Main definitions

- `BuildCourse`, `FinalCourse` — the courses of the two stages
- `Course` — the courses of both in the staged context, the clean-up included
- `Pipeline.Opens` — the build stage is the first that says something

## Main statements

- `Pipeline.buildStage_course`, `Pipeline.finalStage_course` — each stage takes one of its courses
- `Pipeline.staged_course` — so do both of them together
-/

namespace TwoStage

/-- The progress of a pipeline that has not started its stages. -/
structure Progress.Fresh (progress : Progress) : Prop where
  state : progress.state = .start
  untagged : progress.builderTagged = false

namespace Pipeline

theorem fresh_initial : Progress.initial.Fresh := ⟨rfl, rfl⟩

/-- The part of the build stage in which an error raised on purpose is a failure of the stage. -/
def attemptBuild (p : Pipeline) (context : StagedContext) : Stride String := do
  let outcome ← Stride.ofAct (p.client.build context.root (p.builderOrder context))
  let id ← Stride.ofAct (requireImage p.spec.build.name outcome)
  Stride.noteBuilder
  Stride.ofAct (p.confirmArtifact (p.builderTag context))
  return id

/-- The part of the final stage in which an error raised on purpose is a failure of the stage. -/
def attemptFinal (p : Pipeline) (context : StagedContext) : Stride String := do
  Stride.ofAct (Act.writeText (finalFile context)
    (Dockerfile.text (Dockerfile.finalOnly p.spec (p.builderTag context))))
  let outcome ← Stride.ofAct (p.client.build context.root p.finalOrder)
  Stride.ofAct (requireImage p.spec.final.name outcome)

/-- What the build stage says in the staged context is said first. -/
def Opens (p : Pipeline) (host : Host) (w : World) (start : Progress) (w' : World) : Prop :=
  ∀ context staged, p.spec.stage p.sourceRoot host w = (.ok context, staged) →
    (p.buildStage context (p.builderTag context) start host staged).2.calls <+: w'.calls

/-- What is said to clean up: the image of the build stage is removed where it exists and is not to
be kept. -/
def Cleaning (p : Pipeline) (context : StagedContext) (progress : Progress) (talk : Talk) : Prop :=
  if progress.builderTagged && !p.keepBuilder then
    ∃ reply, talk = [(.remove (p.builderTag context), reply)]
  else talk = []

end Pipeline

section

variable (p : Pipeline) (host : Host)

/-- The courses of the build stage. -/
inductive BuildCourse (context : StagedContext) (start : Progress) :
    Except Error String → Progress → Talk → Prop
  | engineMissing (hfind : host.engine.find? p.client.program = none) :
      BuildCourse context start (.error (.engineNotFound p.client.program))
        ((start.move .buildInProgress).move .buildFailed) []
  | unsaid {program} (hfind : host.engine.find? p.client.program = some program)
      (hreach : ¬ p.Reaches host context) :
      BuildCourse context start (.error (.file .nullByte)) (start.move .buildInProgress) []
  | refused {idFile reply} (hreach : p.Reaches host context)
      (hmade : (BuildOutcome.ofReply reply).made? = none) :
      BuildCourse context start
        (.error (.stage (Failure.classify p.spec.build.name reply.out)))
        ((start.move .buildInProgress).move .buildFailed)
        [(.build ((p.builderOrder context).command context.root idFile), reply)]
  | unprobed {idFile reply id} (hreach : p.Reaches host context)
      (hmade : (BuildOutcome.ofReply reply).made? = some id)
      (hpath : isWord p.spec.artifact.path = false) :
      BuildCourse context start (.error (.file .nullByte)) (start.move .buildInProgress).tagged
        [(.build ((p.builderOrder context).command context.root idFile), reply)]
  | notExecutable {idFile reply id probed} (hreach : p.Reaches host context)
      (hmade : (BuildOutcome.ofReply reply).made? = some id) (hcode : probed.code ≠ 0) :
      BuildCourse context start
        (.error (.stage ⟨.noExecutable p.spec.artifact.path, p.spec.artifact.stage,
          probed.out ++ probed.err⟩))
        ((start.move .buildInProgress).tagged.move .buildFailed)
        [(.build ((p.builderOrder context).command context.root idFile), reply),
          (.run (p.probe context), probed)]
  | confirmed {idFile reply id probed} (hreach : p.Reaches host context)
      (hmade : (BuildOutcome.ofReply reply).made? = some id) (hcode : probed.code = 0) :
      BuildCourse context start (.ok id)
        ((start.move .buildInProgress).tagged.move .artifactReady)
        [(.build ((p.builderOrder context).command context.root idFile), reply),
          (.run (p.probe context), probed)]

/-- The courses of the final stage, `t` being the files before it. -/
inductive FinalCourse (t : FileTree) (context : StagedContext) (reached : Progress) :
    Except Error String → Progress → Talk → Prop
  | unwritable {fault} (htakes : t.takesFile host.cwd (Pipeline.finalFile context) = false) :
      FinalCourse t context reached (.error (.file fault)) (reached.move .finalInProgress) []
  | unsaid (htakes : t.takesFile host.cwd (Pipeline.finalFile context) = true)
      (hnames : ¬ p.NamesFinal) :
      FinalCourse t context reached (.error (.file .nullByte)) (reached.move .finalInProgress) []
  | refused {idFile reply} (htakes : t.takesFile host.cwd (Pipeline.finalFile context) = true)
      (hnames : p.NamesFinal)
      (hmade : (BuildOutcome.ofReply reply).made? = none) :
      FinalCourse t context reached
        (.error (.stage (Failure.classify p.spec.final.name reply.out)))
        ((reached.move .finalInProgress).move .finalFailed)
        [(.build (p.finalOrder.command context.root idFile), reply)]
  | made {idFile reply id} (htakes : t.takesFile host.cwd (Pipeline.finalFile context) = true)
      (hnames : p.NamesFinal)
      (hmade : (BuildOutcome.ofReply reply).made? = some id) :
      FinalCourse t context reached (.ok id)
        ((reached.move .finalInProgress).move .imageReady)
        [(.build (p.finalOrder.command context.root idFile), reply)]

/-- The courses of both stages in the staged context, the clean-up included. -/
inductive Course (w : World) (start : Progress) :
    Except Error (String × String × StagedContext) → Progress → Talk → Prop
  | unstaged {e w'} (hstage : p.spec.stage p.sourceRoot host w = (.error e, w')) :
      Course w start (.error e) start []
  | stopped {context w' w'' e progress talk cleaning}
      (hstage : p.spec.stage p.sourceRoot host w = (.ok context, w'))
      (hran : p.buildStage context (p.builderTag context) start host w' =
        (.ok (.error e, progress), w''))
      (hbuild : BuildCourse p host context start (.error e) progress talk)
      (hclean : p.Cleaning context progress cleaning) :
      Course w start (.error e) progress (talk ++ cleaning)
  | halted {context w' w'' id reached talk e progress more cleaning}
      (hstage : p.spec.stage p.sourceRoot host w = (.ok context, w'))
      (hran : p.buildStage context (p.builderTag context) start host w' =
        (.ok (.ok id, reached), w''))
      (hbuild : BuildCourse p host context start (.ok id) reached talk)
      (hfinal : FinalCourse p host w'.files context reached (.error e) progress more)
      (hclean : p.Cleaning context progress cleaning) :
      Course w start (.error e) progress (talk ++ more ++ cleaning)
  | finished {context w' w'' id reached talk imageId progress more cleaning}
      (hstage : p.spec.stage p.sourceRoot host w = (.ok context, w'))
      (hran : p.buildStage context (p.builderTag context) start host w' =
        (.ok (.ok id, reached), w''))
      (hbuild : BuildCourse p host context start (.ok id) reached talk)
      (hfinal : FinalCourse p host w'.files context reached (.ok imageId) progress more)
      (hclean : p.Cleaning context progress cleaning) :
      Course w start (.ok (id, imageId, context)) progress (talk ++ more ++ cleaning)

end

/-- Where the image of the build stage is noted, the engine could be asked for it. -/
theorem BuildCourse.reaches {p : Pipeline} {host : Host} {context : StagedContext}
    {start progress : Progress} {result : Except Error String} {talk : Talk}
    (h : BuildCourse p host context start result progress talk)
    (hstart : start.builderTagged = false) (htagged : progress.builderTagged = true) :
    p.Reaches host context := by
  cases h with
  | engineMissing => simp [hstart] at htagged
  | unsaid => simp [hstart] at htagged
  | refused hreach => exact hreach
  | unprobed hreach => exact hreach
  | notExecutable hreach => exact hreach
  | confirmed hreach => exact hreach

namespace Pipeline

variable {host : Host} {context : StagedContext}

theorem requireImage_of_some {stage : String} {outcome : BuildOutcome} {id : String}
    (h : outcome.made? = some id) (w : World) :
    requireImage stage outcome host w = (.ok id, w) := by
  rw [requireImage, h]
  rfl

theorem requireImage_of_none {stage : String} {outcome : BuildOutcome}
    (h : outcome.made? = none) (w : World) :
    requireImage stage outcome host w =
      (.error (.stage (Failure.classify stage outcome.log)), w) := by
  rw [requireImage, h]
  rfl

/-- Looking for the executable is one run, which has to exit with zero. -/
theorem confirmArtifact_called {p : Pipeline} (hreach : p.Reaches host context)
    (hpath : isWord p.spec.artifact.path = true) (w : World) :
    ∃ call w', call.command = .run (p.probe context) ∧ w.Called w' call ∧
      let probed := host.engine.reply w.calls call
      p.confirmArtifact (p.builderTag context) host w =
        (if probed.code = 0 then .ok ()
          else .error (.stage ⟨.noExecutable p.spec.artifact.path, p.spec.artifact.stage,
            probed.out ++ probed.err⟩), w') := by
  obtain ⟨program, hfind, hwords⟩ := hreach
  obtain ⟨w', hrun, hcalled⟩ :=
    Client.run_called hfind ((isSayable_probe_iff hwords).mpr hpath) w
  refine ⟨_, w', rfl, hcalled, ?_⟩
  generalize host.engine.reply w.calls ⟨program, .run (p.probe context), w.files⟩ = probed at hrun ⊢
  rw [probe] at hrun
  rw [confirmArtifact, Act.bind_apply, hrun]
  by_cases hcode : probed.code = 0
  · simp [hcode, Pure.pure, Act.pure]
  · simp [hcode, Act.fail, RunOutcome.output]

theorem confirmArtifact_of_reaches {p : Pipeline} (hreach : p.Reaches host context)
    (hpath : isWord p.spec.artifact.path = true) (w : World) :
    ∃ probed w', host.Spoke w w' [(.run (p.probe context), probed)] ∧
      p.confirmArtifact (p.builderTag context) host w =
        (if probed.code = 0 then .ok ()
          else .error (.stage ⟨.noExecutable p.spec.artifact.path, p.spec.artifact.stage,
            probed.out ++ probed.err⟩), w') := by
  obtain ⟨call, w', hcommand, hcalled, hconfirm⟩ := confirmArtifact_called hreach hpath w
  have hspoke := hcalled.spoke host
  rw [hcommand] at hspoke
  exact ⟨_, w', hspoke, hconfirm⟩

/-- The executable is not looked for where its path is no word. -/
theorem confirmArtifact_of_unsayable {p : Pipeline} (hreach : p.Reaches host context)
    (hpath : isWord p.spec.artifact.path = false) (w : World) :
    ∃ w', p.confirmArtifact (p.builderTag context) host w = (.error (.file .nullByte), w') ∧
      host.Spoke w w' [] := by
  obtain ⟨program, hfind, hwords⟩ := hreach
  have hunsaid : (Command.run (p.probe context)).isSayable program = false := by
    rw [Bool.eq_false_iff, ne_eq, isSayable_probe_iff hwords, hpath]
    exact Bool.false_ne_true
  obtain ⟨w', hrun, hspoke⟩ := Client.run_of_unsayable hfind hunsaid w
  exact ⟨w', Act.bind_of_error hrun, hspoke⟩

theorem buildStage_eq (p : Pipeline) (context : StagedContext) :
    p.buildStage context (p.builderTag context) =
      Stride.phase .buildInProgress .artifactReady .buildFailed (p.attemptBuild context) := rfl

theorem finalStage_eq (p : Pipeline) (context : StagedContext) :
    p.finalStage context (p.builderTag context) =
      Stride.phase .finalInProgress .imageReady .finalFailed (p.attemptFinal context) := rfl

/-- Once the image of the build stage is made, the executable in it decides. -/
theorem confirm_course {p : Pipeline} (hreach : p.Reaches host context) {idFile : Path}
    {reply : Reply} {id : String} (hmade : (BuildOutcome.ofReply reply).made? = some id)
    (start : Progress) (w : World) :
    let tagged := (start.move .buildInProgress).tagged
    ∃ result w' talk,
      (Stride.ofAct (p.confirmArtifact (p.builderTag context)) >>= fun _ => Pure.pure id) tagged host
        w = (.ok (result, tagged), w') ∧
      BuildCourse p host context start result (tagged.settle .artifactReady .buildFailed result)
        ((.build ((p.builderOrder context).command context.root idFile), reply) :: talk) ∧
      host.Spoke w w' talk := by
  intro tagged
  cases hpath : isWord p.spec.artifact.path with
  | false =>
    obtain ⟨w₁, hconfirm, hs⟩ := confirmArtifact_of_unsayable hreach hpath w
    exact ⟨_, w₁, _, Stride.bind_of_error (Stride.ofAct_apply hconfirm) _,
      .unprobed hreach hmade hpath, hs⟩
  | true =>
    obtain ⟨probed, w₁, hs, hconfirm⟩ := confirmArtifact_of_reaches hreach hpath w
    by_cases hcode : probed.code = 0
    · rw [if_pos hcode] at hconfirm
      refine ⟨_, w₁, _, ?_, .confirmed hreach hmade hcode, hs⟩
      rw [Stride.bind_of_ok (Stride.ofAct_apply hconfirm), Stride.pure_apply]
    · rw [if_neg hcode] at hconfirm
      exact ⟨_, w₁, _, Stride.bind_of_error (Stride.ofAct_apply hconfirm) _,
        .notExecutable hreach hmade hcode, hs⟩

/-- Where the engine can be asked for it, the call for the build comes first. -/
theorem attemptBuild_called {p : Pipeline} (hreach : p.Reaches host context)
    (hplaced : context.Placed host) (start : Progress) (w : World) :
    ∃ call result progress w' talk,
      p.attemptBuild context (start.move .buildInProgress) host w =
        (.ok (result, progress), w') ∧ progress.state = .buildInProgress ∧
      (p.builderOrder context).IsCall host context.root w.files call ∧
      w.calls ++ [call] <+: w'.calls ∧
      BuildCourse p host context start result
        (progress.settle .artifactReady .buildFailed result) talk ∧ host.Spoke w w' talk := by
  obtain ⟨call, w₁, hcall, hbuild, hcalled⟩ := hreach.build_called hplaced w
  have hopens : w.calls ++ [call] <+: w₁.calls := hcalled.calls ▸ List.prefix_refl _
  obtain ⟨n, hcommand⟩ := hcall.command
  have hs₁ := hcalled.spoke host
  rw [hcommand] at hs₁
  generalize host.engine.reply w.calls call = reply at hbuild hs₁
  cases hmade : (BuildOutcome.ofReply reply).made? with
  | none =>
    refine ⟨call, .error (.stage (Failure.classify p.spec.build.name reply.out)), _, w₁, _, ?_, rfl,
      hcall, hopens, .refused hreach hmade, hs₁⟩
    rw [attemptBuild, Stride.bind_of_ok (Stride.ofAct_apply hbuild),
      Stride.bind_of_error (Stride.ofAct_apply (requireImage_of_none hmade w₁))]
    rfl
  | some id =>
    obtain ⟨result, w₂, talk, hconfirm, hcourse, hs₂⟩ := confirm_course hreach hmade start w₁
    refine ⟨call, result, _, w₂, _, ?_, rfl, hcall, hopens.trans hs₂.talked.grows, hcourse,
      hs₁.trans hs₂⟩
    rw [attemptBuild, Stride.bind_of_ok (Stride.ofAct_apply hbuild),
      Stride.bind_of_ok (Stride.ofAct_apply (requireImage_of_some hmade w₁)),
      Stride.bind_of_ok Stride.noteBuilder_apply]
    exact hconfirm

/-- Where the engine can be asked for it, the build stage starts with the call for its build. -/
theorem buildStage_called {p : Pipeline} (hreach : p.Reaches host context)
    (hplaced : context.Placed host) {start : Progress} (hstart : start.state = .start) (w : World) :
    ∃ call result progress w' talk,
      p.buildStage context (p.builderTag context) start host w = (.ok (result, progress), w') ∧
      (p.builderOrder context).IsCall host context.root w.files call ∧
      w.calls ++ [call] <+: w'.calls ∧
      BuildCourse p host context start result progress talk ∧ host.Spoke w w' talk := by
  rw [buildStage_eq]
  obtain ⟨w₁, hs₁, hphase⟩ := Stride.phase_apply start .buildInProgress .artifactReady .buildFailed
    (by rw [hstart]; decide) (by decide) (by decide) (p.attemptBuild context) host w
  obtain ⟨call, result, progress, w₂, talk, hattempt, hstate, hcall, hopens, hcourse, hs₂⟩ :=
    attemptBuild_called hreach hplaced start w₁
  obtain ⟨w₃, hrun, hs₃⟩ := hphase _ _ _ hattempt hstate
  rw [hs₁.files] at hcall
  rw [hs₁.calls] at hopens
  have hs := hs₂.trans hs₃
  rw [List.append_nil] at hs
  exact ⟨call, _, _, w₃, _, hrun, hcall, hopens.trans hs₃.talked.grows, hcourse, hs₁.trans hs⟩

/-- A build that cannot be asked for leaves the build stage where its error says. -/
theorem buildStage_of_error {p : Pipeline} {start : Progress} (hstart : start.state = .start)
    {e : Error} (hbuild : ∀ w, ∃ w', p.client.build context.root (p.builderOrder context) host w =
      (.error e, w') ∧ host.Spoke w w' []) (w : World) :
    ∃ w', p.buildStage context (p.builderTag context) start host w =
        (.ok (.error e, (start.move .buildInProgress).settle .artifactReady .buildFailed
          (.error e : Except Error String)), w') ∧ host.Spoke w w' [] := by
  rw [buildStage_eq]
  obtain ⟨w₁, hs₁, hphase⟩ := Stride.phase_apply start .buildInProgress .artifactReady
    .buildFailed (by rw [hstart]; decide) (by decide) (by decide) (p.attemptBuild context) host w
  obtain ⟨w₂, hfails, hs₂⟩ := hbuild w₁
  have hattempt : p.attemptBuild context (start.move .buildInProgress) host w₁ =
      (.ok (.error e, start.move .buildInProgress), w₂) :=
    Stride.bind_of_error (Stride.ofAct_apply hfails) _
  obtain ⟨w₃, hrun, hs₃⟩ := hphase _ _ _ hattempt rfl
  exact ⟨w₃, hrun, hs₁.trans (hs₂.trans hs₃)⟩

/-- The build stage takes one of its courses, and leaves the files as they are. -/
theorem buildStage_course (p : Pipeline) (hplaced : context.Placed host) {start : Progress}
    (hstart : start.state = .start) (w : World) :
    ∃ result progress w' talk,
      p.buildStage context (p.builderTag context) start host w = (.ok (result, progress), w') ∧
      BuildCourse p host context start result progress talk ∧ host.Spoke w w' talk := by
  cases hfind : host.engine.find? p.client.program with
  | none =>
    obtain ⟨w', hrun, hs⟩ := buildStage_of_error hstart
      (fun w => Client.build_of_missing hfind context.root (p.builderOrder context) w) w
    exact ⟨_, _, w', _, hrun, .engineMissing hfind, hs⟩
  | some program =>
    by_cases hreach : p.Reaches host context
    · obtain ⟨-, result, progress, w', talk, hrun, -, -, hcourse, hs⟩ :=
        buildStage_called hreach hplaced hstart w
      exact ⟨result, progress, w', talk, hrun, hcourse, hs⟩
    · obtain ⟨w', hrun, hs⟩ :=
        buildStage_of_error hstart (build_of_not_reaches hreach hplaced hfind) w
      exact ⟨_, _, w', _, hrun, .unsaid hfind hreach, hs⟩

/-- Once its instructions are written, the final stage comes to what the engine makes of them. -/
theorem finalBuild_course {p : Pipeline} (hreach : p.Reaches host context)
    (hplaced : context.Placed host) {t : FileTree}
    (htakes : t.takesFile host.cwd (finalFile context) = true) (reached : Progress) (w : World) :
    let begun := reached.move .finalInProgress
    ∃ result w' talk,
      (Stride.ofAct (p.client.build context.root p.finalOrder) >>= fun outcome =>
          Stride.ofAct (requireImage p.spec.final.name outcome)) begun host w =
        (.ok (result, begun), w') ∧
      FinalCourse p host t context reached result (begun.settle .imageReady .finalFailed result)
        talk ∧
      host.Spoke w w' talk := by
  intro begun
  by_cases hnames : p.NamesFinal
  · obtain ⟨call, w₁, hcall, hbuild, hcalled⟩ := hreach.build_final_called hnames hplaced w
    obtain ⟨n, hcommand⟩ := hcall.command
    have hs := hcalled.spoke host
    rw [hcommand] at hs
    generalize host.engine.reply w.calls call = reply at hbuild hs
    rw [Stride.bind_of_ok (Stride.ofAct_apply hbuild)]
    cases hmade : (BuildOutcome.ofReply reply).made? with
    | none =>
      exact ⟨_, w₁, _, Stride.ofAct_apply (requireImage_of_none hmade w₁),
        .refused htakes hnames hmade, hs⟩
    | some id =>
      exact ⟨_, w₁, _, Stride.ofAct_apply (requireImage_of_some hmade w₁),
        .made htakes hnames hmade, hs⟩
  · obtain ⟨w₁, hbuild, hs⟩ := hreach.build_final_of_not hnames hplaced w
    exact ⟨_, w₁, _, Stride.bind_of_error (Stride.ofAct_apply hbuild) _, .unsaid htakes hnames, hs⟩

theorem attemptFinal_course {p : Pipeline} (hreach : p.Reaches host context)
    (hplaced : context.Placed host) (reached : Progress) (w : World) :
    let begun := reached.move .finalInProgress
    ∃ result w' talk,
      p.attemptFinal context begun host w = (.ok (result, begun), w') ∧
      FinalCourse p host w.files context reached result
        (begun.settle .imageReady .finalFailed result) talk ∧
      host.Talked w w' talk ∧
      (w'.files = w.files ∨
        ∃ bytes, w.files.write host.cwd (finalFile context) bytes = .ok w'.files) := by
  intro begun
  rcases Act.writeText_cases (finalFile context)
    (Dockerfile.text (Dockerfile.finalOnly p.spec (p.builderTag context))) host w with
    ⟨w₁, hwrite, htakes, hcalls, bytes, hbytes⟩ | ⟨fault, hwrite, htakes⟩
  · obtain ⟨result, w₂, talk, hbuild, hcourse, hs⟩ :=
      finalBuild_course hreach hplaced htakes reached w₁
    refine ⟨result, w₂, talk, ?_, hcourse, .trans (.of_calls_eq hcalls) hs.talked, Or.inr ⟨bytes, ?_⟩⟩
    · rw [attemptFinal, Stride.bind_of_ok (Stride.ofAct_apply hwrite)]
      exact hbuild
    · rw [hs.files]
      exact hbytes
  · exact ⟨_, w, _, Stride.bind_of_error (Stride.ofAct_apply hwrite) _, .unwritable htakes,
      .of_calls_eq rfl, Or.inl rfl⟩

/-- The final stage takes one of its courses. The only file that it writes is the one with its
instructions. -/
theorem finalStage_course {p : Pipeline} (hreach : p.Reaches host context)
    (hplaced : context.Placed host) {reached : Progress}
    (hreached : reached.state = .artifactReady) (w : World) :
    ∃ result progress w' talk,
      p.finalStage context (p.builderTag context) reached host w =
        (.ok (result, progress), w') ∧
      FinalCourse p host w.files context reached result progress talk ∧
      host.Talked w w' talk ∧
      (w'.files = w.files ∨
        ∃ bytes, w.files.write host.cwd (finalFile context) bytes = .ok w'.files) := by
  rw [finalStage_eq]
  obtain ⟨w₁, hs₁, hphase⟩ := Stride.phase_apply reached .finalInProgress .imageReady .finalFailed
    (by rw [hreached]; decide) (by decide) (by decide) (p.attemptFinal context) host w
  obtain ⟨result, w₂, talk, hattempt, hcourse, ht₂, hfiles⟩ :=
    attemptFinal_course hreach hplaced reached w₁
  obtain ⟨w₃, hrun, hs₃⟩ := hphase _ _ _ hattempt rfl
  rw [hs₁.files, ← hs₃.files] at hfiles
  rw [hs₁.files] at hcourse
  have ht := ht₂.trans hs₃.talked
  rw [List.append_nil] at ht
  exact ⟨result, _, w₃, talk, hrun, hcourse, hs₁.talked.trans ht, hfiles⟩

theorem cleanUp_cleaning (p : Pipeline) {progress : Progress}
    (hreach : progress.builderTagged = true → p.Reaches host context) (w : World) :
    ∃ w' talk, p.cleanUp (p.builderTag context) progress host w = (.ok (), w') ∧
      p.Cleaning context progress talk ∧ host.Spoke w w' talk := by
  unfold cleanUp Cleaning
  by_cases hremoves : (progress.builderTagged && !p.keepBuilder) = true
  · have htagged : progress.builderTagged = true := (Bool.and_eq_true_iff.mp hremoves).1
    obtain ⟨reply, w', hremove, hspoke⟩ := (hreach htagged).remove_called w
    refine ⟨w', _, ?_, ?_, hspoke⟩
    · rw [if_pos hremoves]
      exact hremove
    · rw [if_pos hremoves]
      exact ⟨reply, rfl⟩
  · refine ⟨w, [], ?_, ?_, .refl rfl rfl⟩
    · rw [if_neg hremoves]
      rfl
    · rw [if_neg hremoves]

/-- Both stages, and then the clean-up. -/
theorem inContext_apply {p : Pipeline} {start progress : Progress}
    {w w' w'' : World} {ids : Except Error (String × String)}
    (hboth : p.bothStages context (p.builderTag context) start host w =
      (.ok (ids, progress), w'))
    (hclean : p.cleanUp (p.builderTag context) progress host w' = (.ok (), w'')) :
    p.inContext context start host w =
      (.ok (ids.map fun (builderId, imageId) => (builderId, imageId, context), progress), w'') := by
  rw [inContext]
  dsimp only
  rw [Act.bind_apply, hboth]
  dsimp only
  rw [Act.bind_apply, Act.outcome, hclean]
  rfl

/-- In the staged context the stages take one of their courses. -/
theorem inContext_course {p : Pipeline} {start : Progress} (hstart : start.Fresh) {w w₁ : World}
    (hstage : p.spec.stage p.sourceRoot host w = (.ok context, w₁)) :
    ∃ result progress w' talk,
      p.inContext context start host w₁ = (.ok (result, progress), w') ∧
      Course p host w start result progress talk ∧ host.Talked w₁ w' talk ∧
      (w'.files = w₁.files ∨
        ∃ bytes, w₁.files.write host.cwd (finalFile context) bytes = .ok w'.files) ∧
      (p.buildStage context (p.builderTag context) start host w₁).2.calls <+: w'.calls := by
  have hplaced := Spec.placed_of_stage hstage
  obtain ⟨built, reached, w₂, talk, hbuild, hcourse, hs₂⟩ :=
    p.buildStage_course hplaced hstart.state w₁
  cases built with
  | error e =>
    have hboth : p.bothStages context (p.builderTag context) start host w₁ =
        (.ok (.error e, reached), w₂) := Stride.bind_of_error hbuild _
    obtain ⟨w₃, cleaning, hclean, hcleaning, hs₃⟩ :=
      p.cleanUp_cleaning (hcourse.reaches hstart.untagged) w₂
    refine ⟨_, reached, w₃, _, inContext_apply hboth hclean, .stopped hstage hbuild hcourse hcleaning,
      (hs₂.trans hs₃).talked, Or.inl (hs₂.trans hs₃).files, ?_⟩
    rw [hbuild]
    exact hs₃.talked.grows
  | ok id =>
    obtain ⟨hready, hreach⟩ : reached.state = .artifactReady ∧ p.Reaches host context := by
      cases hcourse with
      | confirmed hreach => exact ⟨rfl, hreach⟩
    obtain ⟨made, progress, w₃, more, hfinal, hcourse', ht₃, hfiles⟩ :=
      finalStage_course hreach hplaced hready w₂
    rw [hs₂.files] at hcourse' hfiles
    have hboth : p.bothStages context (p.builderTag context) start host w₁ =
        (.ok (made.map fun imageId => (id, imageId), progress), w₃) := by
      rw [bothStages, Stride.bind_of_ok hbuild]
      cases made with
      | error e => rw [Stride.bind_of_error hfinal]; rfl
      | ok imageId => rw [Stride.bind_of_ok hfinal]; rfl
    obtain ⟨w₄, cleaning, hclean, hcleaning, hs₄⟩ :=
      p.cleanUp_cleaning (fun _ => hreach) w₃
    rw [← hs₄.files] at hfiles
    refine ⟨_, progress, w₄, _, inContext_apply hboth hclean, ?_,
      (hs₂.talked.trans ht₃).trans hs₄.talked, hfiles, ?_⟩
    · cases made with
      | error e => exact .halted hstage hbuild hcourse hcourse' hcleaning
      | ok imageId => exact .finished hstage hbuild hcourse hcourse' hcleaning
    · rw [hbuild]
      exact ht₃.grows.trans hs₄.talked.grows

/-- Both stages take one of their courses, which is all that is said to the engine; the files are
as before afterwards. -/
theorem staged_course (p : Pipeline) {start : Progress} (hstart : start.Fresh) (host : Host)
    (w : World) :
    ∃ result progress w' talk,
      p.staged start host w = (.ok (result, progress), w') ∧
      Course p host w start result progress talk ∧ host.Talked w w' talk ∧
      (w.Grounded host → p.spec.StaysInside → w'.files = w.files) ∧ p.Opens host w start w' := by
  cases hstage : p.spec.stage p.sourceRoot host w with
  | mk result w₁ =>
    have hsilent := p.spec.calls_stage p.sourceRoot host w
    rw [hstage] at hsilent
    cases result with
    | error e =>
      refine ⟨.error e, start, w₁, [], ?_, .unstaged hstage, .of_calls_eq hsilent,
        fun hw hspec => Spec.files_of_stage hspec hw hstage, fun context staged hother => ?_⟩
      · rw [staged, Act.bind_apply, Act.outcome, Spec.inContext_of_stage_error _ hstage]
        rfl
      · cases hstage.symm.trans hother
    | ok context =>
      obtain ⟨result, progress, w₂, talk, hin, hcourse, ht₂, hfiles, hopens⟩ :=
        inContext_course hstart hstage
      refine ⟨result, progress, { w₂ with files := w₂.files.removeBelow context.location }, talk,
        ?_, hcourse, .trans (.of_calls_eq hsilent) ht₂, fun hw hspec => ?_,
        fun other staged hother => ?_⟩
      · rw [staged, Act.bind_apply, Act.outcome, Spec.inContext_of_stage _ hstage, hin]
        rfl
      · obtain ⟨henclosed, hback⟩ := Spec.files_of_stage hspec hw hstage
        rcases hfiles with hsame | ⟨bytes, hwrite⟩
        · exact (congrArg (FileTree.removeBelow · context.location) hsame).trans hback
        · have hplain : Plain [Dockerfile.finalFileName] := by
            simp [Plain, Dockerfile.finalFileName]
          exact (henclosed.write hplain hwrite).outside.trans hback
      · cases hstage.symm.trans hother
        exact hopens

end Pipeline

end TwoStage

import TwoStage.Proofs.Dockerfile.Operands
import TwoStage.Proofs.Json.Roundtrip
import TwoStage.Proofs.Pipeline.Outcome
import TwoStage.Proofs.Pipeline.Reference
import TwoStage.Proofs.Pipeline.Success

/-!
# What the record says

The record of a run is made from the specification, while the engine gets rendered files. Both tell
the same: what stands in the record, read as JSON, is what the engine can read in the files that it
got, in the commands, and in its own replies.

## Main definitions

- `Building` — what the engine knows of a build
- `Host.Took` — the engine took two builds with a run between them
- `Building.Holds` — a build holds the sources that were staged
- `Lock.Agrees` — a record agrees with what the engine knows

## Main statements

- `Lock.exact_toJson` — a record is read back as it was written
- `Pipeline.run_recorded` — every run that succeeds leaves a record that agrees
-/

namespace TwoStage

/-- What the engine knows of a build: the command, the files at that moment, the text of the
Dockerfile among them, and its own reply. -/
structure Building where
  command : BuildCommand
  files : FileTree
  dockerfile : String
  reply : Reply

/-- The engine took a call for a build, after the calls `before`: the Dockerfile is where the
command says. -/
structure Building.Called (building : Building) (host : Host) (before : List Call) (call : Call) :
    Prop where
  command : call.command = .build building.command
  files : call.files = building.files
  dockerfile : building.files.read host.cwd building.command.file =
    .ok (utf8Bytes building.dockerfile)
  reply : building.reply = host.engine.reply before call

/-- Between two worlds the engine took a build, a run and another build, and behind these nothing
but removals. -/
def Host.Took (host : Host) (w w' : World) (builder final : Building) (probe : RunCommand) : Prop :=
  ∃ first second third removals,
    w'.calls = w.calls ++ [first, second, third] ++ removals ∧
    builder.Called host w.calls first ∧
    second.command = .run probe ∧
    final.Called host (w.calls ++ [first, second]) third ∧
    ∀ call ∈ removals, ∃ image, call.command = .remove image

/-- The context of a build is a directory, and all that stands there is as in the tree `sources`,
but for the two files that are written for the engine. -/
structure Building.Holds (building : Building) (loc : Location) (sources : FileTree) : Prop where
  context : building.command.context = .ofLocation loc
  files : ∀ place, loc <+: place →
    place ∉ [loc ++ [Dockerfile.fileName], loc ++ [StagedContext.ignoreFileName]] →
    building.files.node? place = sources.node? place

/-- The identifier of an image is the text that the engine left for it, without the blanks around
it. -/
def Reply.Identifies (reply : Reply) (id : String) : Prop :=
  ∃ text, reply.identifier = some text ∧ id = strip (unifyNewlines text)

/-- The members of a record agree with what the engine knows of the two builds and of the run
between them, `digest` being that of the sources. -/
structure Lock.Agrees (members : List (String × Json)) (spec : Spec) (builder final : Building)
    (probe : RunCommand) (digest : String) : Prop where
  image : members.lookup "image" = some (.str final.command.tag)
  imageId : ∃ id, final.reply.Identifies id ∧ members.lookup "image_id" = some (.str id)
  builderId : ∃ id, builder.reply.Identifies id ∧
    members.lookup "builder_image_id" = some (.str id)
  sources : members.lookup "source_sha256" = some (.str digest) ∧
    ∃ before after, builder.command.tag =
      before ++ String.ofList (digest.toList.take 12) ++ after
  bases : ∃ first second,
    Dockerfile.stage? builder.dockerfile spec.build.name = some first ∧
    Dockerfile.stage? final.dockerfile spec.final.name = some second ∧
    members.lookup "bases" =
      some (.ofBindings [(spec.build.name, first.base), (spec.final.name, second.base)])
  environment : ∃ env : Bindings String,
    (Dockerfile.operands "ENV" builder.dockerfile).map Dockerfile.assignment? = env.map some ∧
    members.lookup "build_env" = some (.ofBindings env)
  artifact : ∃ stage path,
    members.lookup "artifact" = some (.obj [("stage", .str stage), ("path", .str path)]) ∧
    probe.image = builder.command.tag ∧ probe.entrypoint = some "test" ∧
    probe.args = ["-x", path] ∧
    ∀ building ∈ [builder, final],
      (Dockerfile.operands "COPY" building.dockerfile).filterMap Dockerfile.copied? =
        [(stage, path)]
  user : ∃ user, members.lookup "user" = some (.str user) ∧
    ∀ building ∈ [builder, final], Dockerfile.operands "USER" building.dockerfile = [user]
  entrypoint : ∃ words operand, members.lookup "entrypoint" = some words ∧
    Json.read operand = .ok words ∧
    ∀ building ∈ [builder, final],
      Dockerfile.operands "ENTRYPOINT" building.dockerfile = [operand]
  states : members.lookup "states" = some (.ofStrings
    ["START", "BUILD_IN_PROGRESS", "ARTIFACT_READY", "FINAL_IN_PROGRESS", "IMAGE_READY"])

-- ════════════════════════════════════════════════════════════════════════
-- Records in JSON
-- ════════════════════════════════════════════════════════════════════════

/-- A record is read back as it was written. -/
theorem Lock.exact_toJson (spec : Spec) (result : PipelineResult) (time : String) :
    Json.Exact (toJson spec result time) := by
  have hbases : (([] : Bindings String).map Prod.fst).Nodup := List.nodup_nil
  refine .obj (by simp) ?_
  simp only [List.forall_mem_cons]
  refine ⟨.str _, .str _, .str _, .str _, ?_, ?_, ?_, .str _, ?_, .str _, ?_, by simp⟩
  · exact Json.exact_ofBindings (Bindings.nodup_overlay hbases _)
  · exact Json.exact_ofBindings (Bindings.nodup_overlay (BuildEnvironment.nodup_builtin _) _)
  · refine .obj (by simp) ?_
    simp only [List.forall_mem_cons]
    exact ⟨.str _, .str _, by simp⟩
  · exact Json.exact_ofStrings _
  · exact Json.exact_ofStrings _

/-- The bases in a record: the stages have different names. -/
theorem Lock.bases_eq {spec : Spec} (h : spec.build.name ≠ spec.final.name) :
    Bindings.overlay []
      [(spec.build.name, spec.build.base.reference), (spec.final.name, spec.final.base.reference)] =
      [(spec.build.name, spec.build.base.reference),
        (spec.final.name, spec.final.base.reference)] := by
  simp [Bindings.overlay, Bindings.put, h]

/-- A record agrees with two builds that got the files of the specification. -/
theorem Lock.agrees_toJson {p : Pipeline} (hspec : p.spec.Accepted) (hlacks : p.spec.Lacks '\n')
    (hstage : Unspaced p.spec.build.name) (hbuild : Unspaced p.spec.build.base.reference)
    (hfinal : Unspaced p.spec.final.base.reference) {context : StagedContext}
    (htag : '\n' ∉ (p.builderTag context).toList) {builder final : Building}
    (hbuilderTag : builder.command.tag = p.builderTag context)
    (hbuilderFile : builder.dockerfile = Dockerfile.text (Dockerfile.twoStage p.spec))
    (hfinalTag : final.command.tag = p.spec.image)
    (hfinalFile : final.dockerfile =
      Dockerfile.text (Dockerfile.finalOnly p.spec (p.builderTag context)))
    {builderId imageId : String} (hbuilderId : builder.reply.Identifies builderId)
    (himageId : final.reply.Identifies imageId) (time : String) :
    ∃ members, toJson p.spec (p.resultOf context builderId imageId) time = .obj members ∧
      Agrees members p.spec builder final (p.probe context) context.sourceDigest := by
  have htwo := Dockerfile.tellsFinal_twoStage hspec hlacks hstage.space_not_mem
  have hone := Dockerfile.tellsFinal_finalOnly hspec hlacks hstage.space_not_mem htag
  rw [← hbuilderFile] at htwo
  rw [← hfinalFile] at hone
  refine ⟨_, rfl, ?_⟩
  refine ⟨?_, ⟨imageId, himageId, rfl⟩, ⟨builderId, hbuilderId, rfl⟩, ⟨rfl, ?_⟩, ?_, ?_, ?_, ?_, ?_,
    rfl⟩
  · rw [hfinalTag]
    rfl
  · rw [hbuilderTag]
    exact p.spec.exists_builderTag_eq context.sourceDigest
  · refine ⟨p.spec.buildStageText, p.spec.finalStageText, ?_, ?_, ?_⟩
    · rw [hbuilderFile]
      exact Dockerfile.stage?_twoStage hlacks hbuild.space_not_mem hfinal.space_not_mem
        hspec.names_ne
    · rw [hfinalFile]
      exact Dockerfile.stage?_finalOnly hlacks htag hfinal.space_not_mem
    · rw [bases_eq hspec.names_ne]
      rfl
  · refine ⟨p.spec.build.env.assignments, ?_, rfl⟩
    rw [hbuilderFile]
    exact Dockerfile.assignments_twoStage hspec hlacks
  · refine ⟨p.spec.artifact.stage, p.spec.artifact.path, rfl, ?_, rfl, rfl, ?_⟩
    · rw [hbuilderTag, Pipeline.probe]
    simp only [List.forall_mem_cons]
    exact ⟨htwo.copied, hone.copied, by simp⟩
  · refine ⟨p.spec.final.identity.name, rfl, ?_⟩
    simp only [List.forall_mem_cons]
    exact ⟨htwo.user, hone.user, by simp⟩
  · refine ⟨.ofStrings p.spec.final.entrypoint.words,
      Dockerfile.execForm p.spec.final.entrypoint.words, rfl,
      (Json.exact_ofStrings _).read_compact, ?_⟩
    simp only [List.forall_mem_cons]
    exact ⟨htwo.entrypoint, hone.entrypoint, by simp⟩

-- ════════════════════════════════════════════════════════════════════════
-- What the engine knows
-- ════════════════════════════════════════════════════════════════════════

section

variable {order : Client.BuildOrder} {host : Host} {context : StagedContext} {t : FileTree}
  {call : Call}

/-- A call for an order is a build, if its Dockerfile can be read beside a new directory. -/
theorem Client.BuildOrder.IsCall.called (h : order.IsCall host context.root t call)
    (hname : Path.ofText order.dockerfile = ⟨0, [order.dockerfile]⟩) {dockerfile : String}
    (hread : ∀ place, t.node? place = none →
      (t.put place .directory).read host.cwd (context.root.child order.dockerfile) =
        .ok (utf8Bytes dockerfile)) (before : List Call) :
    ∃ building : Building, building.Called host before call ∧
      building.command.tag = order.tag ∧ building.command.context = context.root ∧
      building.dockerfile = dockerfile := by
  obtain ⟨number, hcommand⟩ := h.command
  generalize Client.idFile host number = idFile at hcommand
  obtain ⟨n, hfree, hfiles⟩ := h.files
  have hplace := FileTree.node?_of_isFree hfree (by simp [Act.scratchPlace]) (List.prefix_refl _)
  refine ⟨⟨order.command context.root idFile, call.files, dockerfile,
    host.engine.reply before call⟩, ⟨hcommand, rfl, ?_, rfl⟩, rfl, rfl, rfl⟩
  have hfile : (order.command context.root idFile).file = context.root.child order.dockerfile := by
    show context.root.join (.ofText order.dockerfile) = _
    rw [hname]
    rfl
  rw [hfile, hfiles]
  exact hread _ hplace

/-- A new directory for the identifier is not below the context. -/
theorem Client.BuildOrder.IsCall.node?_below (h : order.IsCall host context.root t call)
    (hloc : ∃ n, context.location = Act.scratchPlace host "lspib-context-" n)
    (hthere : t.node? context.location = some .directory) {place : Location}
    (hbelow : context.location <+: place) : call.files.node? place = t.node? place := by
  obtain ⟨n, hfree, hfiles⟩ := h.files
  obtain ⟨m, hloc⟩ := hloc
  rw [hfiles]
  refine FileTree.node?_put_of_ne _ ?_
  rintro rfl
  have hsame : context.location = Act.scratchPlace host "lspib-iid-" n :=
    hbelow.eq_of_length (by simp [hloc, Act.scratchPlace])
  rw [hsame, FileTree.node?_of_isFree hfree (by simp [Act.scratchPlace]) (List.prefix_refl _)]
    at hthere
  cases hthere

end

/-- What the engine knows after a run that was done: it took both builds with the files of the
specification, and the first of them holds the sources. -/
theorem Success.took {p : Pipeline} (hspec : p.spec.StaysInside) {host : Host} {w w' : World}
    (hw : w.Grounded host) {context : StagedContext} {first second third : Call}
    {builderId imageId : String}
    (h : Success p host context w w' first second third builderId imageId) :
    ∃ builder final sources, host.Took w w' builder final (p.probe context) ∧
      p.spec.stageSources p.sourceRoot host w = (.ok context.location, sources) ∧
      builder.Holds context.location sources.files ∧
      context.sourceDigest = sources.files.digest context.location ∧
      builder.command.tag = p.builderTag context ∧
      builder.dockerfile = Dockerfile.text (Dockerfile.twoStage p.spec) ∧
      final.command.tag = p.spec.image ∧
      final.dockerfile =
        Dockerfile.text (Dockerfile.finalOnly p.spec (p.builderTag context)) ∧
      builder.reply.Identifies builderId ∧ final.reply.Identifies imageId := by
  obtain ⟨staged, built, finished, hstage, hbuild, hfinal⟩ := h.stages
  obtain ⟨removals, hcalls, hremovals⟩ := h.calls
  have hsilent := p.spec.calls_stage p.sourceRoot host w
  rw [hstage] at hsilent
  obtain ⟨hloc, sources, hsources, hfilled⟩ := Spec.stage_eq_ok hspec hw hstage
  have henclosed := hfilled.enclosed_files
  have hfileName : Path.ofText Dockerfile.fileName = ⟨0, [Dockerfile.fileName]⟩ := by decide
  have hfinalName : Path.ofText Dockerfile.finalFileName = ⟨0, [Dockerfile.finalFileName]⟩ := by
    decide
  obtain ⟨builder, hbuilder, hbuilderTag, hcontext, hbuilderFile⟩ :=
    hbuild.call.called hfileName (fun _ => hfilled.read_dockerfile) w.calls
  simp only [Pipeline.builderOrder] at hbuilderTag
  -- the instructions for the final stage are written in the same context
  have hinstructions := hfinal.instructions
  rw [hbuild.files] at hinstructions
  have hwritten := henclosed.writtenIn (by simp [Plain, Dockerfile.finalFileName]) hinstructions
  obtain ⟨final, hlast, hfinalTag, -, hfinalFile⟩ :=
    hfinal.call.called hfinalName (fun _ => hwritten.read_put) (w.calls ++ [first, second])
  simp only [Pipeline.finalOrder] at hfinalTag
  have hbuilderReply : builder.reply.Identifies builderId := by
    rw [Reply.Identifies, hbuilder.reply, ← hsilent]
    exact BuildOutcome.identifier_of_made? hbuild.image
  have hfinalReply : final.reply.Identifies imageId := by
    rw [Reply.Identifies, hlast.reply, ← hsilent, ← hbuild.calls]
    exact BuildOutcome.identifier_of_made? hfinal.image
  refine ⟨builder, final, sources, ?_, hsources, ⟨hcontext, ?_⟩, hfilled.digest, hbuilderTag,
    hbuilderFile, hfinalTag, hfinalFile, hbuilderReply, hfinalReply⟩
  · exact ⟨first, second, third, removals, hcalls, hbuilder, hbuild.command, hlast,
      fun call hcall => ⟨_, hremovals call hcall⟩⟩
  · intro place hbelow hplace
    rw [← hbuilder.files, ← hfilled.node?_of_ne hplace]
    exact hbuild.call.node?_below hloc (henclosed.leads _ (List.prefix_refl _)) hbelow

-- ════════════════════════════════════════════════════════════════════════
-- The record of a run
-- ════════════════════════════════════════════════════════════════════════

/-- Every run that succeeds with a directory for its record leaves one there. Read as JSON, the
record agrees with what the engine knows: with the two builds that it took, with the run between
them, and with its replies. The digest in it is that of the sources that were staged, which the
first build holds. -/
theorem Pipeline.run_recorded {p : Pipeline} (hspec : p.spec.Accepted)
    (hlacks : p.spec.Lacks '\n') (himage : '\n' ∉ p.spec.image.toList)
    (hstage : Unspaced p.spec.build.name) (hbuild : Unspaced p.spec.build.base.reference)
    (hfinal : Unspaced p.spec.final.base.reference) {host : Host} {w w' : World}
    (hw : w.Grounded host) {outdir : Path} (hout : p.outdir = some outdir)
    {made : PipelineResult} {progress : Progress}
    (hrun : p.run .initial host w = (.ok (.ok made, progress), w')) :
    ∃ builder final probe loc sources text members,
      made.lockPath = some (outdir.child Lock.fileName) ∧
      w'.files.read host.cwd (outdir.child Lock.fileName) = .ok (utf8Bytes text) ∧
      Json.read text = .ok (.obj members) ∧
      host.Took w w' builder final probe ∧
      p.spec.stageSources p.sourceRoot host w = (.ok loc, sources) ∧
      builder.Holds loc sources.files ∧
      Lock.Agrees members p.spec builder final probe (sources.files.digest loc) := by
  obtain ⟨context, first, second, third, builderId, imageId, hsuccess, rfl, -, made, -, -,
    hwritten⟩ := run_eq_ok hout hrun
  obtain ⟨builder, final, sources, htook, hsources, hholds, hdigest, hbuilderTag, hbuilderFile,
    hfinalTag, hfinalFile, hbuilderId, himageId⟩ := hsuccess.took hspec.staysInside hw
  have htag : '\n' ∉ (p.builderTag context).toList := by
    rw [builderTag, hdigest]
    exact Spec.not_mem_builderTag (by decide) (by decide) himage hlacks.build.name _ _
  obtain ⟨members, hmembers, hagrees⟩ := Lock.agrees_toJson hspec hlacks hstage hbuild hfinal htag
    hbuilderTag hbuilderFile hfinalTag hfinalFile hbuilderId himageId host.clock
  have hread := (Lock.exact_toJson p.spec (p.resultOf context builderId imageId)
    host.clock).read_indented
  rw [hdigest] at hagrees
  exact ⟨builder, final, p.probe context, context.location, sources, _, members, rfl,
    FileTree.read_of_write hwritten, hread.trans (congrArg _ hmembers), htook, hsources, hholds,
    hagrees⟩

/-- The stock pipeline with a directory for its record. -/
def recordingPipeline : Pipeline := { Spec.standard.pipeline with outdir := some (.ofText "out") }

/-- A host whose engine makes every image. -/
def willingHost : Host := .replying fun _ => .quiet 0 (some "id")

/-- The stock pipeline with its sources and with an engine that makes every image: its one run
leaves a record that agrees. -/
theorem Pipeline.run_recorded_standard :
    ∃ made progress w',
      recordingPipeline.run .initial willingHost .stocked = (.ok (.ok made, progress), w') ∧
      ∃ builder final probe loc sources text members,
        made.lockPath = some ((Path.ofText "out").child Lock.fileName) ∧
        w'.files.read willingHost.cwd ((Path.ofText "out").child Lock.fileName) =
          .ok (utf8Bytes text) ∧
        Json.read text = .ok (.obj members) ∧
        willingHost.Took .stocked w' builder final probe ∧
        Spec.standard.stageSources (.ofText ".") willingHost .stocked = (.ok loc, sources) ∧
        builder.Holds loc sources.files ∧
        Lock.Agrees members Spec.standard builder final probe (sources.files.digest loc) := by
  have hends : (recordingPipeline.run .initial willingHost .stocked).1.toOption.any
      (fun ended => ended.1.isOk) = true := by decide +kernel
  cases hrun : recordingPipeline.run .initial willingHost .stocked with
  | mk ended w' =>
    rw [hrun] at hends
    cases ended with
    | error failure => exact absurd hends Bool.false_ne_true
    | ok ended =>
      obtain ⟨result, progress⟩ := ended
      cases result with
      | error e => exact absurd hends Bool.false_ne_true
      | ok made =>
        have hgrounded : World.stocked.Grounded willingHost := World.grounded_stocked _
        have hrecorded := run_recorded (p := recordingPipeline) Spec.accepted_standard
          (Spec.lacks_standard (Or.inl rfl)) (by decide) (by decide) (by decide) (by decide)
          hgrounded rfl hrun
        exact ⟨made, progress, w', rfl, hrecorded⟩

end TwoStage

import TwoStage.Proofs.Dockerfile.Texts
import TwoStage.Proofs.Pipeline.Reference
import TwoStage.Proofs.Pipeline.Staging
import TwoStage.Proofs.Pipeline.Stride

/-!
# What a run asks of the engine

The commands of a run in a staged context. No word of a command line holds a null character; so
whether a stage can be asked for depends on the program of the engine, on the name of the stage and
on the name of its image. All else in the command is made for it: the paths lie in the directory for
temporary files, and staging has taken place there.

## Main definitions

- `Pipeline.builderOrder`, `Pipeline.finalOrder`, `Pipeline.probe` — what is asked for
- `Pipeline.Reaches` — the engine is there, and it can be asked for the build stage
- `Pipeline.NamesFinal` — it can be asked for the final stage as well
- `StagedContext.Placed` — contexts below a directory whose path is a word

## Main statements

- `Spec.placed_of_stage` — every context that is staged is placed
- `Pipeline.reaches_of_words` — when the engine can be asked, from the texts of the specification
- `Client.BuildOrder.IsCall.isSayable_iff` — which texts of a call for a build have to be words
- `Client.build_called_of_words`, `Client.build_of_not_words` — builds in a staged context
-/

namespace TwoStage

namespace Pipeline

/-- The order for the build stage. -/
def builderOrder (p : Pipeline) (context : StagedContext) : Client.BuildOrder :=
  { target := p.spec.build.name, tag := p.builderTag context, dockerfile := Dockerfile.fileName
    noCache := p.noCache, arguments := [] }

/-- The order for the final stage. -/
def finalOrder (p : Pipeline) : Client.BuildOrder :=
  { target := p.spec.final.name, tag := p.spec.image, dockerfile := Dockerfile.finalFileName
    noCache := p.noCache, arguments := [] }

/-- The run that looks for the executable in the image of the build stage. -/
def probe (p : Pipeline) (context : StagedContext) : RunCommand :=
  { image := p.builderTag context, args := ["-x", p.spec.artifact.path], entrypoint := some "test"
    publish := [], env := [], capture := true }

/-- Where the instructions for the final stage are written. -/
def finalFile (context : StagedContext) : Path := context.root.child Dockerfile.finalFileName

/-- The engine is there, and its program, the name of the build stage and the name of the image of
that stage can be words of a command line. -/
def Reaches (p : Pipeline) (host : Host) (context : StagedContext) : Prop :=
  ∃ program, host.engine.find? p.client.program = some program ∧
    ∀ text ∈ [program, p.spec.build.name, p.builderTag context], isWord text = true

/-- The name of the final stage and the name of the image can be words of a command line. -/
def NamesFinal (p : Pipeline) : Prop :=
  ∀ text ∈ [p.spec.final.name, p.spec.image], isWord text = true

instance (p : Pipeline) : Decidable p.NamesFinal :=
  inferInstanceAs (Decidable (∀ text ∈ [p.spec.final.name, p.spec.image], isWord text = true))

theorem Reaches.found {p : Pipeline} {host : Host} {context : StagedContext}
    (h : p.Reaches host context) :
    ∃ program, host.engine.find? p.client.program = some program := by
  obtain ⟨program, hfind, -⟩ := h
  exact ⟨program, hfind⟩

end Pipeline

-- ════════════════════════════════════════════════════════════════════════
-- Where a context is
-- ════════════════════════════════════════════════════════════════════════

/-- A context in a scratch directory, the path of which is a word; its digest is one of files. -/
structure StagedContext.Placed (context : StagedContext) (host : Host) : Prop where
  location : ∃ n, context.location = Act.scratchPlace host "lspib-context-" n
  words : ∀ name ∈ host.scratch, isWord name = true
  digest : ∃ t : FileTree, context.sourceDigest = t.digest context.location

/-- The name of a scratch directory is a word. -/
theorem Act.isWord_scratch {stem : String} (hstem : isWord stem = true) (n : Nat) :
    isWord (stem ++ toString n) = true := by
  have hnumber : isWord (toString n) = true := isWord_iff.mpr (not_mem_toString rfl n)
  rw [isWord_append, hstem, hnumber, Bool.and_self]

namespace StagedContext.Placed

variable {context : StagedContext} {host : Host} (h : context.Placed host)

include h

/-- The path of a scratch directory, and what is below it, is a word. -/
theorem isWord_scratch {stem : String} (hstem : isWord stem = true) (n : Nat)
    (below : List String) (hbelow : ∀ name ∈ below, isWord name = true) :
    isWord (Path.ofLocation (Act.scratchPlace host stem n ++ below)).text = true := by
  rw [isWord_ofLocation_iff, Act.scratchPlace]
  simp only [List.forall_mem_append, List.forall_mem_cons]
  exact ⟨⟨h.words, Act.isWord_scratch hstem n, by simp⟩, hbelow⟩

/-- The path of a context, and what is below it, is a word. -/
theorem isWord_below (below : List String) (hbelow : ∀ name ∈ below, isWord name = true) :
    isWord (Path.ofLocation (context.location ++ below)).text = true := by
  obtain ⟨n, hloc⟩ := h.location
  rw [hloc]
  exact h.isWord_scratch rfl n below hbelow

theorem isWord_idFile (n : Nat) : isWord (Client.idFile host n).text = true :=
  h.isWord_scratch rfl n ["iid"] (by decide)

end StagedContext.Placed

/-- A path where a file can be written is a word. -/
theorem FileTree.isWord_of_write {t t' : FileTree} {cwd : Location} {p : Path} {bytes : ByteArray}
    (h : t.write cwd p bytes = .ok t') : isWord p.text = true := by
  obtain ⟨loc, ⟨destination, hwalk, -⟩, -⟩ := write_eq_ok h
  obtain ⟨hnull, -⟩ := walk_eq_ok_iff_walkFrom.mp hwalk
  simpa [isWord] using hnull

/-- Every context that is staged is placed: the file system has taken the path of the Dockerfile in
it. -/
theorem Spec.placed_of_stage {spec : Spec} {sourceRoot : Path} {host : Host} {w w' : World}
    {context : StagedContext} (h : spec.stage sourceRoot host w = (.ok context, w')) :
    context.Placed host := by
  rw [stage] at h
  obtain ⟨root, w₁, hroot, hresolved⟩ := Act.bind_eq_ok h
  obtain ⟨sources, w₂, hsources, hlocated⟩ := Act.bind_eq_ok hresolved
  obtain ⟨n, hfree, hmake⟩ := Act.makeScratch_apply "lspib-context-" host w₂
  rw [Act.bind_apply, hmake] at hlocated
  dsimp only [Act.undoing] at hlocated
  split at hlocated
  · next filled w₃ hfill =>
    obtain ⟨⟨rfl⟩, rfl⟩ := Prod.mk.inj hlocated
    obtain ⟨staged, -, rfl, -, marked, hwritten, -⟩ := StagedContext.fill_eq_ok hfill
    refine ⟨⟨n, rfl⟩, fun name hname => ?_, _, rfl⟩
    have hpath := FileTree.isWord_of_write hwritten
    rw [StagedContext.root, Path.child_ofLocation] at hpath
    refine isWord_ofLocation_iff.mp hpath name ?_
    simp [Act.scratchPlace, hname]
  · split at hlocated <;> cases hlocated

-- ════════════════════════════════════════════════════════════════════════
-- Calls that can be made
-- ════════════════════════════════════════════════════════════════════════

section

variable {client : Client} {order : Client.BuildOrder} {host : Host} {context : StagedContext}
  {program : String} (hplaced : context.Placed host)
  (hfile : order.dockerfile ∈ [Dockerfile.fileName, Dockerfile.finalFileName])
  (harguments : order.arguments = [])

include hplaced hfile harguments

/-- A call for a build in a staged context can be made exactly if the program, the name of the stage
and the name of the image are words. -/
theorem Client.BuildOrder.IsCall.isSayable_iff {t : FileTree} {call : Call}
    (h : order.IsCall host context.root t call) :
    call.isSayable = true ↔
      ∀ text ∈ [call.program, order.target, order.tag], isWord text = true := by
  obtain ⟨n, hcommand⟩ := h.command
  have hid := hplaced.isWord_idFile n
  have hroot : isWord context.root.text = true := by
    have hword := hplaced.isWord_below [] (by simp)
    rwa [List.append_nil] at hword
  have hnames : ∀ name ∈ [Dockerfile.fileName, Dockerfile.finalFileName],
      Path.ofText name = ⟨0, [name]⟩ ∧ isWord name = true := by decide
  obtain ⟨hname, hword⟩ := hnames order.dockerfile hfile
  have hdockerfile : isWord (context.root.join (.ofText order.dockerfile)).text = true := by
    rw [hname]
    exact hplaced.isWord_below [order.dockerfile] (by simpa using hword)
  rw [Call.isSayable, hcommand, isSayable_iff_texts]
  simp [Command.texts, BuildOrder.command, BuildCommand.file, harguments, hid, hroot, hdockerfile]

/-- A build that can be asked for is one call. -/
theorem Client.build_called_of_words (hfind : host.engine.find? client.program = some program)
    (hwords : ∀ text ∈ [program, order.target, order.tag], isWord text = true) (w : World) :
    ∃ call w', order.IsCall host context.root w.files call ∧
      client.build context.root order host w =
        (.ok (.ofReply (host.engine.reply w.calls call)), w') ∧ w.Called w' call := by
  obtain ⟨call, hcall, rfl, hsaid, -⟩ := build_called hfind context.root order w
  obtain ⟨w', hbuild, hcalled⟩ :=
    hsaid ((hcall.isSayable_iff hplaced hfile harguments).mpr hwords)
  exact ⟨call, w', hcall, hbuild, hcalled⟩

/-- A build that cannot be asked for is no call. -/
theorem Client.build_of_not_words (hfind : host.engine.find? client.program = some program)
    (hwords : ¬ ∀ text ∈ [program, order.target, order.tag], isWord text = true) (w : World) :
    ∃ w', client.build context.root order host w = (.error (.file .nullByte), w') ∧
      host.Spoke w w' [] := by
  obtain ⟨call, hcall, rfl, -, hunsaid⟩ := build_called hfind context.root order w
  rw [← hcall.isSayable_iff hplaced hfile harguments, Bool.not_eq_true] at hwords
  exact hunsaid hwords

end

namespace Pipeline

variable {p : Pipeline} {host : Host} {context : StagedContext}

/-- The name of the image of the build stage is made of those of the image and the stage. -/
theorem reaches_of_words (hplaced : context.Placed host) {program : String}
    (hfind : host.engine.find? p.client.program = some program)
    (hwords : ∀ text ∈ [program, p.spec.build.name, p.spec.image], isWord text = true) :
    p.Reaches host context := by
  simp only [List.forall_mem_cons, List.not_mem_nil, false_imp_iff, implies_true, and_true]
    at hwords
  obtain ⟨hprogram, hname, himage⟩ := hwords
  have htag : isWord (p.builderTag context) = true := by
    obtain ⟨t, hdigest⟩ := hplaced.digest
    rw [builderTag, hdigest, isWord_iff]
    exact Spec.not_mem_builderTag (by decide) (by decide) (isWord_iff.mp himage)
      (isWord_iff.mp hname) t context.location
  refine ⟨program, hfind, ?_⟩
  simp only [List.forall_mem_cons]
  exact ⟨hprogram, hname, htag, by simp⟩

theorem forall_builderOrder_iff {program : String} :
    (∀ text ∈ [program, (p.builderOrder context).target, (p.builderOrder context).tag],
        isWord text = true) ↔
      ∀ text ∈ [program, p.spec.build.name, p.builderTag context], isWord text = true := by
  rw [builderOrder]

/-- The build of the build stage is one call, if it can be asked for. -/
theorem Reaches.build_called (h : p.Reaches host context) (hplaced : context.Placed host)
    (w : World) :
    ∃ call w', (p.builderOrder context).IsCall host context.root w.files call ∧
      p.client.build context.root (p.builderOrder context) host w =
        (.ok (.ofReply (host.engine.reply w.calls call)), w') ∧ w.Called w' call := by
  obtain ⟨program, hfind, hwords⟩ := h
  exact Client.build_called_of_words hplaced List.mem_cons_self rfl hfind
    (forall_builderOrder_iff.mpr hwords) w

/-- It is no call, if it cannot. -/
theorem build_of_not_reaches (h : ¬ p.Reaches host context) (hplaced : context.Placed host)
    {program : String} (hfind : host.engine.find? p.client.program = some program) (w : World) :
    ∃ w', p.client.build context.root (p.builderOrder context) host w =
      (.error (.file .nullByte), w') ∧ host.Spoke w w' [] := by
  refine Client.build_of_not_words hplaced List.mem_cons_self rfl hfind (fun hwords => ?_) w
  exact h ⟨program, hfind, forall_builderOrder_iff.mp hwords⟩

/-- Once the build stage could be asked for, the texts of the final stage are all that matters for
its build. -/
theorem forall_finalOrder_iff {program : String} (hprogram : isWord program = true) :
    (∀ text ∈ [program, p.finalOrder.target, p.finalOrder.tag], isWord text = true) ↔
      p.NamesFinal := by
  rw [List.forall_mem_cons, and_iff_right hprogram]
  exact Iff.rfl

/-- The build of the final stage is one call, if it can be asked for. -/
theorem Reaches.build_final_called (h : p.Reaches host context) (hnames : p.NamesFinal)
    (hplaced : context.Placed host) (w : World) :
    ∃ call w', p.finalOrder.IsCall host context.root w.files call ∧
      p.client.build context.root p.finalOrder host w =
        (.ok (.ofReply (host.engine.reply w.calls call)), w') ∧ w.Called w' call := by
  obtain ⟨program, hfind, hwords⟩ := h
  exact Client.build_called_of_words hplaced (List.mem_cons_of_mem _ List.mem_cons_self) rfl hfind
    ((forall_finalOrder_iff (hwords program List.mem_cons_self)).mpr hnames) w

/-- It is no call, if it cannot. -/
theorem Reaches.build_final_of_not (h : p.Reaches host context) (hnames : ¬ p.NamesFinal)
    (hplaced : context.Placed host) (w : World) :
    ∃ w', p.client.build context.root p.finalOrder host w = (.error (.file .nullByte), w') ∧
      host.Spoke w w' [] := by
  obtain ⟨program, hfind, hwords⟩ := h
  refine Client.build_of_not_words hplaced (List.mem_cons_of_mem _ List.mem_cons_self) rfl hfind ?_ w
  rwa [forall_finalOrder_iff (hwords program List.mem_cons_self)]

/-- The image of the build stage can be removed, if its build could be asked for. -/
theorem Reaches.remove_called (h : p.Reaches host context) (w : World) :
    ∃ reply w', p.client.remove (p.builderTag context) host w = (.ok (), w') ∧
      host.Spoke w w' [(.remove (p.builderTag context), reply)] := by
  obtain ⟨program, hfind, hwords⟩ := h
  refine Client.remove_of_found hfind ?_ w
  simp only [List.forall_mem_cons] at hwords
  exact isSayable_iff_texts.mpr ⟨hwords.1, by simpa [Command.texts] using hwords.2.2.1⟩

end Pipeline

/-- Looking for the executable can be asked for exactly if its path is a word, once the build stage
could be asked for. -/
theorem Pipeline.isSayable_probe_iff {p : Pipeline} {context : StagedContext} {program : String}
    (hwords : ∀ text ∈ [program, p.spec.build.name, p.builderTag context], isWord text = true) :
    (Command.run (p.probe context)).isSayable program = true ↔
      isWord p.spec.artifact.path = true := by
  simp only [List.forall_mem_cons] at hwords
  obtain ⟨hprogram, -, htag, -⟩ := hwords
  have hflag : isWord "-x" = true ∧ isWord "test" = true := by decide
  rw [isSayable_iff_texts]
  simp [Command.texts, probe, hprogram, htag, hflag]

/-- The path of the executable of an accepted specification is a word. -/
theorem Spec.Accepted.isWord_artifactPath {spec : Spec} (h : spec.Accepted) :
    isWord spec.artifact.path = true :=
  isWord_iff.mpr (h.wellFormed.build.not_mem_artifactPath rfl (by decide))

end TwoStage

import TwoStage.Proofs.Cli.Freshness
import TwoStage.Proofs.Pipeline.Traces

/-!
# What requests leave in the files

A request for a build leaves its record and nothing else, and one for the digest of the sources
leaves nothing at all, whatever they come to: what they do before and behind their stages is asking,
showing and calling the engine.

## Main statements

- `Cli.node?_performBuild`, `Cli.files_performDigest` — what the two requests leave
- `leaves_no_traces` — what each operation with a directory for a short time leaves in the files
-/

namespace TwoStage

open Act

section

variable {α β : Type}

/-- What holds behind an operation holds behind all that follows, if that keeps it. -/
theorem Act.holds_bind {I : World → Prop} {x : Act α} {f : α → Act β} {host : Host} {w : World}
    (hx : I (x host w).2) (hf : ∀ value, Keeps I (f value)) : I ((x >>= f) host w).2 := by
  cases hran : x host w with
  | mk result w' =>
    rw [hran] at hx
    cases result with
    | error e =>
      rw [bind_of_error hran]
      exact hx
    | ok value =>
      rw [bind_of_ok hran]
      exact hf value host w' hx

/-- An operation that leaves the files as they are keeps all that is said of the files. -/
theorem Act.Keeps.of_files {x : Act α} (hx : ∀ t, Keeps (·.files = t) x) (J : FileTree → Prop) :
    Keeps (fun w => J w.files) x := by
  intro host w hJ
  rw [hx w.files host w rfl]
  exact hJ

end

/-- A pipeline from its start changes nothing in the files but the places of its record. -/
theorem Pipeline.node?_build {p : Pipeline} (hspec : p.spec.StaysInside) {host : Host} {w : World}
    (hw : w.Grounded host) {place : Location} (h : ¬ p.TakesForRecord w.files host.cwd place) :
    (p.build host w).2.files.node? place = w.files.node? place := by
  rw [build]
  refine holds_bind (I := fun w' => w'.files.node? place = w.files.node? place)
    (node?_run hspec hw Progress.lawful_initial h) fun ended => ?_
  obtain ⟨result, progress⟩ := ended
  cases result with
  | ok made => exact .pure _
  | error e =>
    have hrecords : ∀ (w' : World) records, w'.files.node? place = w.files.node? place →
        ({ w' with records } : World).files.node? place = w.files.node? place := fun _ _ hw' => hw'
    dsimp only
    split
    · exact .bind (.report hrecords _) fun _ => .fail _
    · exact .fail _

/-- The world behind the outcome of an operation is that behind the operation. -/
theorem Act.world_outcome {α : Type} (x : Act α) (host : Host) (w : World) :
    (outcome x host w).2 = (x host w).2 := rfl

namespace Cli

/-- What holds before a request, and behind what is done with the specification that it names, holds
also where that specification cannot be loaded. -/
theorem holds_bind_loadSpec {α : Type} {I : World → Prop} {body : Spec → Act α} {host : Host}
    {w : World} (config tag : Option String) (hw : I w)
    (hbody : ∀ spec : Spec, spec.StaysInside → I (body spec host w).2) :
    I ((loadSpec config tag >>= body) host w).2 := by
  have hsame : Keeps (· = w) (loadSpec config tag) :=
    .bind (ConfigFile.keeps_load (· = w) _) fun _ => .pure _
  cases hload : loadSpec config tag host w with
  | mk loaded w₁ =>
    obtain rfl : w₁ = w := hsame.of_eq hload rfl
    cases loaded with
    | error e =>
      rw [bind_of_error hload]
      exact hw
    | ok spec =>
      obtain ⟨-, plain, -, haccepted, rfl⟩ := loadSpec_eq_ok hload
      rw [bind_of_ok hload]
      exact hbody _ haccepted.staysInside

section

variable (t : FileTree)

theorem keeps_display (what : Display) : Keeps (·.files = t) (Act.display what) :=
  fun _ _ hw => hw

theorem keeps_showError (message : String) : Keeps (·.files = t) (showError message) :=
  .bind (keeps_display t _) fun _ => .pure _

theorem keeps_showFailure (e : Error) : Keeps (·.files = t) (showFailure e) := by
  cases e with
  | stage failure =>
    refine .bind (keeps_display t _) fun _ => ?_
    by_cases htail : (!failure.tail.isEmpty) = true
    · rw [if_pos htail]
      exact .bind (keeps_display t _) fun _ => .pure _
    · rw [if_neg htail]
      exact .pure _
  | _ => exact keeps_showError t _

/-- An error is shown or passed on, which touches no file. -/
theorem keeps_showOrFail (e : Error) (isShown : Bool) :
    Keeps (·.files = t) (if isShown then showFailure e else Act.fail e) := by
  cases isShown with
  | true => exact keeps_showFailure t e
  | false => exact .fail e

theorem keeps_recordedDigest (lock : String) : Keeps (·.files = t) (recordedDigest lock) := by
  refine .bind (keeps_readText _ _) fun text => .bind (.ofExcept _) fun value => ?_
  split
  · exact .pure _
  · exact .fail _

theorem keeps_compareWithLock (got lock : String) :
    Keeps (·.files = t) (compareWithLock got lock) := by
  refine .bind (keeps_outcome _ (keeps_recordedDigest t lock)) fun recorded => ?_
  split
  · split
    · exact keeps_showError t _
    · exact .fail _
  · split
    · exact .bind (keeps_display t _) fun _ => .pure _
    · exact .bind (keeps_display t _) fun _ => .pure _
  · exact .fail _

end

section

variable {host : Host} {w : World}

/-- A request for a build changes nothing in the files but the places that are taken for its
record. -/
theorem node?_performBuild (hw : w.Grounded host) {source out : String} {config tag : Option String}
    {noCache keepBuilder check : Bool} {place : Location}
    (h : ¬ w.files.MayTake host.cwd ((Path.ofText out).child Lock.fileName) place) :
    (performBuild source config tag out noCache keepBuilder check host w).2.files.node? place =
      w.files.node? place := by
  rw [performBuild]
  refine holds_bind (I := fun w' => w'.files.node? place = w.files.node? place) ?_
    fun built => .of_files (fun t => ?_) fun files => files.node? place = w.files.node? place
  · rw [world_outcome]
    refine holds_bind_loadSpec (I := fun w' => w'.files.node? place = w.files.node? place)
      config tag rfl fun spec hspec => ?_
    rw [bind_of_ok (Client.create_none host w)]
    refine holds_bind (I := fun w' => w'.files.node? place = w.files.node? place) ?_
      fun made => .pure _
    apply Pipeline.node?_build hspec hw
    rintro ⟨outdir, ⟨⟩, htakes⟩
    exact h htakes
  · cases built with
    | error e => exact keeps_showOrFail t e e.isDeliberate
    | ok built =>
      obtain ⟨spec, result⟩ := built
      refine .bind (keeps_display t _) fun _ => ?_
      cases check with
      | false => exact .pure _
      | true => exact .bind (keeps_checkImage t spec result.image) fun _ => .pure _

/-- A request for the digest of the sources leaves the files as they were. -/
theorem files_performDigest (hw : w.Grounded host) (source : String) (config lock : Option String) :
    (performDigest source config lock host w).2.files = w.files := by
  rw [performDigest]
  refine holds_bind (I := (·.files = w.files)) ?_ fun digested => ?_
  · rw [world_outcome]
    refine holds_bind_loadSpec (I := (·.files = w.files)) config none rfl fun spec hspec => ?_
    exact Spec.files_inContext hspec hw fun _ _ => .pure _
  · cases digested with
    | error e => exact keeps_showOrFail w.files e e.isDeliberate
    | ok got =>
      refine .bind (keeps_display w.files _) fun _ => ?_
      cases lock with
      | none => exact .pure _
      | some lock => exact keeps_compareWithLock w.files got lock

end

end Cli

/-- No directory for a short time is left, and nothing else is changed in the files than what an
operation is for. Behind an operation in a staged context every place is as it was before, unless the
operation itself changes it outside of the context; behind a build by the engine all is as before;
behind a run and a request for a build every place is, but for those that are taken for the record;
and behind a request for the digest of the sources all is. This holds of values and of errors. -/
theorem leaves_no_traces {host : Host} {w : World} (hw : w.Grounded host) :
    (∀ spec : Spec, spec.StaysInside → ∀ (sourceRoot : Path) (α : Type)
      (body : StagedContext → Act α) (place : Location),
      (∀ context staged, spec.stage sourceRoot host w = (.ok context, staged) →
        ¬ context.location <+: place →
          (body context host staged).2.files.node? place = staged.files.node? place) →
      (spec.inContext sourceRoot body host w).2.files.node? place = w.files.node? place) ∧
    (∀ (client : Client) (context : Path) (order : Client.BuildOrder),
      (client.build context order host w).2.files = w.files) ∧
    (∀ p : Pipeline, p.spec.StaysInside → ∀ start : Progress, start.Lawful → ∀ place,
      ¬ p.TakesForRecord w.files host.cwd place →
      (p.run start host w).2.files.node? place = w.files.node? place) ∧
    (∀ source config tag out noCache keepBuilder check place,
      ¬ w.files.MayTake host.cwd ((Path.ofText out).child Lock.fileName) place →
      ((Cli.Request.build source config tag out noCache keepBuilder check).perform
        host w).2.files.node? place = w.files.node? place) ∧
    ∀ source config lock,
      ((Cli.Request.digest source config lock).perform host w).2.files = w.files := by
  refine ⟨?_, fun client context order => client.files_build context order host w, ?_, ?_, ?_⟩
  · intro spec hspec sourceRoot α body place hbody
    exact Spec.node?_inContext hspec hw hbody
  · intro p hspec start hstart place hplace
    exact Pipeline.node?_run hspec hw hstart hplace
  · intro source config tag out noCache keepBuilder check place hplace
    exact Cli.node?_performBuild hw hplace
  · intro source config lock
    exact Cli.files_performDigest hw source config lock

/-- The stock pipeline with a directory for its record: an operation in the staged context that
fails, a run and both requests leave a source as it was. -/
theorem leaves_no_traces_stocked :
    (Spec.standard.inContext (.ofText ".") (fun _ => (Act.fail .ranBefore : Act Unit)) willingHost
      .stocked).2.files.node? ["work", "src"] = World.stocked.files.node? ["work", "src"] ∧
    (recordingPipeline.run .initial willingHost .stocked).2.files.node? ["work", "src"] =
      World.stocked.files.node? ["work", "src"] ∧
    ((Cli.Request.build "." none none "out" false false true).perform willingHost
      .stocked).2.files.node? ["work", "src"] = World.stocked.files.node? ["work", "src"] ∧
    ((Cli.Request.digest "." none none).perform willingHost .stocked).2.files =
      World.stocked.files := by
  have haside : ¬ World.stocked.files.MayTake willingHost.cwd
      ((Path.ofText "out").child Lock.fileName) ["work", "src"] := by
    intro htakes
    have hpath : (Path.ofText "out").child Lock.fileName = .ofText "out/image.lock.json" := by decide
    rw [hpath] at htakes
    exact Cli.beside_stock "src" (by decide) _ htakes (by decide)
  have hgrounded : World.stocked.Grounded willingHost := World.grounded_stocked _
  obtain ⟨hcontext, -, hrun, hbuild, hdigest⟩ := leaves_no_traces hgrounded
  refine ⟨?_, ?_, hbuild "." none none "out" false false true ["work", "src"] haside,
    hdigest "." none none⟩
  · apply hcontext Spec.standard Spec.accepted_standard.staysInside
    intro context staged _ _
    rfl
  · apply hrun recordingPipeline Spec.accepted_standard.staysInside .initial
      Progress.lawful_initial
    rintro ⟨outdir, ⟨⟩, htakes⟩
    exact haside htakes

end TwoStage

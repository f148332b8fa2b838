import TwoStage.Cli.Perform
import TwoStage.Proofs.ConfigFile
import TwoStage.Proofs.Digest
import TwoStage.Proofs.Pipeline.Promise
import TwoStage.Proofs.Pipeline.Record

/-!
# What requests come to

A request for a build that exits with zero has loaded an accepted specification and run a pipeline of
it to its end. A request for the digest of the sources stages them, compares what it finds with the
record that it is given, and leaves the files as they were.

## Main definitions

- `Cli.Ran` — the pipeline that a request for a build ran

## Main statements

- `ConfigFile.load_eq_ok` — a specification that is loaded is accepted, and nothing is changed
- `Cli.build_ran`, `Cli.build_eq_zero` — what was done where a request for a build exits with zero
- `Cli.recordedDigest_of_read` — what a record says of the sources
- `Cli.performDigest_of_stage`, `Cli.digest_of_stage` — what a request for the digest comes to where
  the sources are staged
-/

namespace TwoStage

open Act

-- ════════════════════════════════════════════════════════════════════════
-- Checks make calls and records
-- ════════════════════════════════════════════════════════════════════════

theorem Client.keeps_locate (I : World → Prop) (client : Client) : Keeps I client.locate := by
  intro host w hw
  rw [locate]
  split <;> exact hw

section

variable {I : World → Prop} (hI : ∀ w calls records, I w → I { w with calls, records })

include hI

theorem Client.keeps_call (program : String) (command : Command) :
    Keeps I (Act.call program command) := by
  intro host w hw
  rw [Act.call]
  split
  · exact hI w _ w.records hw
  · exact hw

theorem Client.keeps_run (client : Client) (command : RunCommand) :
    Keeps I (client.run command) := by
  refine .bind (keeps_locate I client) fun program => ?_
  refine .bind (.report (fun w records hw => hI w w.calls records hw) _) fun _ => ?_
  exact .bind (keeps_call hI program _) fun reply => .pure _

theorem Client.keeps_inspect (client : Client) (image : String) :
    Keeps I (client.inspect image) := by
  refine .bind (keeps_locate I client) fun program =>
    .bind (keeps_call hI program _) fun reply => ?_
  split
  · exact .fail _
  · exact .bind (.ofExcept _) fun _ => .ofExcept _

theorem Check.keeps_imageConfig (client : Client) (image : String) :
    Keeps I (imageConfig client image) :=
  .bind (client.keeps_inspect hI image) fun _ => .bind (.ofExcept _) fun _ => .pure _

theorem Check.keeps_perform (check : Check) (spec : Spec) (client : Client) (image : String) :
    Keeps I (check.perform spec client image) := by
  cases check with
  | entrypoint =>
    exact .bind (keeps_imageConfig hI client image) fun _ => .bind (.ofExcept _) fun _ =>
      .bind (.ofExcept _) fun _ => .pure _
  | user =>
    exact .bind (keeps_imageConfig hI client image) fun _ => .bind (.ofExcept _) fun _ =>
      .pure _
  | uid => exact .bind (client.keeps_run hI _) fun _ => .pure _
  | artifact => exact .bind (client.keeps_run hI _) fun _ => .pure _
  | noToolchain => exact .bind (client.keeps_run hI _) fun _ => .pure _
  | systemPaths => exact .bind (client.keeps_run hI _) fun _ => .pure _
  | libraries =>
    refine .bind (client.keeps_run hI _) fun _ => ?_
    split <;> exact .pure _

theorem Check.keeps_performAll (spec : Spec) (client : Client) (image : String)
    (checks : List Check) : Keeps I (performAll spec client image checks) := by
  induction checks with
  | nil => exact .pure _
  | cons check rest ih =>
    exact .bind (check.keeps_perform hI spec client image) fun _ => .bind ih fun _ => .pure _

theorem keeps_verify (spec : Spec) (client : Client) (image : String) :
    Keeps I (verify spec client image) :=
  .bind (Check.keeps_performAll hI spec client image _) fun _ => .pure _

end

/-- Checking an image leaves the files as they are. -/
theorem Cli.keeps_checkImage (t : FileTree) (spec : Spec) (image : String) :
    Keeps (·.files = t) (checkImage spec image) := by
  refine .bind (fun _ _ hw => hw) fun client => ?_
  refine .bind (keeps_verify (fun _ _ _ hw => hw) spec client image) fun _ => ?_
  exact .bind (fun _ _ hw => hw) fun _ => .pure _

-- ════════════════════════════════════════════════════════════════════════
-- Loading
-- ════════════════════════════════════════════════════════════════════════

section

variable (I : World → Prop)

theorem Act.keeps_readText (path : Path) : Keeps I (readText path) :=
  .bind (.ask _ _) fun _ => .bind (.ofExcept _) fun _ => .pure _

theorem Act.keeps_outcome {α : Type} {x : Act α} (hx : Keeps I x) : Keeps I (outcome x) := hx

theorem ConfigFile.keeps_readValue (path : Path) : Keeps I (readValue path) := by
  refine .bind (keeps_outcome I (keeps_readText I path)) fun read => ?_
  split
  · exact .fail _
  · exact .fail _
  · split
    · exact .pure _
    · exact .fail _
    · exact .fail _

theorem ConfigFile.keeps_loadFrom (path : Path) : Keeps I (loadFrom path) := by
  refine .bind (keeps_readValue I path) fun value => ?_
  split
  · exact .ofExcept _
  · exact .fail _

/-- Loading a specification changes nothing. -/
theorem ConfigFile.keeps_load (path : Option Path) : Keeps I (load path) := by
  cases path with
  | some path => exact keeps_loadFrom I path
  | none =>
    refine .bind (fun _ _ hw => hw) fun host => .bind (.ask _ _) fun isThere => ?_
    split
    · exact keeps_loadFrom I _
    · exact .pure _

end

section

variable {host : Host} {w w' : World}

theorem ConfigFile.accepted_of_loadFrom {path : Path} {spec : Spec}
    (h : loadFrom path host w = (.ok spec, w')) : spec.Accepted := by
  obtain ⟨value, w₁, -, hparsed⟩ := bind_eq_ok h
  split at hparsed
  · next members =>
    have hresult := congrArg Prod.fst hparsed
    cases hparse : Config.parse (.obj members) with
    | error why =>
      rw [hparse] at hresult
      cases hresult
    | ok parsed =>
      rw [hparse] at hresult
      obtain rfl : parsed = spec := Except.ok.inj hresult
      exact ⟨_, hparse⟩
  · cases hparsed

/-- A specification that is loaded is accepted, and loading it changes nothing. -/
theorem ConfigFile.load_eq_ok {path : Option Path} {spec : Spec}
    (h : load path host w = (.ok spec, w')) : w' = w ∧ spec.Accepted := by
  refine ⟨(keeps_load (· = w) path).of_eq h rfl, ?_⟩
  cases path with
  | some path => exact accepted_of_loadFrom h
  | none =>
    obtain ⟨_, _, -, hasked⟩ := bind_eq_ok h
    obtain ⟨isThere, w₁, -, hload⟩ := bind_eq_ok hasked
    split at hload
    · exact accepted_of_loadFrom hload
    · cases hload
      exact Spec.accepted_standard

/-- The tag that is asked for does not change how sources are staged. -/
theorem Spec.stage_image (spec : Spec) (image : String) :
    ({ spec with image } : Spec).stage = spec.stage := rfl

namespace Cli

theorem loadSpec_eq_ok {config tag : Option String} {spec : Spec}
    (h : loadSpec config tag host w = (.ok spec, w')) :
    w' = w ∧ ∃ plain : Spec, loadSpec config none host w = (.ok plain, w) ∧ plain.Accepted ∧
      spec = { plain with image := (given? tag).getD plain.image } := by
  obtain ⟨plain, w₁, hload, hend⟩ := bind_eq_ok h
  obtain ⟨rfl, haccepted⟩ := ConfigFile.load_eq_ok hload
  cases hend
  refine ⟨rfl, plain, ?_, haccepted, ?_⟩
  · rw [loadSpec, bind_of_ok hload]
    rfl
  · cases given? tag <;> rfl

theorem loadSpec_of_fst {config tag : Option String} {spec : Spec}
    (h : (loadSpec config tag host w).1 = .ok spec) :
    loadSpec config tag host w = (.ok spec, w) := by
  have hload := eq_mk_of_fst h
  rw [hload, (loadSpec_eq_ok hload).1]

end Cli

end

-- ════════════════════════════════════════════════════════════════════════
-- Requests for a build
-- ════════════════════════════════════════════════════════════════════════

/-- The client of the requests, which choose no program themselves. -/
def Host.client (host : Host) : Client := ⟨(Client.nonEmpty? host.engineVariable).getD "docker"⟩

theorem Client.create_none (host : Host) (w : World) :
    Client.create none host w = (.ok host.client, w) := rfl

/-- A build that ends with a result is a run that does. -/
theorem Pipeline.build_eq_ok {p : Pipeline} {host : Host} {w w' : World} {result : PipelineResult}
    (h : p.build host w = (.ok result, w')) :
    ∃ progress, p.run .initial host w = (.ok (.ok result, progress), w') := by
  obtain ⟨⟨ended, progress⟩, w₁, hrun, hend⟩ := bind_eq_ok h
  cases ended with
  | error e =>
    have hfails := build_of_error hrun
    rw [h] at hfails
    cases hfails
  | ok made =>
    cases hend
    exact ⟨progress, hrun⟩

namespace Cli

section

variable {source out : String} {config tag : Option String} {noCache keepBuilder check : Bool}
  {host : Host} {w w' : World}

/-- An error that is shown exits with one. -/
theorem showFailure_apply (e : Error) : (showFailure e host w).1 = .ok 1 := by
  cases e with
  | stage failure =>
    rw [showFailure, bind_of_ok (show display _ host w = (.ok (), _) from rfl)]
    by_cases htail : (!failure.tail.isEmpty) = true
    · rw [if_pos htail]
      rfl
    · rw [if_neg htail]
      rfl
  | _ => rfl

/-- What is done to check an image behind a build. -/
def checkBehind (spec : Spec) (image : String) : Act Int := do
  return if ← checkImage spec image then 0 else 1

/-- A request for a build ran a pipeline, of the specification that it loaded, with this result. -/
structure Ran (source out : String) (config tag : Option String) (host : Host) (w : World)
    (p : Pipeline) (result : PipelineResult) (progress : Progress) (ended : World) : Prop where
  load : loadSpec config tag host w = (.ok p.spec, w)
  sourceRoot : p.sourceRoot = Path.ofText source
  client : p.client = host.client
  outdir : p.outdir = some (Path.ofText out)
  runs : p.run .initial host w = (.ok (.ok result, progress), ended)

/-- A request for a build that exits with zero has run a pipeline. Behind that it shows a summary,
and looks at the image if it is told so. -/
theorem build_ran
    (h : (Request.build source config tag out noCache keepBuilder check).perform host w =
      (.ok 0, w')) :
    ∃ p result progress ended, Ran source out config tag host w p result progress ended ∧
      ∀ check, (Request.build source config tag out noCache keepBuilder check).perform host w =
        (if check then checkBehind p.spec result.image else return 0) host
          { ended with shown := ended.shown ++ [summaryTable p.spec result] } := by
  rw [Request.perform, performBuild] at h
  obtain ⟨built, ended, houtcome, hafter⟩ := bind_eq_ok h
  have hbuilt := outcome_eq_ok houtcome
  cases built with
  | error e =>
    dsimp only at hafter
    split at hafter
    · rw [← Prod.eta (showFailure e host ended), showFailure_apply e] at hafter
      cases hafter
    · cases hafter
  | ok built =>
    obtain ⟨spec, result⟩ := built
    obtain ⟨loaded, w₁, hload, hrest⟩ := bind_eq_ok hbuilt
    obtain ⟨rfl, -⟩ := loadSpec_eq_ok hload
    obtain ⟨client, w₂, hclient, hbuild⟩ := bind_eq_ok hrest
    cases hclient
    obtain ⟨made, w₃, hpipeline, hend⟩ := bind_eq_ok hbuild
    obtain ⟨progress, hrun⟩ := Pipeline.build_eq_ok hpipeline
    cases hend
    refine ⟨_, result, progress, ended, ⟨hload, rfl, rfl, rfl, hrun⟩, fun check => ?_⟩
    rw [Request.perform, performBuild, bind_of_ok houtcome]
    rfl

/-- Such a request changes no file behind its run. -/
theorem build_eq_zero
    (h : (Request.build source config tag out noCache keepBuilder check).perform host w =
      (.ok 0, w')) :
    ∃ p result progress ended, Ran source out config tag host w p result progress ended ∧
      w'.files = ended.files := by
  obtain ⟨p, result, progress, ended, hran, hperform⟩ := build_ran h
  refine ⟨p, result, progress, ended, hran, ?_⟩
  rw [hperform] at h
  cases check with
  | false =>
    cases h
    rfl
  | true =>
    obtain ⟨passed, w₁, hcheck, hend⟩ := bind_eq_ok h
    obtain rfl : w₁ = w' := congrArg Prod.snd hend
    exact (keeps_checkImage ended.files p.spec result.image).of_eq hcheck rfl

/-- A record says which digest it was made with. -/
theorem recordedDigest_of_read {lock : String} {spec : Spec} {result : PipelineResult}
    {time : String} (h : w.files.read host.cwd (Path.ofText lock) =
      .ok (utf8Bytes (Lock.toJson spec result time).indented)) :
    recordedDigest lock host w = (.ok (.str result.sourceDigest), w) := by
  have hexact := Lock.exact_toJson spec result time
  have hread : readText (Path.ofText lock) host w =
      (.ok (Lock.toJson spec result time).indented, w) := by
    rw [ConfigFile.readText_of_read h, Utf8.decode_eq_ok_iff.mpr rfl]
    exact congrArg (fun text => (Except.ok text, w)) hexact.unifyNewlines_indented
  rw [recordedDigest, bind_of_ok hread, hexact.read_indented]
  rfl

/-- What is shown where the digest of the sources is compared with the one in a record. -/
def comparison (lock got recorded : String) : Display :=
  if sameDigest got recorded then
    .marked (tagged "green" ("Sources match " ++ lock ++ "."))
  else
    .marked (tagged "red" ("Sources changed since " ++ lock) ++
      " (recorded sha256:" ++ recorded ++ ")")

/-- Comparing a digest with one that is recorded shows whether they agree. -/
theorem compareWithLock_of_text {got lock recorded : String}
    (h : recordedDigest lock host w = (.ok (.str recorded), w)) :
    compareWithLock got lock host w =
      (.ok (if sameDigest got recorded then 0 else 1),
        { w with shown := w.shown ++ [comparison lock got recorded] }) := by
  have hrecorded : outcome (recordedDigest lock) host w = (.ok (.ok (.str recorded)), w) := by
    rw [outcome, h]
  rw [compareWithLock, bind_of_ok hrecorded, comparison]
  by_cases hsame : sameDigest got recorded = true
  · rw [if_pos hsame, if_pos hsame]
    dsimp only
    rw [if_pos hsame]
    rfl
  · rw [if_neg hsame, if_neg hsame]
    dsimp only
    rw [if_neg hsame]
    rfl

/-- A request for the digest that stages the sources shows their digest and then compares it, the
files being as they were. -/
theorem performDigest_of_stage (lock : String) {source : String} {config : Option String}
    {spec : Spec} {context : StagedContext} {u : World} (hspec : spec.StaysInside)
    (hw : w.Grounded host) (hload : (loadSpec config none host w).1 = .ok spec)
    (hstage : spec.stage (Path.ofText source) host w = (.ok context, u)) :
    ∃ v, performDigest source config (some lock) host w =
        compareWithLock context.sourceDigest lock host v ∧
      v.files = w.files ∧
      v.shown = w.shown ++ [.plain ("sha256:" ++ context.sourceDigest ++ "\n")] := by
  have hloaded := loadSpec_of_fst hload
  obtain ⟨-, hremoved⟩ := Spec.files_of_stage hspec hw hstage
  have hshown := spec.shown_stage (Path.ofText source) host w
  rw [hstage] at hshown
  have hdigested : outcome (do
        let spec ← loadSpec config none
        spec.inContext (Path.ofText source) fun context => return context.sourceDigest) host w =
      (.ok (.ok context.sourceDigest), { u with files := w.files }) := by
    rw [outcome, bind_of_ok hloaded, Spec.inContext_of_stage _ hstage]
    exact congrArg (fun files => (_, { u with files })) hremoved
  obtain ⟨v, hdisplay, hfiles, hplain⟩ : ∃ v,
      display (.plain ("sha256:" ++ context.sourceDigest ++ "\n")) host
        { u with files := w.files } = (.ok (), v) ∧ v.files = w.files ∧
      v.shown = u.shown ++ [.plain ("sha256:" ++ context.sourceDigest ++ "\n")] :=
    ⟨_, rfl, rfl, rfl⟩
  refine ⟨v, ?_, hfiles, ?_⟩
  · rw [performDigest, bind_of_ok hdigested]
    dsimp only
    rw [bind_of_ok hdisplay]
  · dsimp only at hshown
    rw [hplain, hshown]

/-- A request for the digest that stages the sources exits with zero if a record has their digest,
and otherwise with one. It shows the digest and what the comparison came to, and leaves the files as
they were. -/
theorem digest_of_stage {source lock : String} {config : Option String} {spec recorded : Spec}
    {result : PipelineResult} {time : String} {context : StagedContext} {u : World}
    (hspec : spec.StaysInside) (hw : w.Grounded host)
    (hload : (loadSpec config none host w).1 = .ok spec)
    (hstage : spec.stage (Path.ofText source) host w = (.ok context, u))
    (hread : w.files.read host.cwd (Path.ofText lock) =
      .ok (utf8Bytes (Lock.toJson recorded result time).indented)) :
    ∃ w', (Request.digest source config (some lock)).perform host w =
        (.ok (if sameDigest context.sourceDigest result.sourceDigest then 0 else 1), w') ∧
      w'.files = w.files ∧
      w'.shown = w.shown ++ [.plain ("sha256:" ++ context.sourceDigest ++ "\n"),
        comparison lock context.sourceDigest result.sourceDigest] := by
  obtain ⟨v, hperform, hfiles, hshown⟩ := performDigest_of_stage lock hspec hw hload hstage
  rw [← hfiles] at hread
  refine ⟨{ v with
    shown := v.shown ++ [comparison lock context.sourceDigest result.sourceDigest] }, ?_, hfiles, ?_⟩
  · rw [Request.perform, hperform, compareWithLock_of_text (recordedDigest_of_read hread)]
  · dsimp only
    rw [hshown, List.append_assoc]
    rfl

end

end Cli

end TwoStage

import TwoStage.Proofs.Cli.Markup
import TwoStage.Proofs.Cli.Requests
import TwoStage.Proofs.Engine.Steady
import TwoStage.Proofs.Pipeline.CallOrder
import TwoStage.Proofs.Verify

/-!
# Verdicts on an image

An image can be checked behind its build or by a request of its own. Both carry out the same checks,
and these end with an error only where one of the two inspections of the image fails. The request of
its own shows such an error if it says that something was looked up in vain, and exits with one; the
request that builds holds none of them back. So the two agree, in how they end and in the table that
they show, exactly where the engine does not deny the image.

## Main definitions

- `Reply.IsDenial`, `Host.Denies` — an engine that denies an image
- `Cli.SameVerdict` — two requests that come to the same

## Main statements

- `verify_configured` — how a check ends, from the replies to its inspections
- `Cli.sameVerdict_iff` — checking behind a build, and by a request of its own
- `Cli.build_then_check` — a build with a check, from one without
- `Cli.build_verify_sameVerdict_iff` — where the two requests agree
- `Cli.build_verify_not_sameVerdict` — they do not if the engine has no such image
-/

namespace TwoStage

open Act

-- ════════════════════════════════════════════════════════════════════════
-- Replies to an inspection
-- ════════════════════════════════════════════════════════════════════════

/-- A reply that denies an image: the engine does not exit with zero, or it shows an object with
members where it should show a list. -/
def Reply.IsDenial (reply : Reply) : Prop :=
  reply.code ≠ 0 ∨ ∃ first rest, Json.read reply.out = .ok (.obj (first :: rest))

/-- The engine denies an image to a check: at its first inspection, or else at its second one if the
first one told settings. -/
def Host.Denies (host : Host) (w : World) (program image : String) : Prop :=
  let inspection : Call := ⟨program, .inspect image, w.files⟩
  let first := host.engine.reply w.calls inspection
  let second := host.engine.reply (w.calls ++ [inspection]) inspection
  first.IsDenial ∨ (∃ settings, first.configured image = .ok settings) ∧ second.IsDenial

theorem Client.firstItem_eq_noFirst_iff {value : Json} :
    firstItem value = .error .noFirst ↔ ∃ first rest, value = .obj (first :: rest) := by
  fun_cases firstItem value <;> simp_all

/-- An error of the form of data is no answer to a question for the image, unless the data is an
object with members. -/
theorem Client.saysNotFound_of_firstItem {value : Json} {fault : ShapeFault}
    (h : firstItem value = .error fault) :
    Cli.saysNotFound (.shape fault) = true ↔ ∃ first rest, value = .obj (first :: rest) := by
  rw [← firstItem_eq_noFirst_iff, h]
  cases fault <;> simp [Cli.saysNotFound]

theorem Check.member_eq_error {name : String} {value : Json} {fault : ShapeFault}
    (h : member name value = .error fault) : fault = .noMembers := by
  cases value <;> cases h <;> rfl

namespace Reply

variable {reply : Reply} {image : String} {e : Error}

theorem saysNotFound_of_inspected (h : reply.inspected image = .error e) :
    (Cli.saysNotFound e = true ↔ reply.IsDenial) ∧ e.isDeliberate = false := by
  rw [inspected] at h
  by_cases hcode : reply.code = 0
  · rw [if_neg (not_not_intro hcode)] at h
    rw [IsDenial, or_iff_right (not_not_intro hcode)]
    cases hread : Json.read reply.out with
    | error why =>
      rw [hread] at h
      cases h
      simp [Cli.saysNotFound, Error.isDeliberate]
    | ok value =>
      rw [hread] at h
      cases hfirst : Client.firstItem value with
      | ok item =>
        simp [Except.mapError, Except.bind, hfirst] at h
      | error fault =>
        simp only [Except.mapError, Except.bind, hfirst, Except.error.injEq] at h
        subst h
        simp [Client.saysNotFound_of_firstItem hfirst, Error.isDeliberate]
  · rw [if_pos hcode] at h
    cases h
    exact ⟨iff_of_true rfl (Or.inl hcode), rfl⟩

theorem not_isDenial_of_inspected {value : Json} (h : reply.inspected image = .ok value) :
    ¬ reply.IsDenial := by
  rw [inspected] at h
  by_cases hcode : reply.code = 0
  · rw [if_neg (not_not_intro hcode)] at h
    rintro (hdenial | ⟨first, rest, hread⟩)
    · exact hdenial hcode
    · rw [hread] at h
      cases h
  · rw [if_pos hcode] at h
    cases h

/-- The error of a reply is never raised on purpose, and it says that something was looked up in vain
exactly where the reply is a denial. -/
theorem saysNotFound_of_configured (h : reply.configured image = .error e) :
    (Cli.saysNotFound e = true ↔ reply.IsDenial) ∧ e.isDeliberate = false := by
  rw [configured, told] at h
  cases hinspected : reply.inspected image with
  | error fault =>
    rw [hinspected] at h
    cases h
    exact saysNotFound_of_inspected hinspected
  | ok value =>
    have hshape : e = .shape .noMembers := by
      rw [hinspected] at h
      cases hmember : Check.member "Config" value with
      | error fault =>
        simp only [Except.bind, Except.map, Except.mapError, hmember, Except.error.injEq] at h
        rw [← h, Check.member_eq_error hmember]
      | ok config =>
        simp only [Except.bind, Except.map, Except.mapError, hmember] at h
        split at h
        · cases h
        · exact (Except.error.inj h).symm
    subst hshape
    exact ⟨iff_of_false (by simp [Cli.saysNotFound]) (not_isDenial_of_inspected hinspected), rfl⟩

theorem not_isDenial_of_configured {settings : List (String × Json)}
    (h : reply.configured image = .ok settings) : ¬ reply.IsDenial := by
  cases hinspected : reply.inspected image with
  | ok value => exact not_isDenial_of_inspected hinspected
  | error e =>
    rw [configured, told, hinspected] at h
    cases h

end Reply

namespace Host

variable {host : Host} {w : World} {program image : String}

theorem denies_iff_of_error {e : Error}
    (h : (host.engine.reply w.calls ⟨program, .inspect image, w.files⟩).configured image =
      .error e) :
    host.Denies w program image ↔
      (host.engine.reply w.calls ⟨program, .inspect image, w.files⟩).IsDenial := by
  refine or_iff_left fun hsecond => ?_
  obtain ⟨⟨settings, hsettings⟩, -⟩ := hsecond
  cases h.symm.trans hsettings

theorem denies_iff_of_ok {settings : List (String × Json)}
    (h : (host.engine.reply w.calls ⟨program, .inspect image, w.files⟩).configured image =
      .ok settings) :
    host.Denies w program image ↔
      (host.engine.reply (w.calls ++ [⟨program, .inspect image, w.files⟩])
        ⟨program, .inspect image, w.files⟩).IsDenial :=
  (or_iff_right (Reply.not_isDenial_of_configured h)).trans (and_iff_right ⟨settings, h⟩)

end Host

-- ════════════════════════════════════════════════════════════════════════
-- Checks that end with an error
-- ════════════════════════════════════════════════════════════════════════

section

variable {spec : Spec} {client : Client} {host : Host} {program : String}
  (hfound : host.engine.find? client.program = some program) {image : String}
  (hask : ∀ text ∈ [program, image], isWord text = true)
  (hpath : isWord spec.final.entrypoint.path = true) (w : World)

include hfound hask hpath

/-- Checks that run containers come to findings, whatever the replies are. -/
theorem Check.performAll_containers {checks : List Check}
    (hchecks : ∀ check ∈ checks, check.inspects = false) :
    ∃ findings w', performAll spec client image checks host w = (.ok findings, w') := by
  induction checks generalizing w with
  | nil => exact ⟨[], w, rfl⟩
  | cons check rest ih =>
    obtain ⟨hcheck, hrest⟩ := List.forall_mem_cons.mp hchecks
    obtain ⟨w₁, hfirst, -⟩ := perform_called hfound
      ((isSayable_command_iff hpath check image).mpr hask) w fun hinspects =>
        absurd hinspects (by simp [hcheck])
    obtain ⟨others, w₂, hothers⟩ := ih w₁ hrest
    exact ⟨_, w₂, performAll_of_ok hfirst hothers⟩

/-- Checking an image ends with an error where one of its two inspections tells no settings, the
second one being made behind the first one, and else with a report. -/
theorem verify_configured :
    let inspection : Call := ⟨program, .inspect image, w.files⟩
    let first := host.engine.reply w.calls inspection
    let second := host.engine.reply (w.calls ++ [inspection]) inspection
    (∃ e, first.configured image = .error e ∧
        (verify spec client image host w).1 = .error e) ∨
      (∃ settings e, first.configured image = .ok settings ∧ second.configured image = .error e ∧
        (verify spec client image host w).1 = .error e) ∨
      ∃ settings settings' report, first.configured image = .ok settings ∧
        second.configured image = .ok settings' ∧
        (verify spec client image host w).1 = .ok report := by
  intro inspection first second
  have hinspects : Check.entrypoint.inspects = true ∧ Check.user.inspects = true := ⟨rfl, rfl⟩
  have hsay : (Command.inspect image).isSayable program = true :=
    (Check.isSayable_command_iff hpath .entrypoint image).mpr hask
  obtain ⟨w₁, hcalled, hfirst⟩ := Check.perform_configured hfound spec hinspects.1 hsay w
  obtain ⟨w₂, -, hsecond⟩ := Check.perform_configured hfound spec hinspects.2 hsay w₁
  rw [hcalled.files, hcalled.calls] at hsecond
  rcases hfirst with ⟨e, htells, hfails⟩ | ⟨settings, finding, htells, hfinds⟩
  · refine Or.inl ⟨e, htells, ?_⟩
    rw [verify_of_error (Check.performAll_of_error hfails _)]
  · refine Or.inr ?_
    rcases hsecond with ⟨e, htells₂, hfails⟩ | ⟨settings₂, finding₂, htells₂, hfinds₂⟩
    · refine Or.inl ⟨settings, e, htells, htells₂, ?_⟩
      rw [verify_of_error (Check.performAll_of_later hfinds (Check.performAll_of_error hfails _))]
    · obtain ⟨others, w₃, hothers⟩ := Check.performAll_containers hfound hask hpath w₂
        (show ∀ check ∈ [Check.uid, .artifact, .noToolchain, .systemPaths, .libraries],
          check.inspects = false by decide)
      refine Or.inr ⟨settings, settings₂, ⟨image, finding :: finding₂ :: others⟩, htells, htells₂,
        ?_⟩
      have hall := Check.performAll_of_ok hfinds (Check.performAll_of_ok hfinds₂ hothers)
      rw [verify, Check.all, bind_of_ok hall]
      rfl

/-- No error of a check is raised on purpose. One that says that something was looked up in vain is
raised exactly where the engine denies the image. -/
theorem verify_denied :
    (∀ e, (verify spec client image host w).1 = .error e → e.isDeliberate = false ∧
      (Cli.saysNotFound e = true ↔ host.Denies w program image)) ∧
    (host.Denies w program image → ∃ e, (verify spec client image host w).1 = .error e) := by
  rcases verify_configured hfound hask hpath w with ⟨fault, htells, hverify⟩ |
    ⟨settings, fault, htells, htells₂, hverify⟩ |
    ⟨settings, settings₂, report, htells, htells₂, hverify⟩
  · refine ⟨fun e he => ?_, fun _ => ⟨fault, hverify⟩⟩
    obtain rfl : fault = e := Except.error.inj (hverify.symm.trans he)
    obtain ⟨hdenial, hdeliberate⟩ := Reply.saysNotFound_of_configured htells
    exact ⟨hdeliberate, hdenial.trans (Host.denies_iff_of_error htells).symm⟩
  · refine ⟨fun e he => ?_, fun _ => ⟨fault, hverify⟩⟩
    obtain rfl : fault = e := Except.error.inj (hverify.symm.trans he)
    obtain ⟨hdenial, hdeliberate⟩ := Reply.saysNotFound_of_configured htells₂
    exact ⟨hdeliberate, hdenial.trans (Host.denies_iff_of_ok htells).symm⟩
  · refine ⟨fun e he => ?_, fun hdenies => ?_⟩
    · cases hverify.symm.trans he
    · have hdenial := (Host.denies_iff_of_ok htells).mp hdenies
      exact absurd hdenial (Reply.not_isDenial_of_configured htells₂)

end

/-- A run that ends with a result has found the engine and could ask it for both stages. -/
theorem Pipeline.asked_of_run {p : Pipeline} {host : Host} {w w' : World} {made : PipelineResult}
    {progress : Progress} (h : p.run .initial host w = (.ok (.ok made, progress), w')) :
    ∃ program, host.engine.find? p.client.program = some program ∧
      ∀ text ∈ [program, p.spec.image], isWord text = true := by
  obtain ⟨result, reached, w₁, talk, hrun, hending, -⟩ := p.run_ending fresh_initial host w
  cases h.symm.trans hrun
  cases hending with
  | returned _ hcourse =>
    cases hcourse with
    | finished _ _ hbuild hfinal =>
      cases hbuild with
      | confirmed hreach =>
        cases hfinal with
        | made _ hnames =>
          obtain ⟨program, hfind, hwords⟩ := hreach
          refine ⟨program, hfind, ?_⟩
          simp only [List.forall_mem_cons]
          exact ⟨hwords program List.mem_cons_self,
            hnames _ (List.mem_cons_of_mem _ List.mem_cons_self), by simp⟩

-- ════════════════════════════════════════════════════════════════════════
-- The two requests
-- ════════════════════════════════════════════════════════════════════════

namespace Cli

/-- Whether something that is shown is a table. -/
def isTable : Display → Bool
  | .table .. => true
  | _ => false

/-- The tables that were shown between two worlds. -/
def tablesSince (before after : World) : List Display :=
  (after.shown.drop before.shown.length).filter isTable

/-- Two ways to check an image, each from a world of its own: they end with the same exit code or
with the same error, and they show the same tables. -/
structure SameVerdict (built : World) (checked : Except Error Int × World) (later : World)
    (verified : Except Error Int × World) : Prop where
  ends : checked.1 = verified.1
  tables : tablesSince built checked.2 = tablesSince later verified.2

theorem tablesSince_of_shown {before after : World} {more : List Display}
    (h : after.shown = before.shown ++ more) : tablesSince before after = more.filter isTable := by
  rw [tablesSince, h, List.drop_left]

section

variable {spec : Spec} {host : Host} {w : World} {image : String} {config : Option String}

/-- Checking an image shows nothing itself. -/
theorem shown_verify (spec : Spec) (client : Client) (image : String) (host : Host) (w : World) :
    (TwoStage.verify spec client image host w).2.shown = w.shown :=
  keeps_verify (I := fun after => after.shown = w.shown) (fun _ _ _ h => h) spec client image host w
    rfl

theorem checkBehind_of_error {e : Error}
    (h : (TwoStage.verify spec host.client image host w).1 = .error e) :
    (checkBehind spec image host w).1 = .error e ∧
      (checkBehind spec image host w).2.shown = w.shown := by
  have hverify := eq_mk_of_fst h
  have hcheck : checkBehind spec image host w = _ :=
    bind_of_error ((bind_of_ok (Client.create_none host w)).trans (bind_of_error hverify))
  rw [hcheck]
  exact ⟨rfl, shown_verify ..⟩

theorem checkBehind_of_report {report : Report}
    (h : (TwoStage.verify spec host.client image host w).1 = .ok report) :
    (checkBehind spec image host w).1 = .ok (if report.isOk then 0 else 1) ∧
      (checkBehind spec image host w).2.shown = w.shown ++ [reportTable report] := by
  have hshown := shown_verify spec host.client image host w
  have hverify := eq_mk_of_fst h
  generalize (TwoStage.verify spec host.client image host w).2 = w₁ at hverify hshown
  have himage : checkImage spec image host w =
      (.ok report.isOk, { w₁ with shown := w₁.shown ++ [reportTable report] }) :=
    (bind_of_ok (Client.create_none host w)).trans (bind_of_ok hverify)
  have hcheck : checkBehind spec image host w = _ := bind_of_ok himage
  rw [hcheck, ← hshown]
  exact ⟨rfl, rfl⟩

section

variable (hload : loadSpec config none host w = (.ok spec, w))

include hload

theorem outcome_checked {result : Except Error Report} {w' : World}
    (h : TwoStage.verify spec host.client image host w = (result, w')) :
    outcome (do
      let spec ← loadSpec config none
      TwoStage.verify spec (← Client.create none) image) host w = (.ok result, w') := by
  rw [outcome, bind_of_ok hload, bind_of_ok (Client.create_none host w), h]

theorem performVerify_of_error {e : Error}
    (h : (TwoStage.verify spec host.client image host w).1 = .error e) :
    ∃ w', performVerify image config host w =
        (if e.isDeliberate || saysNotFound e then showError e.message else Act.fail e) host w' ∧
      w'.shown = w.shown := by
  have hverify := eq_mk_of_fst h
  refine ⟨_, ?_, shown_verify spec host.client image host w⟩
  rw [performVerify, bind_of_ok (outcome_checked hload hverify)]

theorem performVerify_of_report {report : Report}
    (h : (TwoStage.verify spec host.client image host w).1 = .ok report) :
    (performVerify image config host w).1 = .ok (if report.isOk then 0 else 1) ∧
      tablesSince w (performVerify image config host w).2 = [reportTable report] := by
  have hshown := shown_verify spec host.client image host w
  have hverify := eq_mk_of_fst h
  generalize (TwoStage.verify spec host.client image host w).2 = w₁ at hverify hshown
  have htable : display (reportTable report) host w₁ =
      (.ok (), { w₁ with shown := w.shown ++ [reportTable report] }) := by
    rw [← hshown]
    rfl
  rw [performVerify, bind_of_ok (outcome_checked hload hverify)]
  dsimp only
  rw [bind_of_ok htable]
  by_cases hok : report.isOk = true
  · rw [if_pos hok, if_pos hok]
    exact ⟨rfl, (tablesSince_of_shown (List.append_assoc ..)).trans rfl⟩
  · rw [if_neg hok, if_neg hok]
    exact ⟨rfl, (tablesSince_of_shown rfl).trans rfl⟩

/-- A request to check an image ends as a check behind a build does, unless something is looked up
in vain: it shows that error, and raises every other one just as well. -/
theorem sameVerdict_iff {built : World} (halike : host.LooksAlike built w)
    (hdeliberate : ∀ e, (TwoStage.verify spec host.client image host w).1 = .error e →
      e.isDeliberate = false) :
    SameVerdict built (checkBehind spec image host built) w (performVerify image config host w) ↔
      ∀ e, (TwoStage.verify spec host.client image host w).1 = .error e →
        saysNotFound e = false := by
  have hsame := (steady_verify spec host.client image host built w halike).1
  cases hverify : (TwoStage.verify spec host.client image host w).1 with
  | error e =>
    rw [hverify] at hsame
    obtain ⟨hends, hshown⟩ := checkBehind_of_error hsame
    obtain ⟨w₁, hperform, hshown₁⟩ := performVerify_of_error hload hverify
    rw [hdeliberate e hverify, Bool.false_or] at hperform
    by_cases hnot : saysNotFound e = true
    · rw [if_pos hnot] at hperform
      refine iff_of_false (fun hverdict => ?_) (by simp [hnot])
      have hcode := hverdict.ends
      rw [hends, hperform] at hcode
      cases hcode
    · rw [if_neg hnot] at hperform
      refine iff_of_true ⟨?_, ?_⟩ (by simpa using hnot)
      · rw [hends, hperform]
        rfl
      · rw [tablesSince, tablesSince, hshown, hperform]
        simp [Act.fail, hshown₁]
  | ok report =>
    rw [hverify] at hsame
    obtain ⟨hends, hshown⟩ := checkBehind_of_report hsame
    obtain ⟨hcode, htables⟩ := performVerify_of_report hload hverify
    have htable : tablesSince built (checkBehind spec image host built).2 =
        tablesSince w (performVerify image config host w).2 := by
      rw [htables, tablesSince_of_shown hshown]
      rfl
    refine iff_of_true ⟨hends.trans hcode.symm, htable⟩ fun e he => ?_
    cases he

end

end

-- ════════════════════════════════════════════════════════════════════════
-- Checking behind a build
-- ════════════════════════════════════════════════════════════════════════

/-- Where a build exits with zero, the same request with a check carries out the check behind it. -/
theorem build_then_check {source out : String} {config tag : Option String}
    {noCache keepBuilder : Bool} {host : Host} {w built : World} {spec : Spec}
    (hbuild : (Request.build source config tag out noCache keepBuilder false).perform host w =
      (.ok 0, built))
    (hload : (loadSpec config none host w).1 = .ok spec) :
    (∃ program, host.engine.find? host.client.program = some program ∧
        ∀ text ∈ [program, (given? tag).getD spec.image], isWord text = true) ∧
      isWord spec.final.entrypoint.path = true ∧
        (Request.build source config tag out noCache keepBuilder true).perform host w =
          checkBehind spec ((given? tag).getD spec.image) host built := by
  obtain ⟨p, result, progress, ended, hrun, hperform⟩ := build_ran hbuild
  have hbuilt := hbuild.symm.trans (hperform false)
  rw [← hrun.client]
  obtain ⟨-, plain, hplain, haccepted, htagged⟩ := loadSpec_eq_ok hrun.load
  rw [hplain] at hload
  obtain rfl : plain = spec := Except.ok.inj hload
  obtain ⟨_, _, _, _, _, _, -, hresult, -⟩ := Pipeline.run_eq_ok hrun.outdir hrun.runs
  have himage : p.spec.image = (given? tag).getD plain.image := congrArg Spec.image htagged
  have hmade : result.image = (given? tag).getD plain.image := by
    rw [hresult]
    exact himage
  cases hbuilt
  refine ⟨?_, haccepted.isWord_entrypoint, ?_⟩
  · rw [← himage]
    exact Pipeline.asked_of_run hrun.runs
  · rw [hperform true, hmade, htagged]
    rfl

/-- Behind a build that exits with zero, checking the image at once and checking it later, with the
same configuration and with an engine that replies alike, come to the same exactly if the engine
does not deny the image. Where it does, the request that builds ends with an error that says that
something was looked up in vain, and the other one exits with one, if it can show this error. -/
theorem build_verify_sameVerdict_iff {source out : String} {config tag : Option String}
    {noCache keepBuilder : Bool} {host : Host} {w built later : World} {spec : Spec}
    (hbuild : (Request.build source config tag out noCache keepBuilder false).perform host w =
      (.ok 0, built))
    (hload : (loadSpec config none host w).1 = .ok spec)
    (hagain : (loadSpec config none host later).1 = .ok spec)
    (halike : host.LooksAlike built later) (rules : Markup.Rules) :
    let image := (given? tag).getD spec.image
    let checked := (Request.build source config tag out noCache keepBuilder true).perform host w
    let verified := (Request.verify image config).perform host later
    ∃ program, host.engine.find? host.client.program = some program ∧
      (SameVerdict built checked later verified ↔ ¬ host.Denies built program image) ∧
      (host.Denies built program image → ∃ e, saysNotFound e = true ∧
        checked.1 = .error e ∧ (Shows rules later verified.2 → Exits rules later verified 1)) := by
  intro image checked verified
  obtain ⟨⟨program, hfound, hask⟩, hpath, hchecked⟩ := build_then_check hbuild hload
  have hloads := loadSpec_of_fst hagain
  have hsame := (steady_verify spec host.client image host built later halike).1
  obtain ⟨hdenied, hdenies⟩ := verify_denied hfound hask hpath built
  refine ⟨program, hfound, ?_, fun hdenial => ?_⟩
  · simp only [checked, hchecked, verified, Request.perform]
    rw [sameVerdict_iff hloads halike fun e he => (hdenied e (hsame.trans he)).1, ← hsame]
    constructor
    · intro hheld hdenial
      obtain ⟨e, he⟩ := hdenies hdenial
      have hnot := hheld e he
      rw [((hdenied e he).2).mpr hdenial] at hnot
      cases hnot
    · intro hdenial e he
      exact Bool.eq_false_iff.mpr fun hsays => hdenial (((hdenied e he).2).mp hsays)
  · obtain ⟨e, he⟩ := hdenies hdenial
    have hsays := ((hdenied e he).2).mpr hdenial
    obtain ⟨u, hperform, -⟩ := performVerify_of_error hloads (hsame.symm.trans he)
    refine ⟨e, hsays, ?_, fun hshows => ⟨?_, hshows⟩⟩
    · simp only [checked, hchecked]
      exact (checkBehind_of_error he).1
    · simp only [verified, Request.perform, hperform, hsays, Bool.or_true, if_true]
      rfl

-- ════════════════════════════════════════════════════════════════════════
-- An image that is told of and one that is denied
-- ════════════════════════════════════════════════════════════════════════

/-- A host whose engine makes every image, and replies so to each inspection. -/
def inspectedHost (inspection : Reply) : Host :=
  .replying fun command =>
    match command with
    | .build _ => .quiet 0 (some "id")
    | .inspect _ => inspection
    | _ => .quiet 0 none

/-- A reply that tells of an image, but no settings of it. -/
def bareReply : Reply := ⟨0, "[\x7b\x7d]", "", none⟩

/-- A reply that there is no image. -/
def denyingReply : Reply := ⟨1, "", "No such image", none⟩

/-- A build of the stock image at such a host. -/
def inspectedBuilt (inspection : Reply) : Except Error Int × World :=
  (Request.build "." none none "out" false false false).perform (inspectedHost inspection) .stocked

theorem check_inspectedBuilt : ∀ inspection ∈ [bareReply, denyingReply],
    (inspectedBuilt inspection).1.toOption = some 0 ∧
    (loadSpec none none (inspectedHost inspection) .stocked).1.toOption = some Spec.standard ∧
    (loadSpec none none (inspectedHost inspection) (inspectedBuilt inspection).2).1.toOption =
      some Spec.standard := by
  decide +kernel

/-- The two requests agree on an image that is told of. -/
theorem build_verify_sameVerdict_bare :
    (inspectedBuilt bareReply).1 = .ok 0 ∧
    SameVerdict (inspectedBuilt bareReply).2
      ((Request.build "." none none "out" false false true).perform (inspectedHost bareReply)
        .stocked)
      (inspectedBuilt bareReply).2
      ((Request.verify Spec.standard.image none).perform (inspectedHost bareReply)
        (inspectedBuilt bareReply).2) := by
  obtain ⟨hzero, hload, hagain⟩ := check_inspectedBuilt bareReply (by simp)
  have hbuilt : (inspectedBuilt bareReply).1 = .ok 0 := eq_ok_of_toOption hzero
  refine ⟨hbuilt, ?_⟩
  have hbuild : (Request.build "." none none "out" false false false).perform
      (inspectedHost bareReply) .stocked = (.ok 0, (inspectedBuilt bareReply).2) :=
    eq_mk_of_fst hbuilt
  obtain ⟨program, -, hiff, -⟩ := build_verify_sameVerdict_iff hbuild
    (eq_ok_of_toOption hload) (eq_ok_of_toOption hagain) (.refl _ _) .literal
  have hread : Json.read bareReply.out = .ok (.arr [.obj []]) := by cbv
  have htold : ¬ bareReply.IsDenial := by
    rintro (hcode | ⟨first, rest, hobject⟩)
    · exact hcode rfl
    · rw [hobject] at hread
      cases hread
  refine hiff.mpr ?_
  rintro (hdenial | ⟨-, hdenial⟩)
  · exact htold hdenial
  · exact htold hdenial

/-- They do not agree on one that is denied: the error escapes from the request that builds, and the
other one exits with one. -/
theorem build_verify_not_sameVerdict :
    (inspectedBuilt denyingReply).1 = .ok 0 ∧
    (loadSpec none none (inspectedHost denyingReply) (inspectedBuilt denyingReply).2).1 =
      .ok Spec.standard ∧
    ¬ SameVerdict (inspectedBuilt denyingReply).2
      ((Request.build "." none none "out" false false true).perform (inspectedHost denyingReply)
        .stocked)
      (inspectedBuilt denyingReply).2
      ((Request.verify Spec.standard.image none).perform (inspectedHost denyingReply)
        (inspectedBuilt denyingReply).2) := by
  obtain ⟨hzero, -, hagain⟩ := check_inspectedBuilt denyingReply (by simp)
  refine ⟨eq_ok_of_toOption hzero, eq_ok_of_toOption hagain, fun hsame => ?_⟩
  have hends : ((Request.build "." none none "out" false false true).perform
        (inspectedHost denyingReply) .stocked).1.toOption = none ∧
      ((Request.verify Spec.standard.image none).perform (inspectedHost denyingReply)
        (inspectedBuilt denyingReply).2).1.toOption = some 1 := by
    decide +kernel
  rw [hsame.ends, hends.2] at hends
  cases hends.1

end Cli

end TwoStage

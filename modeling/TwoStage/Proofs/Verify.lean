import TwoStage.Proofs.Engine.Client
import TwoStage.Proofs.Json.Tame
import TwoStage.Proofs.Pipeline.Outcome
import TwoStage.Proofs.Spec.WellFormed
import TwoStage.Proofs.Text.Occurrence
import TwoStage.Verify

/-!
# What checking an image decides

Each check says one thing to the engine, and what it finds is read off the reply to that alone. The
report is without a failure exactly where every reply meets the condition of its check.

## Main definitions

- `Check.command` — what a check says to the engine
- `Reply.IsListing`, `Reply.settings` — replies to an inspection, and the configuration they tell
- `Reply.configured` — the settings that any reply to an inspection tells, or the error
- `Check.judge` — the finding of a check, from the reply
- `Finding.Judges` — findings that tell what the reply to a check comes to
- `Check.Holds` — the condition of a check on the reply
- `Check.answers` — checks with the replies that they get, one after another

## Main statements

- `Check.perform_called` — a check is one call, and judges the reply
- `Check.perform_configured` — where a check that inspects ends with an error
- `Check.isOk_judge_iff` — the finding is no failure exactly where the condition holds
- `verify_decides` — the calls of all checks, the report, and when it is without a failure
-/

namespace TwoStage

/-- A finding that is no failure: the check passed or was skipped. -/
def Finding.isOk (finding : Finding) : Bool := finding.passed || finding.skipped

-- ════════════════════════════════════════════════════════════════════════
-- Replies to an inspection
-- ════════════════════════════════════════════════════════════════════════

/-- Whether an item of a listing is an object whose configuration, where it has one, is null or an
object. -/
def Json.tellsConfig : Json → Bool
  | .obj members =>
    match members.lookup "Config" with
    | none | some .null | some (.obj _) => true
    | some _ => false
  | _ => false

/-- The configuration that an item of a listing tells, none being an empty one. -/
def Json.config : Json → List (String × Json)
  | .obj members =>
    match members.lookup "Config" with
    | some (.obj settings) => settings
    | _ => []
  | _ => []

/-- A reply that lists images: the engine exits with zero, and its output is an array of objects
whose configurations, where there are any, are null or objects. -/
structure Reply.IsListing (reply : Reply) : Prop where
  code : reply.code = 0
  items : ∃ items, Json.read reply.out = .ok (.arr items) ∧ ∀ item ∈ items, item.tellsConfig = true

/-- How the first image of a listing is configured. -/
def Reply.settings (reply : Reply) : List (String × Json) :=
  match Json.read reply.out with
  | .ok (.arr (item :: _)) => item.config
  | _ => []

/-- A setting of the first image of a listing; where there is none, null. -/
def Reply.setting (reply : Reply) (name : String) : Json :=
  (reply.settings.lookup name).getD .null

/-- What an inspection of an image comes to, from the reply. -/
def Reply.inspected (reply : Reply) (image : String) : Except Error Json :=
  if reply.code ≠ 0 then .error (.imageNotFound image (strip reply.err))
  else ((Json.read reply.out).mapError .notJson).bind fun value =>
    (Client.firstItem value).mapError .shape

/-- The configuration that an inspection tells; what stands for nothing is an empty one. -/
def Reply.told (reply : Reply) (image : String) : Except Error Json :=
  (reply.inspected image).bind fun value =>
    ((Check.member "Config" value).mapError .shape).map fun config =>
      if config.isTruthy then config else .obj []

/-- The settings in it, which a configuration that is no object has none of. -/
def Reply.configured (reply : Reply) (image : String) : Except Error (List (String × Json)) :=
  (reply.told image).bind fun
    | .obj settings => .ok settings
    | _ => .error (.shape .noMembers)

namespace Check

-- ════════════════════════════════════════════════════════════════════════
-- Checks as judgements on replies
-- ════════════════════════════════════════════════════════════════════════

/-- Whether a check looks at the image from outside, without a container. -/
def inspects : Check → Bool
  | entrypoint | user => true
  | _ => false

/-- A program of an image with its arguments. -/
def inContainer (image program : String) (args : List String) : Command :=
  .run { image, args, entrypoint := some program, publish := [], env := [], capture := true }

/-- What a check says to the engine. -/
def command (spec : Spec) (image : String) : Check → Command
  | entrypoint | user => .inspect image
  | uid => inContainer image "id" ["-u"]
  | artifact => inContainer image "test" ["-x", spec.final.entrypoint.path]
  | noToolchain => inContainer image "/bin/sh" ["-c", toolchainScript]
  | systemPaths => inContainer image "/bin/sh" ["-c", writableScript]
  | libraries => inContainer image "ldd" [spec.final.entrypoint.path]

/-- The finding of a check whose script must print nothing. -/
def judgeScript (check : Check) (whenSome whenNone : String) (reply : Reply) : Finding :=
  let found := words reply.out
  finding check (reply.code = 0 && found.isEmpty)
    (if found.isEmpty then whenNone else whenSome ++ joinWith ", " found)

/-- The finding of a check, from the reply to what it says. -/
def judge (spec : Spec) (reply : Reply) : Check → Finding
  | entrypoint =>
    let got := reply.setting "Entrypoint"
    let cmd := reply.setting "Cmd"
    finding entrypoint (isSingleText spec.final.entrypoint.path got && !cmd.isTruthy)
      ("entrypoint=" ++ got.plain ++ " cmd=" ++ cmd.plain)
  | user =>
    let got := reply.setting "User"
    let got := if got.isTruthy then got else .str ""
    let passed := match got with
      | .str name => name = spec.final.identity.name
      | _ => false
    finding user passed ("configured user=" ++ got.shown)
  | uid =>
    let number := strip reply.out
    finding uid (reply.code = 0 && isAllDigits number && number ≠ "0")
      ("uid=" ++ if number.isEmpty then strip reply.err else number)
  | artifact => finding artifact (reply.code = 0) spec.final.entrypoint.path
  | noToolchain => judgeScript noToolchain "found: " "none found" reply
  | systemPaths => judgeScript systemPaths "writable: " "read-only for runtime user" reply
  | libraries =>
    if reply.code = 126 || reply.code = 127 then
      ⟨libraries.name, false, true, "ldd unavailable"⟩
    else
      let missing := ((splitLines (reply.out ++ reply.err)).filter tellsMissing).map strip
      let detail := joinWith "; " missing
      finding libraries (reply.code = 0 && missing.isEmpty)
        (if detail.isEmpty then "all resolved" else detail)

/-- The condition of a check on the reply to what it says. -/
def Holds (spec : Spec) (reply : Reply) : Check → Prop
  | entrypoint =>
    reply.settings.lookup "Entrypoint" = some (.arr [.str spec.final.entrypoint.path]) ∧
      ∀ cmd, reply.settings.lookup "Cmd" = some cmd → cmd.isTruthy = false
  | user => reply.settings.lookup "User" = some (.str spec.final.identity.name)
  | uid =>
    reply.code = 0 ∧ strip reply.out ≠ "" ∧ (∀ c ∈ (strip reply.out).toList, isDigit c = true) ∧
      strip reply.out ≠ "0"
  | artifact => reply.code = 0
  | noToolchain | systemPaths => reply.code = 0 ∧ Blank reply.out
  | libraries =>
    (reply.code = 126 ∨ reply.code = 127) ∨
      reply.code = 0 ∧ ∀ line ∈ splitLines (reply.out ++ reply.err),
        ¬ "not found".toList <:+: line.toList ∧ ¬ "Error".toList <:+: line.toList

end Check

/-- A finding that tells what a reply comes to: whether the check passed or was skipped, and why. In
the output of an inspection, a half of a character may stand alone; then the details can be other
ones, each reader having its own way to show such a half. -/
structure Finding.Judges (spec : Spec) (answer : Check × Reply) (finding : Finding) : Prop where
  name : finding.name = answer.1.name
  passed : finding.passed = (answer.1.judge spec answer.2).passed
  skipped : finding.skipped = (answer.1.judge spec answer.2).skipped
  detail : (answer.1.inspects = true → Json.pairsHalves false answer.2.out.toList = true) →
    finding.detail = (answer.1.judge spec answer.2).detail

namespace Check

variable {spec : Spec} {client : Client} {host : Host} {program : String}

-- ════════════════════════════════════════════════════════════════════════
-- One check
-- ════════════════════════════════════════════════════════════════════════

/-- What counts as the configuration of an item is the object that it tells. -/
theorem member_config {item : Json} (h : item.tellsConfig = true) :
    ∃ value, member "Config" item = .ok value ∧
      (if value.isTruthy then value else .obj []) = .obj item.config := by
  cases item with
  | obj members =>
    refine ⟨_, rfl, ?_⟩
    dsimp only [Json.tellsConfig] at h
    dsimp only [Json.config]
    cases hlookup : members.lookup "Config" with
    | none => rfl
    | some config =>
      rw [hlookup] at h
      cases config with
      | null => rfl
      | obj settings => cases settings <;> rfl
      | _ => cases h
  | _ => cases h

theorem told_of_listing {reply : Reply} (h : reply.IsListing) (image : String) :
    reply.told image = .ok (.obj reply.settings) := by
  obtain ⟨hcode, items, hread, htells⟩ := h
  rw [Reply.told, Reply.inspected, if_neg (not_not_intro hcode), hread, Reply.settings, hread]
  cases items with
  | nil => rfl
  | cons item rest =>
    obtain ⟨value, hmember, hvalue⟩ := member_config (htells item List.mem_cons_self)
    change ((member "Config" item).mapError Error.shape).map _ = _
    rw [hmember]
    exact congrArg Except.ok hvalue

/-- A check can be asked for exactly if the program and the name of the image are words, the path
that the specification has for it being one. -/
theorem isSayable_command_iff (hpath : isWord spec.final.entrypoint.path = true) (check : Check)
    (image : String) :
    (check.command spec image).isSayable program = true ↔
      ∀ text ∈ [program, image], isWord text = true := by
  have hscripts : isWord toolchainScript = true ∧ isWord writableScript = true := by decide +kernel
  have hwords : ∀ text ∈ ["id", "-u", "test", "-x", "/bin/sh", "-c", "ldd"],
      isWord text = true := by decide
  simp only [List.forall_mem_cons] at hwords
  rw [isSayable_iff_texts]
  cases check <;> simp [command, inContainer, Command.texts, hpath, hscripts, hwords]

/-- Looking for the configuration of an image is one call, and comes to what the reply tells. -/
theorem imageConfig_told (h : host.engine.find? client.program = some program)
    {image : String} (hsay : (Command.inspect image).isSayable program = true) (w : World) :
    ∃ w', imageConfig client image host w =
        ((host.engine.reply w.calls ⟨program, .inspect image, w.files⟩).told image, w') ∧
      w.Called w' ⟨program, .inspect image, w.files⟩ := by
  obtain ⟨w₁, hinspect, hcalled⟩ := Client.inspect_called h hsay w
  refine ⟨w₁, ?_, hcalled⟩
  generalize host.engine.reply w.calls ⟨program, .inspect image, w.files⟩ = reply at hinspect ⊢
  change client.inspect image host w = (reply.inspected image, w₁) at hinspect
  rw [Reply.told]
  cases hinspected : reply.inspected image with
  | error e =>
    rw [hinspected] at hinspect
    exact Act.bind_of_error hinspect
  | ok value =>
    rw [hinspected] at hinspect
    refine (Act.bind_of_ok hinspect).trans ?_
    rw [Except.bind]
    cases member "Config" value <;> rfl

theorem imageConfig_of_listing (h : host.engine.find? client.program = some program)
    {image : String} (hsay : (Command.inspect image).isSayable program = true) (w : World)
    (hlisting : (host.engine.reply w.calls ⟨program, .inspect image, w.files⟩).IsListing) :
    ∃ w', imageConfig client image host w =
        (.ok (.obj (host.engine.reply w.calls ⟨program, .inspect image, w.files⟩).settings), w') ∧
      w.Called w' ⟨program, .inspect image, w.files⟩ := by
  obtain ⟨w₁, hconfig, hcalled⟩ := imageConfig_told h hsay w
  rw [told_of_listing hlisting] at hconfig
  exact ⟨w₁, hconfig, hcalled⟩

theorem runIn_called (h : host.engine.find? client.program = some program)
    {image name : String} {args : List String}
    (hsay : (inContainer image name args).isSayable program = true) (w : World) :
    ∃ w', let call : Call := ⟨program, inContainer image name args, w.files⟩
      let reply := host.engine.reply w.calls call
      runIn client image name args host w =
          (.ok ⟨reply.code, some reply.out, some reply.err⟩, w') ∧
        w.Called w' call :=
  Client.run_called h hsay w

/-- A check is one call, and judges the reply. An inspection must list images for that. -/
theorem perform_called (h : host.engine.find? client.program = some program) {spec : Spec}
    {check : Check} {image : String} (hsay : (check.command spec image).isSayable program = true)
    (w : World)
    (hlisting : check.inspects = true →
      (host.engine.reply w.calls ⟨program, check.command spec image, w.files⟩).IsListing) :
    ∃ w', check.perform spec client image host w =
        (.ok (check.judge spec
          (host.engine.reply w.calls ⟨program, check.command spec image, w.files⟩)), w') ∧
      w.Called w' ⟨program, check.command spec image, w.files⟩ := by
  cases check with
  | entrypoint | user =>
    obtain ⟨w₁, hconfig, hcalled⟩ := imageConfig_of_listing h hsay w (hlisting rfl)
    exact ⟨w₁, (Act.bind_of_ok hconfig).trans rfl, hcalled⟩
  | uid | artifact | noToolchain | systemPaths =>
    obtain ⟨w₁, hrun, hcalled⟩ := runIn_called h hsay w
    exact ⟨w₁, (Act.bind_of_ok hrun).trans rfl, hcalled⟩
  | libraries =>
    obtain ⟨w₁, hrun, hcalled⟩ := runIn_called h hsay w
    refine ⟨w₁, ?_, hcalled⟩
    rw [perform, performLibraries, Act.bind_of_ok hrun]
    dsimp only [command, judge]
    generalize host.engine.reply w.calls
      ⟨program, inContainer image "ldd" [spec.final.entrypoint.path], w.files⟩ = reply
    by_cases hunavailable : (reply.code = 126 || reply.code = 127) = true
    · rw [if_pos hunavailable, if_pos hunavailable]
      rfl
    · rw [if_neg hunavailable, if_neg hunavailable]
      rfl

/-- A check that cannot be asked for comes to no finding, and nothing is said. -/
theorem perform_of_unsayable (h : host.engine.find? client.program = some program) {spec : Spec}
    {check : Check} {image : String} (hsay : (check.command spec image).isSayable program = false)
    (w : World) :
    ∃ w', check.perform spec client image host w = (.error (.file .nullByte), w') ∧
      host.Spoke w w' [] := by
  cases check with
  | entrypoint | user =>
    refine ⟨w, ?_, .refl rfl rfl⟩
    exact Act.bind_of_error (Act.bind_of_error (Client.inspect_of_unsayable h hsay w))
  | _ =>
    obtain ⟨w₁, hrun, hs⟩ := Client.run_of_unsayable h hsay w
    exact ⟨w₁, Act.bind_of_error hrun, hs⟩

-- ════════════════════════════════════════════════════════════════════════
-- When a finding is no failure
-- ════════════════════════════════════════════════════════════════════════

theorem isSingleText_iff {s : String} {value : Json} :
    isSingleText s value = true ↔ value = .arr [.str s] := by
  fun_cases isSingleText s value with
  | case1 t => simp
  | case2 value hother =>
    refine iff_of_false Bool.false_ne_true ?_
    rintro rfl
    exact hother s rfl

/-- A setting that is not null is one that is told. -/
theorem setting_eq_iff {reply : Reply} {name : String} {value : Json} (hvalue : value ≠ .null) :
    reply.setting name = value ↔ reply.settings.lookup name = some value := by
  rw [Reply.setting]
  cases reply.settings.lookup name with
  | none => simp [hvalue.symm]
  | some other => simp

/-- A setting stands for nothing where it is not told, or where what is told stands for nothing. -/
theorem isTruthy_setting_iff {reply : Reply} {name : String} :
    (reply.setting name).isTruthy = false ↔
      ∀ value, reply.settings.lookup name = some value → value.isTruthy = false := by
  rw [Reply.setting]
  cases reply.settings.lookup name with
  | none => simp [Json.isTruthy]
  | some value => simp

theorem tellsMissing_eq_false_iff {line : String} :
    tellsMissing line = false ↔
      ¬ "not found".toList <:+: line.toList ∧ ¬ "Error".toList <:+: line.toList := by
  rw [tellsMissing, Bool.or_eq_false_iff, ← contains_iff, ← contains_iff, Bool.not_eq_true,
    Bool.not_eq_true]

theorem name_judge (spec : Spec) (reply : Reply) (check : Check) :
    (check.judge spec reply).name = check.name := by
  cases check with
  | libraries =>
    rw [judge]
    split <;> rfl
  | _ => rfl

theorem isOk_judgeScript_iff (check : Check) (whenSome whenNone : String) (reply : Reply) :
    (judgeScript check whenSome whenNone reply).isOk = true ↔ reply.code = 0 ∧ Blank reply.out := by
  simp [judgeScript, finding, Finding.isOk, words_eq_nil_iff]

/-- The finding of a check is no failure exactly where the condition of the check holds. -/
theorem isOk_judge_iff (hname : spec.final.identity.name ≠ "") (reply : Reply) (check : Check) :
    (check.judge spec reply).isOk = true ↔ check.Holds spec reply := by
  cases check with
  | entrypoint =>
    have hset : reply.setting "Entrypoint" = .arr [.str spec.final.entrypoint.path] ↔ _ :=
      setting_eq_iff (by simp)
    simp [judge, Holds, finding, Finding.isOk, isSingleText_iff, hset, isTruthy_setting_iff]
  | user =>
    have hset : reply.setting "User" = .str spec.final.identity.name ↔ _ :=
      setting_eq_iff (by simp)
    rw [judge, Holds, ← hset]
    -- a text that stands for nothing is empty, and the name is not
    cases hgot : reply.setting "User" with
    | str name =>
      by_cases hempty : name = ""
      · simp [finding, Finding.isOk, Json.isTruthy, hempty, hname.symm]
      · simp [finding, Finding.isOk, Json.isTruthy, hempty]
    | _ => split_ifs <;> simp [finding, Finding.isOk, hname.symm]
  | uid => simp [judge, Holds, finding, Finding.isOk, isAllDigits, and_assoc]
  | artifact => simp [judge, Holds, finding, Finding.isOk]
  | noToolchain => exact isOk_judgeScript_iff ..
  | systemPaths => exact isOk_judgeScript_iff ..
  | libraries =>
    rw [judge, Holds]
    by_cases hunavailable : (reply.code = 126 || reply.code = 127) = true
    · rw [if_pos hunavailable]
      rw [Bool.or_eq_true, decide_eq_true_eq, decide_eq_true_eq] at hunavailable
      exact iff_of_true rfl (Or.inl hunavailable)
    · rw [if_neg hunavailable]
      rw [Bool.or_eq_true, decide_eq_true_eq, decide_eq_true_eq] at hunavailable
      rw [or_iff_right hunavailable]
      simp only [finding, Finding.isOk, Bool.or_false, Bool.and_eq_true, decide_eq_true_eq,
        List.isEmpty_iff, List.map_eq_nil_iff, List.filter_eq_nil_iff, Bool.not_eq_true,
        tellsMissing_eq_false_iff]

-- ════════════════════════════════════════════════════════════════════════
-- One check after another
-- ════════════════════════════════════════════════════════════════════════

/-- Some checks with the replies that they get one after another, after the calls `before`. -/
def answers (engine : Engine) (program : String) (spec : Spec) (image : String) (files : FileTree)
    (before : List Call) : List Check → List (Check × Reply)
  | [] => []
  | check :: rest =>
    let call : Call := ⟨program, check.command spec image, files⟩
    (check, engine.reply before call) ::
      answers engine program spec image files (before ++ [call]) rest

theorem performAll_of_ok {check : Check} {image : String} {finding : Finding} {rest : List Check}
    {findings : List Finding} {w w₁ w' : World}
    (hfirst : check.perform spec client image host w = (.ok finding, w₁))
    (h : performAll spec client image rest host w₁ = (.ok findings, w')) :
    performAll spec client image (check :: rest) host w = (.ok (finding :: findings), w') :=
  (Act.bind_of_ok hfirst).trans (Act.bind_of_ok h)

/-- The first check that ends with an error is the last one. -/
theorem performAll_of_error {check : Check} {image : String} {fault : Error} {w w' : World}
    (h : check.perform spec client image host w = (.error fault, w')) (rest : List Check) :
    performAll spec client image (check :: rest) host w = (.error fault, w') :=
  Act.bind_of_error h

theorem performAll_of_later {check : Check} {image : String} {finding : Finding} {fault : Error}
    {rest : List Check} {w w₁ w' : World}
    (hfirst : check.perform spec client image host w = (.ok finding, w₁))
    (h : performAll spec client image rest host w₁ = (.error fault, w')) :
    performAll spec client image (check :: rest) host w = (.error fault, w') :=
  (Act.bind_of_ok hfirst).trans (Act.bind_of_error h)

/-- Where all inspections list images, each check is judged by the reply that it gets. -/
theorem performAll_called (h : host.engine.find? client.program = some program)
    {image : String} {checks : List Check}
    (hsay : ∀ check ∈ checks, (check.command spec image).isSayable program = true) (w : World)
    (hlisting : ∀ answer ∈ answers host.engine program spec image w.files w.calls checks,
      answer.1.inspects = true → answer.2.IsListing) :
    ∃ w', performAll spec client image checks host w =
        (.ok ((answers host.engine program spec image w.files w.calls checks).map
          fun answer => answer.1.judge spec answer.2), w') ∧
      w'.files = w.files ∧
      w'.calls = w.calls ++ checks.map fun check => ⟨program, check.command spec image, w.files⟩ := by
  induction checks generalizing w with
  | nil => exact ⟨w, rfl, rfl, by rw [List.map_nil, List.append_nil]⟩
  | cons check rest ih =>
    rw [answers, List.forall_mem_cons] at hlisting
    rw [List.forall_mem_cons] at hsay
    obtain ⟨w₁, hfirst, hcalled⟩ := perform_called h hsay.1 w hlisting.1
    have hrest := ih hsay.2 w₁
    rw [hcalled.files, hcalled.calls] at hrest
    obtain ⟨w₂, hothers, hfiles, hcalls⟩ := hrest hlisting.2
    refine ⟨w₂, performAll_of_ok hfirst hothers, hfiles, ?_⟩
    rw [hcalls, List.append_assoc, List.map_cons, List.singleton_append]

/-- A check that inspects ends with an error where the reply tells no settings, and else with a
finding. -/
theorem perform_configured (h : host.engine.find? client.program = some program) (spec : Spec)
    {check : Check} (hinspects : check.inspects = true) {image : String}
    (hsay : (Command.inspect image).isSayable program = true) (w : World) :
    let reply := host.engine.reply w.calls ⟨program, .inspect image, w.files⟩
    ∃ w', w.Called w' ⟨program, .inspect image, w.files⟩ ∧
      ((∃ e, reply.configured image = .error e ∧
          check.perform spec client image host w = (.error e, w')) ∨
        ∃ settings finding, reply.configured image = .ok settings ∧
          check.perform spec client image host w = (.ok finding, w')) := by
  intro reply
  obtain ⟨w₁, hconfig, hcalled⟩ := imageConfig_told h hsay w
  refine ⟨w₁, hcalled, ?_⟩
  rw [Reply.configured]
  change imageConfig client image host w = (reply.told image, w₁) at hconfig
  cases htold : reply.told image with
  | error e =>
    rw [htold] at hconfig
    refine Or.inl ⟨e, rfl, ?_⟩
    cases check with
    | entrypoint | user => exact Act.bind_of_error hconfig
    | _ => cases hinspects
  | ok config =>
    rw [htold] at hconfig
    cases check with
    | entrypoint =>
      rw [perform, performEntrypoint, Act.bind_of_ok hconfig]
      cases config with
      | obj settings => exact Or.inr ⟨_, _, rfl, rfl⟩
      | _ => exact Or.inl ⟨_, rfl, rfl⟩
    | user =>
      rw [perform, performUser, Act.bind_of_ok hconfig]
      cases config with
      | obj settings => exact Or.inr ⟨_, _, rfl, rfl⟩
      | _ => exact Or.inl ⟨_, rfl, rfl⟩
    | _ => cases hinspects

/-- A check that inspects fails where the engine knows no such image. -/
theorem perform_of_failure (h : host.engine.find? client.program = some program) (spec : Spec)
    {check : Check} (hinspects : check.inspects = true) {image : String}
    (hsay : (Command.inspect image).isSayable program = true) (w : World)
    (hcode : (host.engine.reply w.calls ⟨program, .inspect image, w.files⟩).code ≠ 0) :
    ∃ w', check.perform spec client image host w =
        (.error (.imageNotFound image
          (strip (host.engine.reply w.calls ⟨program, .inspect image, w.files⟩).err)), w') ∧
      w.Called w' ⟨program, .inspect image, w.files⟩ := by
  obtain ⟨w₁, hcalled, hends⟩ := perform_configured h spec hinspects hsay w
  have hfails : (host.engine.reply w.calls ⟨program, .inspect image, w.files⟩).configured image =
      .error (.imageNotFound image
        (strip (host.engine.reply w.calls ⟨program, .inspect image, w.files⟩).err)) := by
    rw [Reply.configured, Reply.told, Reply.inspected, if_pos hcode]
    rfl
  rw [hfails] at hends
  rcases hends with ⟨e, heq, hperform⟩ | ⟨settings, finding, heq, -⟩
  · cases heq
    exact ⟨w₁, hperform, hcalled⟩
  · cases heq

end Check

theorem verify_of_error {spec : Spec} {client : Client} {host : Host} {image : String}
    {fault : Error} {w w' : World}
    (h : Check.performAll spec client image Check.all host w = (.error fault, w')) :
    verify spec client image host w = (.error fault, w') :=
  Act.bind_of_error h

/-- The user that the image of an accepted specification must run as has a name. -/
theorem Spec.Accepted.identityName_ne_empty {spec : Spec} (h : spec.Accepted) :
    spec.final.identity.name ≠ "" := by
  have hname := h.wellFormed.final.identity.name
  intro hempty
  rw [hempty] at hname
  exact absurd hname (by decide)

/-- The path of the program of an accepted specification is a word. -/
theorem Spec.Accepted.isWord_entrypoint {spec : Spec} (h : spec.Accepted) :
    isWord spec.final.entrypoint.path = true :=
  isWord_iff.mpr ((PlainText.of_isPlainPath h.wellFormed.final.entrypoint).not_mem rfl (by decide))

/-- Checking an image says nothing where the program or the name of the image holds a null
character, and fails. Otherwise it fails with the first call where the engine does not know the
image, and with the second one where it does not know it any more. Where both inspections list
images, seven calls are made, each finding tells what the reply to its own call comes to, and the
report is without a failure exactly where each reply meets the condition of its check. -/
theorem verify_decides {spec : Spec} {client : Client} {host : Host} {program : String}
    (hspec : spec.Accepted) (hfound : host.engine.find? client.program = some program)
    (image : String) (w : World) :
    let inspection : Call := ⟨program, .inspect image, w.files⟩
    let first := host.engine.reply w.calls inspection
    let second := host.engine.reply (w.calls ++ [inspection]) inspection
    ((¬ ∀ text ∈ [program, image], isWord text = true) →
      verify spec client image host w = (.error (.file .nullByte), w)) ∧
    ((∀ text ∈ [program, image], isWord text = true) →
      (first.code ≠ 0 →
        ∃ w', verify spec client image host w =
            (.error (.imageNotFound image (strip first.err)), w') ∧
          w.Called w' inspection) ∧
      (first.IsListing → second.code ≠ 0 →
        ∃ w', verify spec client image host w =
            (.error (.imageNotFound image (strip second.err)), w') ∧
          w'.files = w.files ∧ w'.calls = w.calls ++ [inspection, inspection]) ∧
      (first.IsListing → second.IsListing →
        let answers := Check.answers host.engine program spec image w.files w.calls Check.all
        ∃ report w', verify spec client image host w = (.ok report, w') ∧
          w'.files = w.files ∧
          w'.calls = w.calls ++
            Check.all.map (fun check => ⟨program, check.command spec image, w.files⟩) ∧
          report.image = image ∧
          List.Forall₂ (fun answer finding => finding.Judges spec answer) answers report.checks ∧
          report.checks.map Finding.name = ["entrypoint", "user", "uid", "artifact",
            "no-toolchain", "system-paths", "libraries"] ∧
          (report.isOk = true ↔ ∀ answer ∈ answers, answer.1.Holds spec answer.2))) := by
  intro inspection first second
  have hasked := fun check =>
    @Check.isSayable_command_iff spec program hspec.isWord_entrypoint check image
  refine ⟨fun hnull => ?_, fun hwords => ⟨fun hcode => ?_, fun hlisting hcode => ?_,
    fun hlisting hlisting' => ?_⟩⟩
  · have hsay : (Command.inspect image).isSayable program = false :=
      Bool.eq_false_iff.mpr fun hsay => hnull ((hasked .entrypoint).mp hsay)
    have hperform : Check.entrypoint.perform spec client image host w =
        (.error (.file .nullByte), w) :=
      Act.bind_of_error (Act.bind_of_error (Client.inspect_of_unsayable hfound hsay w))
    exact verify_of_error (Check.performAll_of_error hperform _)
  · obtain ⟨w₁, hperform, hcalled⟩ :=
      Check.perform_of_failure hfound spec (show Check.entrypoint.inspects = true from rfl)
        ((hasked .entrypoint).mpr hwords) w hcode
    exact ⟨w₁, verify_of_error (Check.performAll_of_error hperform _), hcalled⟩
  · obtain ⟨w₁, hfirst, hcalled⟩ :=
      Check.perform_called hfound ((hasked .entrypoint).mpr hwords) w fun _ => hlisting
    have hsecond := Check.perform_of_failure hfound spec
      (show Check.user.inspects = true from rfl) ((hasked .user).mpr hwords) w₁
    rw [hcalled.files, hcalled.calls] at hsecond
    obtain ⟨w₂, hperform, hcalled'⟩ := hsecond hcode
    refine ⟨w₂, verify_of_error (Check.performAll_of_later hfirst
      (Check.performAll_of_error hperform _)), hcalled'.files.trans hcalled.files, ?_⟩
    rw [hcalled'.calls, hcalled.calls, List.append_assoc]
    rfl
  · intro answers
    have hall : ∀ answer ∈ answers, answer.1.inspects = true → answer.2.IsListing := by
      simp only [answers, Check.all, Check.answers, List.forall_mem_cons]
      exact ⟨fun _ => hlisting, fun _ => hlisting', nofun, nofun, nofun, nofun, nofun, nofun⟩
    obtain ⟨w₁, hperform, hfiles, hcalls⟩ :=
      Check.performAll_called hfound (fun check _ => (hasked check).mpr hwords) w hall
    refine ⟨⟨image, answers.map fun answer => answer.1.judge spec answer.2⟩, w₁, ?_, hfiles,
      hcalls, rfl, ?_, ?_, ?_⟩
    · rw [verify, Act.bind_of_ok hperform]
      rfl
    · rw [List.forall₂_map_right_iff, List.forall₂_same]
      exact fun answer _ => ⟨Check.name_judge .., rfl, rfl, fun _ => rfl⟩
    · simp only [answers, Check.all, Check.answers, List.map_cons, List.map_nil,
        Check.name_judge, Check.name]
    · rw [Report.isOk, List.all_map, List.all_eq_true]
      exact forall₂_congr fun answer _ =>
        Check.isOk_judge_iff hspec.identityName_ne_empty answer.2 answer.1

/-- A host whose engine has the stock image, with a user of number 1000, and with a program that
needs no libraries. -/
def hardenedHost : Host :=
  .replying fun command =>
    match command with
    | .inspect _ =>
      ⟨0, "[\x7b\"Config\": \x7b\"Entrypoint\": [\"/usr/local/bin/refact-lsp\"], \"Cmd\": [], " ++
        "\"User\": \"lspuser\"\x7d\x7d]", "", none⟩
    | .run command =>
      if command.entrypoint = some "id" then ⟨0, "1000\n", "", none⟩
      else if command.entrypoint = some "ldd" then
        ⟨0, "statically linked\n", "", none⟩
      else .quiet 0 none
    | _ => .quiet 0 none

theorem Reply.isListing_of_check {reply : Reply} (hcode : reply.code = 0)
    (h : (match Json.read reply.out with
      | .ok (.arr items) => items.all Json.tellsConfig
      | _ => false) = true) : reply.IsListing := by
  split at h
  · next items hread => exact ⟨hcode, items, hread, List.all_eq_true.mp h⟩
  · cases h

/-- The checks of the stock image: seven calls, and no failure. -/
theorem verify_decides_hardened :
    Spec.standard.Accepted ∧ hardenedHost.engine.find? "docker" = some "docker" ∧
      (hardenedHost.engine.reply [] ⟨"docker", .inspect "tag", World.stocked.files⟩).IsListing ∧
      ∃ report w', verify Spec.standard ⟨"docker"⟩ "tag" hardenedHost .stocked =
          (.ok report, w') ∧
        w'.calls.length = 7 ∧ report.isOk = true := by
  have hlisting : (hardenedHost.engine.reply []
      ⟨"docker", .inspect "tag", World.stocked.files⟩).IsListing :=
    Reply.isListing_of_check rfl (by decide +kernel)
  refine ⟨Spec.accepted_standard, rfl, hlisting, ?_⟩
  have hfound : hardenedHost.engine.find? (⟨"docker"⟩ : Client).program = some "docker" := rfl
  obtain ⟨report, w', hverify, -, hcalls, -, -, -, hisOk⟩ :=
    ((verify_decides Spec.accepted_standard hfound "tag" .stocked).2 (by decide)).2.2 hlisting
      hlisting
  have hjudged : ∀ answer ∈ Check.answers hardenedHost.engine "docker" Spec.standard "tag"
      World.stocked.files [] Check.all,
      (answer.1.judge Spec.standard answer.2).isOk = true := by
    decide +kernel
  refine ⟨report, w', hverify, by rw [hcalls]; rfl, hisOk.mpr fun answer hmem => ?_⟩
  exact (Check.isOk_judge_iff Spec.accepted_standard.identityName_ne_empty answer.2 answer.1).mp
    (hjudged answer hmem)

end TwoStage

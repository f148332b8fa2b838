import TwoStage.Proofs.Text.Decimal
import TwoStage.Proofs.Verify

/-!
# The number of the user

A report tells that a check passed where its finding says so. The finding of a check that runs a
container is read off the reply to its own call, the checks before it having made one call each. The
check of the user's number compares texts: digits other than the text `0` pass. So root stays out
where the engine prints numbers as they are written, and gets by with zeros in any other spelling.

## Main definitions

- `Report.passes` — a check passed
- `Finding.Answers` — what a finding says of a reply
- `CountsAsNonroot` — texts that count for the number of a user who is not root
- `HidesRoot` — texts among these that denote no number but zero

## Main statements

- `Check.performAll_answered` — findings answer the replies, one by one
- `verify_passes_iff` — when a check that runs a container passed
- `verify_nonroot_iff` — when a pass of the user's number means that it is not zero
-/

namespace TwoStage

/-- Whether a report tells that a check passed. -/
def Report.passes (report : Report) (check : Check) : Bool :=
  report.checks.any fun finding => finding.name = check.name && finding.passed

/-- A finding of a check: its name is that of the check, and it is the judgement on the reply if the
check runs a container. -/
structure Finding.Answers (spec : Spec) (answer : Check × Reply) (finding : Finding) : Prop where
  name : finding.name = answer.1.name
  judged : answer.1.inspects = false → finding = answer.1.judge spec answer.2

namespace Check

variable {spec : Spec} {client : Client} {host : Host} {program image : String} {w w' : World}

-- ════════════════════════════════════════════════════════════════════════
-- Findings and replies
-- ════════════════════════════════════════════════════════════════════════

theorem name_injective {check other : Check} (h : check.name = other.name) : check = other := by
  cases check <;> cases other <;> first | rfl | exact absurd h (by decide)

/-- Without the engine, no check comes to a finding. -/
theorem perform_of_missing (h : host.engine.find? client.program = none) (check : Check) :
    ∃ e, check.perform spec client image host w = (.error e, w) := by
  have hinspect : imageConfig client image host w = (.error (.engineNotFound client.program), w) :=
    Act.bind_of_error (Client.inspect_of_missing h image w)
  cases check with
  | entrypoint | user => exact ⟨_, Act.bind_of_error hinspect⟩
  | _ => exact ⟨_, Act.bind_of_error (Client.run_of_missing h _ w)⟩

/-- A finding of a check that inspects has the name of the check. -/
theorem name_of_perform {check : Check} (hinspects : check.inspects = true) {finding : Finding}
    (h : check.perform spec client image host w = (.ok finding, w')) :
    finding.name = check.name := by
  cases check with
  | entrypoint =>
    obtain ⟨config, w₁, -, h⟩ := Act.bind_eq_ok h
    obtain ⟨got, w₂, -, h⟩ := Act.bind_eq_ok h
    obtain ⟨cmd, w₃, -, h⟩ := Act.bind_eq_ok h
    cases h
    rfl
  | user =>
    obtain ⟨config, w₁, -, h⟩ := Act.bind_eq_ok h
    obtain ⟨got, w₂, -, h⟩ := Act.bind_eq_ok h
    cases h
    rfl
  | _ => cases hinspects

/-- A check that comes to a finding is one call, and the finding answers the reply. -/
theorem perform_answered (hfound : host.engine.find? client.program = some program)
    {check : Check} {finding : Finding}
    (h : check.perform spec client image host w = (.ok finding, w')) :
    let call : Call := ⟨program, check.command spec image, w.files⟩
    w.Called w' call ∧ finding.Answers spec (check, host.engine.reply w.calls call) := by
  have hsay : (check.command spec image).isSayable program = true := by
    by_contra hnot
    obtain ⟨w₁, hfails, -⟩ := perform_of_unsayable hfound (Bool.eq_false_iff.mpr hnot) w
    cases h.symm.trans hfails
  cases hinspects : check.inspects with
  | false =>
    obtain ⟨w₁, hperform, hcalled⟩ := perform_called hfound hsay w
      fun hdoes => absurd (hinspects.symm.trans hdoes) Bool.false_ne_true
    cases h.symm.trans hperform
    exact ⟨hcalled, name_judge .., fun _ => rfl⟩
  | true =>
    have hcommand : check.command spec image = .inspect image := by
      cases check <;> first | rfl | cases hinspects
    rw [hcommand] at hsay ⊢
    obtain ⟨w₁, hcalled, ⟨e, -, hfails⟩ | ⟨settings, found, -, hperform⟩⟩ :=
      perform_configured hfound spec hinspects hsay w
    · cases h.symm.trans hfails
    · cases h.symm.trans hperform
      exact ⟨hcalled, name_of_perform hinspects h,
        fun hnot => absurd (hnot.symm.trans hinspects) Bool.false_ne_true⟩

/-- Checks that come to findings make a call each, and the findings answer the replies one by
one. -/
theorem performAll_answered (hfound : host.engine.find? client.program = some program)
    {checks : List Check} {findings : List Finding}
    (h : performAll spec client image checks host w = (.ok findings, w')) :
    w'.calls = w.calls ++ checks.map (fun check => ⟨program, check.command spec image, w.files⟩) ∧
      List.Forall₂ (Finding.Answers spec)
        (answers host.engine program spec image w.files w.calls checks) findings := by
  induction checks generalizing w findings with
  | nil =>
    cases h
    exact ⟨by rw [List.map_nil, List.append_nil], .nil⟩
  | cons check rest ih =>
    obtain ⟨first, w₁, hfirst, h⟩ := Act.bind_eq_ok h
    obtain ⟨others, w₂, hothers, h⟩ := Act.bind_eq_ok h
    cases h
    obtain ⟨hcalled, hanswers⟩ := perform_answered hfound hfirst
    obtain ⟨hcalls, hrest⟩ := ih hothers
    rw [hcalled.files, hcalled.calls] at hcalls hrest
    exact ⟨by rw [hcalls, List.append_assoc]; rfl, .cons hanswers hrest⟩

theorem names_of_answers {answers : List (Check × Reply)} {findings : List Finding}
    (h : List.Forall₂ (Finding.Answers spec) answers findings) :
    findings.map Finding.name = (answers.map Prod.fst).map name := by
  induction h with
  | nil => rfl
  | cons hanswers _ ih => simp only [List.map_cons, hanswers.name, ih]

/-- Among findings that answer replies to different checks, a check that runs a container passed
exactly where its judgement says so. -/
theorem any_passed_of_answers {answers : List (Check × Reply)} {findings : List Finding}
    (h : List.Forall₂ (Finding.Answers spec) answers findings)
    (hdistinct : (answers.map Prod.fst).Nodup) {check : Check} {reply : Reply}
    (hmem : (check, reply) ∈ answers) (hcontainer : check.inspects = false) :
    (findings.any fun finding => finding.name = check.name && finding.passed) =
      (check.judge spec reply).passed := by
  induction h with
  | nil => cases hmem
  | @cons answer finding answers findings hanswers hrest ih =>
    rw [List.map_cons, List.nodup_cons] at hdistinct
    rw [List.any_cons]
    rcases List.mem_cons.mp hmem with rfl | hmem
    · have hothers : check.name ∉ findings.map Finding.name := by
        rw [names_of_answers hrest, List.mem_map]
        rintro ⟨other, hother, hname⟩
        exact hdistinct.1 (name_injective hname ▸ hother)
      have hnone : (findings.any fun finding => finding.name = check.name && finding.passed) =
          false := by
        refine List.any_eq_false.mpr fun other hother hpassed => hothers ?_
        rw [Bool.and_eq_true, decide_eq_true_eq] at hpassed
        exact hpassed.1 ▸ List.mem_map_of_mem hother
      rw [hnone, hanswers.judged hcontainer, name_judge, decide_eq_true rfl, Bool.true_and,
        Bool.or_false]
    · have hother : finding.name ≠ check.name := by
        rw [hanswers.name]
        intro hname
        exact hdistinct.1 (name_injective hname ▸ List.mem_map_of_mem hmem)
      rw [decide_eq_false hother, Bool.false_and, Bool.false_or]
      exact ih hdistinct.2 hmem

theorem map_fst_answers (engine : Engine) (program : String) (spec : Spec) (image : String)
    (files : FileTree) (before : List Call) (checks : List Check) :
    (answers engine program spec image files before checks).map Prod.fst = checks := by
  induction checks generalizing before with
  | nil => rfl
  | cons check rest ih => rw [answers, List.map_cons, ih]

end Check

section

variable {spec : Spec} {client : Client} {host : Host} {image : String} {w w' : World}
  {report : Report}

/-- A report comes from an engine that was found, and from a call of each check. A check that runs a
container passed exactly where its judgement on the reply says so. -/
theorem verify_passes_iff (h : verify spec client image host w = (.ok report, w')) :
    ∃ program, host.engine.find? client.program = some program ∧
      w'.calls = w.calls ++
        Check.all.map (fun check => ⟨program, check.command spec image, w.files⟩) ∧
      ∀ check reply,
        (check, reply) ∈ Check.answers host.engine program spec image w.files w.calls Check.all →
        check.inspects = false →
        (report.passes check = true ↔ (check.judge spec reply).passed = true) := by
  obtain ⟨findings, w₁, hperform, hreport⟩ := Act.bind_eq_ok h
  cases hreport
  cases hfound : host.engine.find? client.program with
  | none =>
    obtain ⟨first, w₁, hfirst, -⟩ := Act.bind_eq_ok hperform
    obtain ⟨e, hmissing⟩ :=
      Check.perform_of_missing hfound .entrypoint
    cases hfirst.symm.trans hmissing
  | some program =>
    obtain ⟨hcalls, hanswers⟩ := Check.performAll_answered hfound hperform
    refine ⟨program, rfl, hcalls, fun check reply hmem hcontainer => ?_⟩
    have hdistinct : ((Check.answers host.engine program spec image w.files w.calls
        Check.all).map Prod.fst).Nodup := by
      rw [Check.map_fst_answers]
      decide
    rw [Report.passes, Check.any_passed_of_answers hanswers hdistinct hmem hcontainer]

-- ════════════════════════════════════════════════════════════════════════
-- Numbers in the place of texts
-- ════════════════════════════════════════════════════════════════════════

/-- Whether a text is one of digits other than `0`: what counts for the number of a user who is not
root. -/
def CountsAsNonroot (number : String) : Prop := isAllDigits number = true ∧ number ≠ "0"

theorem CountsAsNonroot.ne_empty {number : String} (h : CountsAsNonroot number) : number ≠ "" := by
  rintro rfl
  exact absurd h.1 (by decide)

/-- Whether a text counts for the number of a user who is not root, but is one of zeros, or has a
digit without a place value. -/
structure HidesRoot (number : String) : Prop where
  counts : CountsAsNonroot number
  digits : (∀ c ∈ number.toList, decimalDigit? c = some 0) ∨
    ∃ c ∈ number.toList, decimalDigit? c = none

/-- Only texts that hide root count without denoting a number other than zero. -/
theorem hidesRoot_iff {number : String} :
    HidesRoot number ↔
      CountsAsNonroot number ∧ ¬ ∃ n, decimalValue? number = some n ∧ n ≠ 0 := by
  have hvalue : (¬ ∃ n, decimalValue? number = some n ∧ n ≠ 0) ↔
      decimalValue? number = some 0 ∨ decimalValue? number = none := by
    cases decimalValue? number <;> simp
  rw [hvalue, decimalValue?_eq_zero_iff, decimalValue?_eq_none_iff]
  constructor
  · rintro ⟨hcounts, hzeros | hother⟩
    · exact ⟨hcounts, Or.inl ⟨hcounts.ne_empty, hzeros⟩⟩
    · exact ⟨hcounts, Or.inr (Or.inr hother)⟩
  · rintro ⟨hcounts, ⟨-, hzeros⟩ | hempty | hother⟩
    · exact ⟨hcounts, Or.inl hzeros⟩
    · exact absurd hempty hcounts.ne_empty
    · exact ⟨hcounts, Or.inr hother⟩

/-- A number as it is written counts for one of a user who is not root where it is not zero. -/
theorem countsAsNonroot_toString (n : Nat) : CountsAsNonroot (toString n) ↔ n ≠ 0 := by
  have hdigits : isAllDigits (toString n) = true :=
    isAllDigits_of_decimalValue? (decimalValue?_toString n)
  have hzero : toString n = "0" ↔ n = 0 := by
    refine ⟨fun htext => ?_, fun hn => hn ▸ rfl⟩
    have hvalue : decimalValue? "0" = some n := htext ▸ decimalValue?_toString n
    exact Option.some.inj (hvalue.symm.trans (decimalValue?_toString 0))
  rw [CountsAsNonroot, and_iff_right hdigits, ne_eq, hzero]

/-- Where checking an image ends with a report, the third call has asked for the number of the user,
and the check of the number passed exactly where the reply counts for a user who is not root. So
where the reply is a number as it is written, it passed exactly where the number is not zero. In
general, a pass means a number other than zero exactly where the reply does not hide root. -/
theorem verify_nonroot_iff (h : verify spec client image host w = (.ok report, w')) :
    ∃ program, host.engine.find? client.program = some program ∧
      let inspection : Call := ⟨program, .inspect image, w.files⟩
      let asking : Call := ⟨program, Check.inContainer image "id" ["-u"], w.files⟩
      let reply := host.engine.reply (w.calls ++ [inspection, inspection]) asking
      let number := strip reply.out
      w.calls ++ [inspection, inspection, asking] <+: w'.calls ∧
      (report.passes .uid = true ↔ reply.code = 0 ∧ CountsAsNonroot number) ∧
      (∀ n : Nat, number = toString n → (report.passes .uid = true ↔ reply.code = 0 ∧ n ≠ 0)) ∧
      ((report.passes .uid = true → ∃ n, decimalValue? number = some n ∧ n ≠ 0) ↔
        ¬ (reply.code = 0 ∧ HidesRoot number)) := by
  obtain ⟨program, hfound, hcalls, hpasses⟩ := verify_passes_iff h
  refine ⟨program, hfound, ?_⟩
  intro inspection asking reply number
  have hmem : (Check.uid, reply) ∈
      Check.answers host.engine program spec image w.files w.calls Check.all := by
    rw [Check.all, Check.answers, Check.answers, Check.answers, List.append_assoc]
    exact List.mem_cons_of_mem _ (List.mem_cons_of_mem _ List.mem_cons_self)
  have hcounts : report.passes .uid = true ↔ reply.code = 0 ∧ CountsAsNonroot number := by
    rw [hpasses .uid reply hmem rfl]
    simp [Check.judge, Check.finding, CountsAsNonroot, number, and_assoc]
  refine ⟨?_, hcounts, fun n hn => ?_, ?_⟩
  · rw [hcalls, List.prefix_append_right_inj]
    exact (List.prefix_append [Check.entrypoint, .user, .uid] _).map
      fun check => (⟨program, check.command spec image, w.files⟩ : Call)
  · rw [hcounts, hn, countsAsNonroot_toString]
  · rw [hcounts, hidesRoot_iff, ← and_assoc, not_and_not_right]

end

theorem verify_eq_ok_of_any {host : Host} {spec : Spec} {image : String} {w : World}
    {holds : Report → Bool}
    (h : (verify spec ⟨"docker"⟩ image host w).1.toOption.any holds = true) :
    ∃ report w', verify spec ⟨"docker"⟩ image host w = (.ok report, w') ∧ holds report = true := by
  obtain ⟨report, hreport, hholds⟩ := exists_ok_of_any h
  exact ⟨report, _, eq_mk_of_fst hreport, hholds⟩

/-- The number of the user of the stock image is not zero. -/
theorem verify_nonroot_hardened :
    ∃ report w', verify Spec.standard ⟨"docker"⟩ "tag" hardenedHost .stocked = (.ok report, w') ∧
      report.passes .uid = true := by
  obtain ⟨report, w', hverify, -⟩ := verify_eq_ok_of_any
    (show (verify Spec.standard ⟨"docker"⟩ "tag" hardenedHost .stocked).1.toOption.any
      (fun _ => true) = true by decide +kernel)
  obtain ⟨program, -, -, -, hwritten, -⟩ := verify_nonroot_iff hverify
  refine ⟨report, w', hverify, (hwritten 1000 ?_).mpr ⟨rfl, by decide⟩⟩
  change strip "1000\n" = toString 1000
  decide +kernel

/-- A host whose engine knows an image, and prints root's number with two zeros. -/
def zerosHost : Host :=
  .replying fun command =>
    match command with
    | .inspect _ => ⟨0, "[\x7b\x7d]", "", none⟩
    | _ => ⟨0, "00\n", "", none⟩

/-- A pass does not mean that the user is not root: asked for the number, the engine prints two
zeros, and the check passes. -/
theorem verify_root_passes :
    let asking : Call := ⟨"docker", Check.inContainer "tag" "id" ["-u"], World.stocked.files⟩
    ∃ report w', verify Spec.standard ⟨"docker"⟩ "tag" zerosHost .stocked = (.ok report, w') ∧
      asking ∈ w'.calls ∧ report.passes .uid = true ∧
      ∀ before, decimalValue? (strip (zerosHost.engine.reply before asking).out) = some 0 := by
  intro asking
  obtain ⟨report, w', hverify, hpasses⟩ := verify_eq_ok_of_any
    (show (verify Spec.standard ⟨"docker"⟩ "tag" zerosHost .stocked).1.toOption.any
      (Report.passes · .uid) = true by decide +kernel)
  obtain ⟨program, hfound, hcalls, -⟩ := verify_passes_iff hverify
  cases hfound
  refine ⟨report, w', hverify, ?_, hpasses, fun before => ?_⟩
  · rw [hcalls]
    exact List.mem_append_right _
      (List.mem_map_of_mem (f := fun check =>
        (⟨"docker", check.command Spec.standard "tag", World.stocked.files⟩ : Call))
        (show Check.uid ∈ Check.all by decide))
  · change decimalValue? (strip "00\n") = some 0
    decide +kernel

end TwoStage

import TwoStage.Proofs.Pipeline.Outcome

/-!
# The order of the calls

A run talks to the engine only in a staged context and only if the engine is there and can be asked
for the build stage. Then it builds the build stage, looks for the executable if that build made an
image, and builds the final stage if the executable is there, its instructions can be written and
the engine can be asked for it; the image of the build stage, once made, is removed at the end of
every such conversation unless it is to be kept.

## Main definitions

- `Orderly` — the conversations of a run
- `Talk.targets` — the stages that are built in a conversation

## Main statements

- `Pipeline.run_orderly` — every run is silent or has an orderly conversation
-/

namespace TwoStage

/-- The stages that are built in a conversation, in order. -/
def Talk.targets (talk : Talk) : List String :=
  talk.filterMap fun exchange =>
    match exchange.1 with
    | .build command => some command.target
    | _ => none

/-- The images that are removed in a conversation, in order. -/
def Talk.removals (talk : Talk) : List String :=
  talk.filterMap fun exchange =>
    match exchange.1 with
    | .remove image => some image
    | _ => none

namespace Talk

variable (reply : Reply) (talk : Talk)

@[simp]
theorem targets_build (command : BuildCommand) :
    targets ((.build command, reply) :: talk) = command.target :: talk.targets := rfl

@[simp]
theorem targets_run (command : RunCommand) :
    targets ((.run command, reply) :: talk) = talk.targets := rfl

@[simp]
theorem targets_remove (image : String) :
    targets ((.remove image, reply) :: talk) = talk.targets := rfl

@[simp]
theorem removals_build (command : BuildCommand) :
    removals ((.build command, reply) :: talk) = talk.removals := rfl

@[simp]
theorem removals_run (command : RunCommand) :
    removals ((.run command, reply) :: talk) = talk.removals := rfl

@[simp]
theorem removals_remove (image : String) :
    removals ((.remove image, reply) :: talk) = image :: talk.removals := rfl

end Talk

section

variable (p : Pipeline) (context : StagedContext)

/-- What is said at the end once the image of the build stage exists: it is removed, unless it is to
be kept. -/
def Parting (talk : Talk) : Prop :=
  if p.keepBuilder then talk = [] else ∃ reply, talk = [(.remove (p.builderTag context), reply)]

variable (host : Host) (t : FileTree)

/-- The conversations of a run in a staged context, `t` being the files of that context and all
others: the build stage makes no image; or it makes one in which there is no executable; or there is
one, but the instructions for the final stage cannot be written, or that stage or its image has a
name that no command line holds; or the final stage is built, whatever comes of that. -/
inductive Orderly : Talk → Prop
  | refused {idFile reply} (hreply : ¬ reply.NamesImage) :
      Orderly [(.build ((p.builderOrder context).command context.root idFile), reply)]
  | unconfirmed {idFile reply probed parting} (hreply : reply.NamesImage) (hcode : probed.code ≠ 0)
      (hparting : Parting p context parting) :
      Orderly ((.build ((p.builderOrder context).command context.root idFile), reply) ::
        (.run (p.probe context), probed) :: parting)
  /-- The instructions cannot be written, or the final stage cannot be asked for. -/
  | unwritten {idFile reply probed parting} (hreply : reply.NamesImage) (hcode : probed.code = 0)
      (hfinal : ¬ (t.takesFile host.cwd (Pipeline.finalFile context) = true ∧ p.NamesFinal))
      (hparting : Parting p context parting) :
      Orderly ((.build ((p.builderOrder context).command context.root idFile), reply) ::
        (.run (p.probe context), probed) :: parting)
  | concluded {idFile reply probed idFile' made parting} (hreply : reply.NamesImage)
      (hcode : probed.code = 0)
      (htakes : t.takesFile host.cwd (Pipeline.finalFile context) = true) (hnames : p.NamesFinal)
      (hparting : Parting p context parting) :
      Orderly ((.build ((p.builderOrder context).command context.root idFile), reply) ::
        (.run (p.probe context), probed) ::
        (.build (p.finalOrder.command context.root idFile'), made) :: parting)

end

-- ════════════════════════════════════════════════════════════════════════
-- Orderly conversations
-- ════════════════════════════════════════════════════════════════════════

namespace Orderly

variable {p : Pipeline} {context : StagedContext} {host : Host} {t : FileTree} {talk : Talk}

theorem targets_parting (h : Parting p context talk) : talk.targets = [] := by
  rw [Parting] at h
  split at h
  · rw [h]
    rfl
  · obtain ⟨reply, rfl⟩ := h
    rfl

theorem mem_removals_parting (h : Parting p context talk) :
    ∀ image ∈ talk.removals, image = p.builderTag context := by
  rw [Parting] at h
  split at h
  · rw [h]
    intro image himage
    cases himage
  · obtain ⟨reply, rfl⟩ := h
    intro image himage
    exact List.mem_singleton.mp himage

/-- No image but that of the build stage is removed. -/
theorem mem_removals (h : Orderly p context host t talk) :
    ∀ image ∈ talk.removals, image = p.builderTag context := by
  cases h with
  | refused hreply =>
    intro image himage
    cases himage
  | unconfirmed hreply hcode hparting =>
    rw [Talk.removals_build, Talk.removals_run]
    exact mem_removals_parting hparting
  | unwritten hreply hcode hfinal hparting =>
    rw [Talk.removals_build, Talk.removals_run]
    exact mem_removals_parting hparting
  | concluded hreply hcode htakes hnames hparting =>
    rw [Talk.removals_build, Talk.removals_run, Talk.removals_build]
    exact mem_removals_parting hparting

/-- No stage is built twice. -/
theorem nodup_targets (h : Orderly p context host t talk)
    (hnames : p.spec.build.name ≠ p.spec.final.name) : talk.targets.Nodup := by
  cases h with
  | refused hreply => exact List.nodup_singleton p.spec.build.name
  | unconfirmed hreply hcode hparting =>
    rw [Talk.targets_build, Talk.targets_run, targets_parting hparting]
    exact List.nodup_singleton p.spec.build.name
  | unwritten hreply hcode hfinal hparting =>
    rw [Talk.targets_build, Talk.targets_run, targets_parting hparting]
    exact List.nodup_singleton p.spec.build.name
  | concluded hreply hcode htakes hsays hparting =>
    have hother : p.spec.build.name ∉ [p.spec.final.name] :=
      fun hmem => hnames (List.mem_singleton.mp hmem)
    rw [Talk.targets_build, Talk.targets_run, Talk.targets_build, targets_parting hparting]
    exact List.nodup_cons.mpr ⟨hother, List.nodup_singleton p.spec.final.name⟩

end Orderly

-- ════════════════════════════════════════════════════════════════════════
-- Conversations of runs
-- ════════════════════════════════════════════════════════════════════════

section

variable {p : Pipeline} {host : Host} {w : World} {start progress : Progress} {talk : Talk}
  {context : StagedContext}

theorem Pipeline.Cleaning.nil_of_untagged (h : p.Cleaning context progress talk)
    (hun : progress.builderTagged = false) : talk = [] := by
  rw [Pipeline.Cleaning, hun, Bool.false_and, if_neg Bool.false_ne_true] at h
  exact h

theorem Pipeline.Cleaning.parting (h : p.Cleaning context progress talk)
    (htagged : progress.builderTagged = true) : Parting p context talk := by
  rw [Pipeline.Cleaning, htagged, Bool.true_and] at h
  rw [Parting]
  cases hkeep : p.keepBuilder with
  | true => simpa [hkeep] using h
  | false => simpa [hkeep] using h

/-- Nothing is said where staging fails, nor in a context for which the engine cannot be asked. -/
theorem Course.silent {result : Except Error (String × String × StagedContext)}
    (h : Course p host w start result progress talk) (hstart : start.Fresh)
    (hno : ∀ context staged, p.spec.stage p.sourceRoot host w = (.ok context, staged) →
      ¬ p.Reaches host context) : talk = [] := by
  cases h with
  | unstaged hstage => rfl
  | stopped hstage hran hbuild hclean =>
    have hmute := hno _ _ hstage
    cases hbuild with
    | engineMissing hfind => exact hclean.nil_of_untagged hstart.untagged
    | unsaid hfind => exact hclean.nil_of_untagged hstart.untagged
    | refused hreach => exact absurd hreach hmute
    | unprobed hreach => exact absurd hreach hmute
    | notExecutable hreach => exact absurd hreach hmute
  | halted hstage hran hbuild =>
    cases hbuild with
    | confirmed hreach => exact absurd hreach (hno _ _ hstage)
  | finished hstage hran hbuild =>
    cases hbuild with
    | confirmed hreach => exact absurd hreach (hno _ _ hstage)

/-- In a staged context for which the engine can be asked, the conversation is orderly. -/
theorem Course.orderly {result : Except Error (String × String × StagedContext)} {staged : World}
    (h : Course p host w start result progress talk) (hstart : start.Fresh)
    (hctx : p.spec.stage p.sourceRoot host w = (.ok context, staged))
    (hpath : isWord p.spec.artifact.path = true) (hreach : p.Reaches host context) :
    Orderly p context host staged.files talk := by
  cases h with
  | unstaged hstage => cases hctx.symm.trans hstage
  | stopped hstage hran hbuild hclean =>
    cases hctx.symm.trans hstage
    cases hbuild with
    | engineMissing hfind =>
      obtain ⟨program, hfound⟩ := hreach.found
      cases hfind.symm.trans hfound
    | unsaid hfind hmute => exact absurd hreach hmute
    | refused _ hmade =>
      rw [hclean.nil_of_untagged hstart.untagged]
      exact .refused (BuildOutcome.not_namesImage_of_made? hmade)
    | unprobed _ hmade hnot => cases hpath.symm.trans hnot
    | notExecutable _ hmade hcode =>
      exact .unconfirmed (BuildOutcome.namesImage_of_made? hmade) hcode (hclean.parting rfl)
  | halted hstage hran hbuild hfinal hclean =>
    cases hctx.symm.trans hstage
    cases hbuild with
    | confirmed _ hmade hcode =>
      have hnamed := BuildOutcome.namesImage_of_made? hmade
      cases hfinal with
      | unwritable htakes =>
        exact .unwritten hnamed hcode (by simp [htakes]) (hclean.parting rfl)
      | unsaid htakes hnames =>
        exact .unwritten hnamed hcode (fun h => hnames h.2) (hclean.parting rfl)
      | refused htakes hnames => exact .concluded hnamed hcode htakes hnames (hclean.parting rfl)
  | finished hstage hran hbuild hfinal hclean =>
    cases hctx.symm.trans hstage
    cases hbuild with
    | confirmed _ hmade hcode =>
      cases hfinal with
      | made htakes hnames =>
        exact .concluded (BuildOutcome.namesImage_of_made? hmade) hcode htakes hnames
          (hclean.parting rfl)

end

end TwoStage
